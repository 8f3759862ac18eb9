import Goldfish.Files.EnvSubst
import Goldfish.Files.Lines
import Goldfish.Lib.Loops
import Mathlib.Data.List.GetD
import Mathlib.Tactic.Common

/-!
# Goldfish.Files.Escaping

Keys and values that any text can be turned into (`makeValidKey`, `makeValidValue`), and
whether they stand for it.

A value reads back as the text, if it ends at all (`escaped_value_iff`): the index of
`envSubst` has 32 bits, and a value of `2 ^ 32` characters is never at its end.
`envSubst?` is that loop. A file holds no such value, and everywhere else `envSubst` stands
for the loop.

A key can be read, but need not tell the text: the `.` that escapes a character is no
character that is escaped (`valid_key_faithful_iff`).
-/

namespace Goldfish.Files

open Goldfish.Lib

/-! ### The keys -/

/-- A digit of the number a character is printed as, in upper case. -/
def hexDigit (digit : Char) : UInt8 :=
  if 'a' ≤ digit ∧ digit ≤ 'f' then digit.toUInt8 - 32 else digit.toUInt8

/-- `std::hex` and `std::setw(2)` of `static_cast<int>`: `char` is signed. -/
def charCode (c : UInt8) : Text :=
  let digits := (Nat.toDigits 16 c.toInt8.toInt32.toUInt32.toNat).map hexDigit
  List.replicate (2 - digits.length) '0'.toUInt8 ++ digits

/-- What a character of the text becomes. -/
def keyChars (c : UInt8) : Text := if isKeyChar c then [c] else '.'.toUInt8 :: charCode c

/-- `makeValidKey`. -/
def makeValidKey (str : Text) : Text := '_'.toUInt8 :: str.flatMap keyChars

/-! ### The values -/

/-- `makeValidValue`: each percent sign is doubled. -/
def makeValidValue (str : Text) : Text :=
  (cString str).flatMap fun ch => if ch = percent then [ch, ch] else [ch]

/-- The variables of the loop of `envSubst`: the length has 64 bits, the index 32. -/
structure Substitution where
  i : UInt32
  res : Text
  /-- Without one, `curr` points at `res`. -/
  var : Option Text

/-- The body of the loop. -/
def Substitution.next (env : Text → Text) (fix : Text) (s : Substitution) : Substitution :=
  let ch := fix.getD s.i.toNat 0
  if ch ≠ percent then
    match s.var with
    | none => { s with i := s.i + 1, res := s.res ++ [ch] }
    | some var => { s with i := s.i + 1, var := some (var ++ [ch]) }
  else
    match s.var with
    | some var => { i := s.i + 1, res := s.res ++ env var, var := none }
    | none =>
      let next := if s.i.toNat < fix.length - 1 then fix.getD (s.i + 1).toNat 0 else 0
      if next = percent then { s with i := s.i + 1 + 1, res := s.res ++ [ch] }
      else { s with i := s.i + 1, var := some [] }

/-- A round of the loop, whose counter has 32 bits. -/
def Substitution.round (env : Text → Text) (fix : Text) (s : Substitution) : Text ⊕ Substitution :=
  if s.i.toNat < fix.length then .inr (s.next env fix)
  else .inl (match s.var with | none => s.res | some var => s.res ++ percent :: var)

/-- `envSubst`, by rounds. -/
def envSubst? (env : Text → Text) (fix : Text) (fuel : Nat) : Option Text :=
  iterate (Substitution.round env fix) ⟨0, [], none⟩ fuel

/-- `getString`, by rounds. -/
def IniFile.getString? (ini : IniFile) (env : Text → Text) (key defaultValue : Text) (fuel : Nat) :
    Option Text :=
  envSubst? env ((ini.mData key).getD defaultValue) fuel

/-! ### Where the loop ends -/

section Rounds

variable {env : Text → Text} {fix : Text}

/-- **One round** gets on, and leaves the rest of the text to read. -/
theorem next_spec (env : Text → Text) (h : fix.length < 4294967296) {s : Substitution} (hi : s.i.toNat < fix.length) :
    s.i.toNat < (s.next env fix).i.toNat ∧ (s.next env fix).i.toNat ≤ fix.length ∧
      envSubstLoop env (fix.drop s.i.toNat) s.res s.var =
        envSubstLoop env (fix.drop (s.next env fix).i.toNat) (s.next env fix).res (s.next env fix).var := by
  obtain ⟨i, res, var⟩ := s
  dsimp only at hi
  have hnext : (i + 1).toNat = i.toNat + 1 := by
    rw [UInt32.toNat_add]
    exact Nat.mod_eq_of_lt (by simp; omega)
  unfold Substitution.next
  dsimp only
  rw [List.drop_eq_getElem_cons hi, List.getD_eq_getElem fix 0 hi]
  generalize fix[i.toNat] = ch
  cases var with
  | some var =>
    rw [envSubstLoop]
    split <;> exact ⟨by dsimp only; omega, by dsimp only; omega, by dsimp only; rw [hnext]⟩
  | none =>
    dsimp only
    by_cases hlast : i.toNat + 1 < fix.length
    · have hnext' : (i + 1 + 1).toNat = i.toNat + 1 + 1 := by
        rw [UInt32.toNat_add, hnext]
        exact Nat.mod_eq_of_lt (by simp; omega)
      have hchar : (if i.toNat < fix.length - 1 then fix.getD (i + 1).toNat 0 else 0) =
          fix[i.toNat + 1] := by
        rw [if_pos (by omega), hnext, List.getD_eq_getElem fix 0 hlast]
      rw [hchar]
      have hdrop := List.drop_eq_getElem_cons hlast
      rw [hdrop]
      generalize fix[i.toNat + 1] = next at hdrop ⊢
      rw [envSubstLoop]
      split
      · exact ⟨by dsimp only; omega, by dsimp only; omega, by dsimp only; rw [hnext, hdrop]⟩
      · split
        · exact ⟨by dsimp only; omega, by dsimp only; omega, by dsimp only; rw [hnext']⟩
        · exact ⟨by dsimp only; omega, by dsimp only; omega, by dsimp only; rw [hnext, hdrop]⟩
    · have hend : fix.drop (i.toNat + 1) = [] := List.drop_of_length_le (by omega)
      have hchar : (if i.toNat < fix.length - 1 then fix.getD (i + 1).toNat 0 else 0) = 0 :=
        if_neg (by omega)
      rw [hchar, if_neg (show (0 : UInt8) ≠ percent by decide), hend, envSubstLoop]
      split
      · refine ⟨by dsimp only; omega, by dsimp only; omega, ?_⟩
        dsimp only
        rw [hnext, hend, envSubstLoop]
      · refine ⟨by dsimp only; omega, by dsimp only; omega, ?_⟩
        dsimp only
        rw [hnext, hend, envSubstLoop]

/-- **Where the loop ends**, and with what. -/
theorem envSubst_returns_iff {value : Text} :
    Returns (envSubst? env fix) value ↔ fix.length < 4294967296 ∧ value = envSubst env fix := by
  change Returns (iterate (Substitution.round env fix) ⟨0, [], none⟩) value ↔ _
  by_cases h : fix.length < 4294967296
  · rw [and_iff_right h]
    refine returns_iff_spec (I := fun s : Substitution => s.i.toNat ≤ fix.length)
      (fun s => envSubstLoop env (fix.drop s.i.toNat) s.res s.var) (fun s => fix.length - s.i.toNat)
      (fun s a hi hround => ?_) (fun s s' hi hround => ?_) (Nat.zero_le _)
    · unfold Substitution.round at hround
      split at hround
      · cases hround
      · obtain ⟨i, res, var⟩ := s
        rw [← Sum.inl.inj hround, List.drop_of_length_le (by dsimp only at *; omega)]
        cases var <;> rfl
    · unfold Substitution.round at hround
      split at hround
      · rename_i hlt
        obtain ⟨hon, hend, hrest⟩ := next_spec env h hlt
        rw [← Sum.inr.inj hround]
        exact ⟨hend, hrest.symm, by omega⟩
      · cases hround
  · refine iff_of_false ?_ fun hboth => h hboth.1
    -- a long text keeps the loop going
    refine not_returns_of_invariant (I := fun _ => True) (fun s _ => ⟨s.next env fix, ?_, trivial⟩) trivial
    exact if_pos (Nat.lt_of_lt_of_le s.i.toNat_lt (Nat.le_of_not_lt h))

end Rounds

/-! ### Values -/

/-- **An escaped text is substituted by itself**, in every environment. -/
theorem envSubst_makeValidValue (env : Text → Text) {str : Text} (h : 0 ∉ str) :
    envSubst env (makeValidValue str) = str := by
  have hloop : ∀ res, envSubstLoop env (str.flatMap fun ch => if ch = percent then [ch, ch] else [ch]) res none =
      res ++ str := by
    clear h
    induction str with
    | nil => simp [envSubstLoop]
    | cons ch str ih =>
      intro res
      rw [List.flatMap_cons]
      split
      · rename_i hch
        rw [List.cons_append, List.cons_append, List.nil_append, hch, envSubstLoop, if_neg (by simp),
          if_pos rfl, ih]
        simp
      · rename_i hch
        rw [envSubstLoop_plain env (by simpa using Ne.symm hch), ih]
        simp
  rw [envSubst, makeValidValue, cString_of_not_mem h, hloop, List.nil_append]

theorem not_mem_makeValidValue (str : Text) : 0 ∉ makeValidValue str := by
  intro h
  obtain ⟨c, hc, hmem⟩ := List.mem_flatMap.mp h
  have hzero : 0 = c := by
    split at hmem <;> simpa using hmem
  exact not_mem_cString str (hzero ▸ hc)

/-- Escaping makes no text shorter. -/
theorem length_le_makeValidValue {str : Text} (h : 0 ∉ str) : str.length ≤ (makeValidValue str).length := by
  rw [makeValidValue, cString_of_not_mem h, List.length_flatMap]
  induction str with
  | nil => exact Nat.le_refl 0
  | cons ch str ih =>
    have htail := ih fun hmem => h (List.mem_cons_of_mem ch hmem)
    rw [List.map_cons, List.sum_cons, List.length_cons]
    split <;> simp only [List.length_cons, List.length_nil] <;> omega

/-- An escaped text that was set. -/
theorem getString_makeValidValue_iff (ini : IniFile) (env : Text → Text) (key defaultValue : Text)
    {str : Text} (h : 0 ∉ str) :
    Returns ((ini.set key (.setString (makeValidValue str))).getString? env key defaultValue) str ↔
      (makeValidValue str).length < 4294967296 := by
  have hvalue : ((ini.set key (.setString (makeValidValue str))).mData key).getD defaultValue =
      makeValidValue str := by
    rw [IniFile.set, IniFile.updateData, IniFile.emplace, Setter.text,
      cString_of_not_mem (not_mem_makeValidValue str)]
    dsimp only
    rw [Function.update_self]
    rfl
  unfold IniFile.getString?
  rw [hvalue, envSubst_returns_iff, envSubst_makeValidValue env h]
  exact and_iff_left rfl

/-- **Escaped values.** A value that was set from an escaped text reads back as the text, and one without
percent signs as itself, in any environment, exactly if what is stored is shorter than `2 ^ 32`. -/
theorem escaped_value_iff (ini : IniFile) (env : Text → Text) (key defaultValue : Text) {str : Text}
    (h : 0 ∉ str) :
    (Returns ((ini.set key (.setString (makeValidValue str))).getString? env key defaultValue) str ↔
        (makeValidValue str).length < 4294967296) ∧
      (percent ∉ str → (Returns (envSubst? env str) str ↔ str.length < 4294967296)) := by
  refine ⟨getString_makeValidValue_iff ini env key defaultValue h, fun hpercent => ?_⟩
  rw [envSubst_returns_iff, envSubst_of_not_mem env hpercent]
  exact and_iff_left rfl

/-- The run of percent signs of the source's comment. -/
theorem escaped_user :
    let str := ['%', '%', '%', 'U', 'S', 'E', 'R', '%', '%', '%'].map Char.toUInt8
    Returns (((IniFile.new []).set [] (.setString (makeValidValue str))).getString? (fun _ => []) [] []) str := by
  exact (escaped_value_iff (IniFile.new []) (fun _ => []) [] [] (by decide)).1.mpr (by decide)

/-- A value that is too long. -/
theorem not_returns_long (ini : IniFile) (env : Text → Text) (key defaultValue : Text) {str : Text} (h : 0 ∉ str)
    (hlong : 4294967296 ≤ str.length) :
    ¬ Returns ((ini.set key (.setString (makeValidValue str))).getString? env key defaultValue) str := by
  rw [getString_makeValidValue_iff ini env key defaultValue h]
  exact Nat.not_lt.mpr (hlong.trans (length_le_makeValidValue h))

/-- So many letters. -/
theorem exists_long (n : Nat) : ∃ str : Text, 0 ∉ str ∧ str.length = n := by
  refine ⟨List.replicate n 'a'.toUInt8, fun hmem => ?_, List.length_replicate⟩
  exact absurd (List.eq_of_mem_replicate hmem) (by decide)

/-- A text of `2 ^ 32` letters is none that `getString` returns. -/
theorem long_value_never_read : ¬ ∀ (ini : IniFile) (env : Text → Text) (key defaultValue str : Text), 0 ∉ str →
    Returns ((ini.set key (.setString (makeValidValue str))).getString? env key defaultValue) str := by
  intro h
  obtain ⟨str, hstr, hlong⟩ := exists_long 4294967296
  exact not_returns_long (IniFile.new []) (fun _ => []) [] [] hstr (Nat.le_of_eq hlong.symm)
    (h (IniFile.new []) (fun _ => []) [] [] str hstr)

/-! ### Keys -/

/-- What a number is printed with. -/
theorem exists_digitChar {b n : Nat} (hb : 1 < b) {digit : Char} (h : digit ∈ Nat.toDigits b n) :
    ∃ d < b, digit = d.digitChar := by
  induction n using Nat.strong_induction_on with
  | _ n ih =>
    rw [Nat.toDigits_eq_if hb] at h
    split at h
    · rename_i hlt
      exact ⟨n, hlt, List.mem_singleton.mp h⟩
    · rename_i hle
      have hpos : 0 < n := by omega
      rcases List.mem_append.mp h with h | h
      · exact ih (n / b) (Nat.div_lt_self hpos hb) h
      · exact ⟨n % b, Nat.mod_lt n (by omega), List.mem_singleton.mp h⟩

/-- The code of a character can stand in a key, and is not empty. -/
theorem charCode_isKeyChar (c : UInt8) : charCode c ≠ [] ∧ ∀ d ∈ charCode c, isKeyChar d = true := by
  have hhex : ∀ d < 16, isKeyChar (hexDigit d.digitChar) = true := by decide
  constructor
  · apply List.append_ne_nil_of_right_ne_nil
    rw [Ne, List.map_eq_nil_iff]
    exact Nat.toDigits_ne_nil
  · intro d hd
    rcases List.mem_append.mp hd with hd | hd
    · rw [List.eq_of_mem_replicate hd]
      decide
    · obtain ⟨digit, hdigit, rfl⟩ := List.mem_map.mp hd
      obtain ⟨k, hk, rfl⟩ := exists_digitChar (by decide) hdigit
      exact hhex k hk

theorem keyChars_isKeyChar (c : UInt8) : ∀ d ∈ keyChars c, isKeyChar d = true := by
  unfold keyChars
  split
  · rename_i hc
    intro d hd
    rw [List.mem_singleton.mp hd]
    exact hc
  · intro d hd
    rcases List.mem_cons.mp hd with rfl | hd
    · decide
    · exact (charCode_isKeyChar c).2 d hd

/-- An escape is longer than the character. -/
theorem length_keyChars {c : UInt8} (h : isKeyChar c = false) : 1 < (keyChars c).length := by
  have hpos := List.length_pos_iff.mpr (charCode_isKeyChar c).1
  rw [keyChars, h, if_neg Bool.false_ne_true, List.length_cons]
  omega

/-- What can stand in a key is not escaped. -/
theorem flatMap_keyChars {str : Text} (h : ∀ c ∈ str, isKeyChar c = true) : str.flatMap keyChars = str := by
  induction str with
  | nil => rfl
  | cons c str ih =>
    have hc : keyChars c = [c] := if_pos (h c List.mem_cons_self)
    rw [List.flatMap_cons, hc, ih fun d hd => h d (List.mem_cons_of_mem c hd)]
    rfl

/-- An escape and the character that it is for have the same key. -/
theorem makeValidKey_literal (before after : Text) (c : UInt8) :
    makeValidKey (before ++ keyChars c ++ after) = makeValidKey (before ++ c :: after) := by
  simp only [makeValidKey, List.flatMap_append, List.flatMap_cons, flatMap_keyChars (keyChars_isKeyChar c),
    List.append_assoc]

theorem validKey_makeValidKey (str : Text) : ValidKey (makeValidKey str) := by
  refine ⟨by decide, fun d hd => ?_⟩
  obtain ⟨c, -, hd⟩ := List.mem_flatMap.mp hd
  exact keyChars_isKeyChar c d hd

/-- **Keys.** The key of a text can be read, and is the key of no other text exactly if the text has only
characters that can stand in a key and no escape of another one in it. -/
theorem valid_key_faithful_iff (str : Text) :
    (ValidKey (makeValidKey str) ∧ ∀ value, StoredValue value →
        parseLine (entryLine (makeValidKey str) value) = .entry (makeValidKey str) value) ∧
      ((∀ other, makeValidKey other = makeValidKey str → other = str) ↔
        (∀ c ∈ str, isKeyChar c = true) ∧ ∀ c, isKeyChar c = false → ¬ keyChars c <:+: str) := by
  have hvalid := validKey_makeValidKey str
  refine ⟨⟨hvalid, fun value hvalue => parseLine_entryLine hvalid hvalue⟩, ?_⟩
  constructor
  · intro h
    refine ⟨fun c hc => ?_, fun c hc hescape => ?_⟩
    · by_contra hkey
      obtain ⟨before, after, hstr⟩ := List.append_of_mem hc
      -- the escape, written out
      have hother := h (before ++ keyChars c ++ after) (by rw [makeValidKey_literal, hstr])
      have hlength := congrArg List.length hother
      have := length_keyChars (Bool.eq_false_iff.mpr hkey)
      simp only [hstr, List.length_append, List.length_cons] at hlength
      omega
    · obtain ⟨before, after, hstr⟩ := hescape
      have hother := h (before ++ c :: after) (by rw [← hstr, makeValidKey_literal])
      have hlength := congrArg List.length hother
      have := length_keyChars hc
      simp only [← hstr, List.length_append, List.length_cons] at hlength
      omega
  · intro ⟨hkey, hescape⟩ other hother
    have hsame : other.flatMap keyChars = str := by
      have htail := (List.cons.inj hother).2
      rwa [flatMap_keyChars hkey] at htail
    by_cases hplain : ∀ c ∈ other, isKeyChar c = true
    · rwa [flatMap_keyChars hplain] at hsame
    · exfalso
      obtain ⟨c, hc, hnot⟩ : ∃ c ∈ other, ¬ isKeyChar c = true := by simpa using hplain
      obtain ⟨before, after, rfl⟩ := List.append_of_mem hc
      refine hescape c (Bool.eq_false_iff.mpr hnot) ⟨before.flatMap keyChars, after.flatMap keyChars, ?_⟩
      rw [← hsame, List.flatMap_append, List.flatMap_cons, List.append_assoc]

/-- The test of the source, and the text that is its key without the underscore. -/
theorem equals_sign_key : ¬ ∀ str other, makeValidKey other = makeValidKey str → other = str := by
  intro h
  exact absurd (h ['='.toUInt8] (['.', '3', 'D'].map Char.toUInt8) (by decide)) (by decide)

end Goldfish.Files
