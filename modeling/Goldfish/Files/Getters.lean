import Goldfish.Files.Escaping
import Goldfish.Lib.CStrings

/-!
# Goldfish.Files.Getters

Reading numbers and truth values (`getInt`, `getInt64`, `getBool`), and for **which texts
they are exact**: the value that the text denotes, and the default for a text that denotes
none.

A getter is exact on a text exactly if its parser takes what the text denotes and nothing
else (`exact_iff`). `strtol` stops at a NUL, takes an empty text for a zero and more digits
than `int` has room for (`integer_getters_iff`); a comparison that is as long as the value
takes every beginning of a word (`getBool_iff`).
-/

namespace Goldfish.Files

open Goldfish.Lib

/-! ### Getters -/

/-- What the getters have in common: the value of a key that is found is parsed, and the default stands for
one that is malformed. -/
def IniFile.getValue {α : Type} (ini : IniFile) (env : Text → Text) (parse : Text → Option α) (found : Bool)
    (key : Text) (defaultValue : α) (fuel : Nat) : Option α :=
  if found then (ini.getString? env key [] fuel).map fun value => (parse value).getD defaultValue
  else some defaultValue

/-- The check behind `strtol` and `strtoll`: `long` has 64 bits too. -/
def parseInteger (einval : Bool) (value : Text) : Option Int :=
  let result := strtoll einval (cString value)
  if result.errno ∨ result.rest ≠ [] then none else some result.value

/-- `getInt`. -/
def IniFile.getInt (ini : IniFile) (env : Text → Text) (einval : Bool) (key : Text) (defaultValue : Int32)
    (fuel : Nat) : Option Int32 :=
  ini.getValue env (fun value => (parseInteger einval value).map Int32.ofInt) (ini.mData key).isSome key
    defaultValue fuel

/-- `getInt64`. -/
def IniFile.getInt64 (ini : IniFile) (env : Text → Text) (einval : Bool) (key : Text) (defaultValue : Int64)
    (fuel : Nat) : Option Int64 :=
  ini.getValue env (fun value => (parseInteger einval value).map Int64.ofInt) (ini.mData key).isSome key
    defaultValue fuel

/-- What counts as true. -/
def trueWords : List Text := ["yes".toList.map Char.toUInt8, "true".toList.map Char.toUInt8, ['1'.toUInt8]]

/-- What counts as false. -/
def falseWords : List Text := ["no".toList.map Char.toUInt8, "false".toList.map Char.toUInt8, ['0'.toUInt8]]

/-- `isBoolTrue`. A beginning of a word is enough. -/
def isBoolTrue (value : Text) : Bool := trueWords.any fun word => strncasecmp word value value.length = 0

/-- `isBoolFalse`. A beginning of a word is enough. -/
def isBoolFalse (value : Text) : Bool := falseWords.any fun word => strncasecmp word value value.length = 0

/-- What `getBool` makes of a value. -/
def parseBool (value : Text) : Option Bool :=
  if isBoolTrue value then some true else if isBoolFalse value then some false else none

/-- `getBool`. -/
def IniFile.getBool (ini : IniFile) (env : Text → Text) (key : Text) (defaultValue : Bool) (fuel : Nat) :
    Option Bool :=
  ini.getValue env parseBool (ini.mData key).isSome key defaultValue fuel

/-! ### Exact getters -/

/-- The getter returns the value that is denoted, and the default if none is. -/
def Exact {α : Type} (get : (defaultValue : α) → (fuel : Nat) → Option α) (denotes : α → Prop) : Prop :=
  ∀ defaultValue, (∀ v, denotes v → Returns (get defaultValue) v) ∧
    ((∀ v, ¬ denotes v) → Returns (get defaultValue) defaultValue)

section Exact

variable {α : Type} {ini : IniFile} {env : Text → Text} {parse : Text → Option α} {key s : Text}

/-- What a getter returns for a key that is found. -/
theorem getValue_returns_iff (hkey : ini.mData key = some s) {defaultValue v : α} (hs : percent ∉ s) :
    Returns (ini.getValue env parse true key defaultValue) v ↔
      s.length < 4294967296 ∧ v = (parse s).getD defaultValue := by
  have hstring : ∀ value, Returns (ini.getString? env key []) value ↔ s.length < 4294967296 ∧ value = s := by
    intro value
    unfold IniFile.getString?
    rw [hkey, Option.getD_some, envSubst_returns_iff, envSubst_of_not_mem env hs]
  constructor
  · intro ⟨fuel, hv⟩
    rw [IniFile.getValue, if_pos rfl, Option.map_eq_some_iff] at hv
    obtain ⟨value, hvalue, hv⟩ := hv
    obtain ⟨hlength, rfl⟩ := (hstring value).mp ⟨fuel, hvalue⟩
    exact ⟨hlength, hv.symm⟩
  · intro ⟨hlength, hv⟩
    obtain ⟨fuel, hvalue⟩ := (hstring s).mpr ⟨hlength, rfl⟩
    refine ⟨fuel, ?_⟩
    rw [IniFile.getValue, if_pos rfl, hvalue, hv]
    rfl

/-- What it returns for one that is not. -/
theorem getValue_missing_iff {defaultValue v : α} :
    Returns (ini.getValue env parse false key defaultValue) v ↔ defaultValue = v := by
  constructor
  · intro ⟨_, hv⟩
    exact Option.some.inj hv
  · intro hv
    exact ⟨0, congrArg some hv⟩

/-- A value that is returned whatever the default is has been parsed. There are two values to tell a default
from. -/
theorem getValue_always_iff {a b : α} (hab : a ≠ b) (hkey : ini.mData key = some s) (hs : percent ∉ s)
    (found : Bool) (v : α) :
    (∀ defaultValue, Returns (ini.getValue env parse found key defaultValue) v) ↔
      found = true ∧ s.length < 4294967296 ∧ parse s = some v := by
  cases found with
  | false =>
    simp only [getValue_missing_iff, Bool.false_eq_true, false_and, iff_false]
    exact fun h => hab ((h a).trans (h b).symm)
  | true =>
    simp only [getValue_returns_iff hkey hs, true_and]
    constructor
    · intro h
      refine ⟨(h a).1, ?_⟩
      cases hparse : parse s with
      | some w =>
        have hw := (h a).2
        rw [hparse] at hw
        rw [hw]
        rfl
      | none =>
        have ha := (h a).2
        have hb := (h b).2
        rw [hparse] at ha hb
        exact absurd (ha.symm.trans hb) hab
    · intro ⟨hlength, hv⟩ defaultValue
      rw [hv]
      exact ⟨hlength, rfl⟩

/-- **Exact getters** are those whose parser takes what is denoted and nothing else. -/
theorem exact_iff {a b : α} (hab : a ≠ b) (hkey : ini.mData key = some s) (hs : percent ∉ s)
    (denotes : α → Prop) :
    Exact (ini.getValue env parse true key) denotes ↔
      s.length < 4294967296 ∧ ∀ v, parse s = some v ↔ denotes v := by
  constructor
  · intro h
    -- what is denoted is taken: the parser does not see the default
    have htaken : ∀ v, denotes v → parse s = some v := fun v hv =>
      ((getValue_always_iff hab hkey hs true v).mp fun d => (h d).1 v hv).2.2
    simp only [Exact, getValue_returns_iff hkey hs] at h
    by_cases hsome : ∃ w, denotes w
    · obtain ⟨w, hw⟩ := hsome
      refine ⟨((h a).1 w hw).1, fun v => ⟨fun hv => ?_, htaken v⟩⟩
      rw [htaken w hw, Option.some_inj] at hv
      exact hv ▸ hw
    · have hnone : ∀ w, ¬ denotes w := fun w hw => hsome ⟨w, hw⟩
      refine ⟨((h a).2 hnone).1, fun v => ⟨fun hv => ?_, htaken v⟩⟩
      have ha := ((h a).2 hnone).2
      have hb := ((h b).2 hnone).2
      rw [hv] at ha hb
      exact absurd (ha.trans hb.symm) hab
  · intro ⟨hlength, h⟩ defaultValue
    simp only [getValue_returns_iff hkey hs]
    refine ⟨fun v hv => ⟨hlength, ?_⟩, fun hnone => ⟨hlength, ?_⟩⟩
    · rw [(h v).mpr hv]
      rfl
    · cases hparse : parse s with
      | none => rfl
      | some v => exact absurd ((h v).mp hparse) (hnone v)

end Exact

/-! ### Integers -/

/-- What the check lets pass: the numerals in front of a NUL that fit in 64 bits, and nothing at all, for a
zero. -/
theorem parseInteger_iff {einval : Bool} {s : Text} {x : Int} :
    parseInteger einval s = some x ↔
      Numeral (cString s) x ∧ LLONG_MIN ≤ x ∧ x ≤ LLONG_MAX ∨ cString s = [] ∧ einval = false ∧ x = 0 := by
  rw [← strtoll_whole_iff, parseInteger]
  split
  · rename_i h
    refine iff_of_false (by simp) fun hwhole => ?_
    rcases h with h | h
    · exact absurd h (by simp [hwhole.1])
    · exact h hwhole.2.1
  · rename_i h
    rw [not_or, not_not, Bool.not_eq_true] at h
    rw [Option.some_inj]
    exact ⟨fun hv => ⟨h.1, h.2, hv⟩, fun hwhole => hwhole.2.2⟩

section Integers

variable {α : Type} {ofInt : Int → α} {toInt : α → Int}

/-- **Narrowing.** A parser of integers that narrows what it has parsed. -/
theorem narrow_iff (hof : ∀ v, ofInt (toInt v) = v) (hlow : ∀ v, LLONG_MIN ≤ toInt v)
    (hhigh : ∀ v, toInt v ≤ LLONG_MAX) (einval : Bool) (s : Text) :
    (∀ v, (parseInteger einval s).map ofInt = some v ↔ Numeral s (toInt v)) ↔
      (∀ x, Numeral (cString s) x → LLONG_MIN ≤ x → x ≤ LLONG_MAX → 0 ∉ s ∧ toInt (ofInt x) = x) ∧
        (cString s = [] → einval = true) := by
  have hwhole : ∀ {x}, Numeral s x → cString s = s := fun h => cString_of_not_mem (h.nul_not_mem)
  simp only [Option.map_eq_some_iff, parseInteger_iff]
  constructor
  · intro h
    refine ⟨fun x hx hmin hmax => ?_, fun hempty => ?_⟩
    · have hv := (h (ofInt x)).mp ⟨x, .inl ⟨hx, hmin, hmax⟩, rfl⟩
      rw [hwhole hv] at hx
      exact ⟨hv.nul_not_mem, hv.unique hx⟩
    · by_contra heinval
      have hv := (h (ofInt 0)).mp ⟨0, .inr ⟨hempty, by simpa using heinval, rfl⟩, rfl⟩
      rw [hwhole hv] at hempty
      rw [hempty] at hv
      exact not_numeral_nil hv
  · intro ⟨hnumeral, hempty⟩ v
    constructor
    · intro ⟨x, hx, hv⟩
      rcases hx with ⟨hx, hmin, hmax⟩ | ⟨hnil, heinval, -⟩
      · obtain ⟨hnul, hsame⟩ := hnumeral x hx hmin hmax
        rw [cString_of_not_mem hnul] at hx
        rwa [← hv, hsame]
      · rw [hempty hnil] at heinval
        cases heinval
    · intro hv
      refine ⟨toInt v, .inl ⟨?_, hlow v, hhigh v⟩, hof v⟩
      rwa [hwhole hv]

end Integers

/-- The text of an integer is a numeral. -/
theorem numeral_to_string (n : Int) : Numeral (to_string n) n := by
  refine ⟨[], if n < 0 then ['-'.toUInt8] else [], (Nat.toDigits 10 n.natAbs).map Char.toUInt8, ?_, by simp, ?_,
    by simp, fun _ hc => isdigit_toDigits hc, ?_⟩
  · rw [to_string]
    split <;> rfl
  · split
    · exact .inr (.inr rfl)
    · exact .inl rfl
  · rw [decimal_toDigits, signed]
    split
    · rw [if_pos rfl]
      omega
    · rw [if_neg (by simp)]
      omega

/-- The text of an integer of 64 bits is short. -/
theorem length_to_string {n : Int} (h : n.natAbs < 18446744073709551616) : (to_string n).length ≤ 21 := by
  have hdigits : (Nat.toDigits 10 n.natAbs).length ≤ 20 := by
    rw [Nat.length_toDigits_le_iff (by decide) (by decide)]
    omega
  rw [to_string]
  split <;> simp only [List.length_cons, List.length_map] <;> omega

theorem percent_not_mem_to_string (n : Int) : percent ∉ to_string n :=
  (numeral_to_string n).not_mem (by decide) (by decide) (by decide)

/-- An integer that was set. -/
theorem parseInteger_to_string (einval : Bool) {n : Int} (hlow : LLONG_MIN ≤ n) (hhigh : n ≤ LLONG_MAX) :
    parseInteger einval (to_string n) = some n := by
  have hn := numeral_to_string n
  exact parseInteger_iff.mpr (.inl ⟨(cString_of_not_mem hn.nul_not_mem).symm ▸ hn, hlow, hhigh⟩)

theorem set_mData (ini : IniFile) (key : Text) (setter : Setter) :
    (ini.set key setter).mData key = some setter.text := by
  rw [IniFile.set, IniFile.updateData, IniFile.emplace]
  exact Function.update_self ..

theorem natAbs_lt {n : Int} (hlow : LLONG_MIN ≤ n) (hhigh : n ≤ LLONG_MAX) :
    n.natAbs < 18446744073709551616 := by
  unfold LLONG_MIN LLONG_MAX at *
  omega

theorem int32_range (v : Int32) : LLONG_MIN ≤ v.toInt ∧ v.toInt ≤ LLONG_MAX := by
  have hlow := v.le_toInt
  have hhigh := v.toInt_lt
  unfold LLONG_MIN LLONG_MAX
  omega

theorem int64_range (v : Int64) : LLONG_MIN ≤ v.toInt ∧ v.toInt ≤ LLONG_MAX := by
  have hlow := v.le_toInt
  have hhigh := v.toInt_lt
  unfold LLONG_MIN LLONG_MAX
  omega

theorem int32_fits {x : Int} : (Int32.ofInt x).toInt = x ↔ -2147483648 ≤ x ∧ x ≤ 2147483647 := by
  constructor
  · intro h
    have hlow := (Int32.ofInt x).le_toInt
    have hhigh := (Int32.ofInt x).toInt_lt
    omega
  · intro h
    exact Int32.toInt_ofInt_of_le (by omega) (by omega)

theorem int64_fits {x : Int} (hlow : LLONG_MIN ≤ x) (hhigh : x ≤ LLONG_MAX) : (Int64.ofInt x).toInt = x := by
  unfold LLONG_MIN at hlow
  unfold LLONG_MAX at hhigh
  exact Int64.toInt_ofInt_of_le (by omega) (by omega)

/-- **An integer that was set** is read back, whatever type it has. -/
theorem getInteger_returns {α : Type} {ofInt : Int → α} {toInt : α → Int} (hof : ∀ v, ofInt (toInt v) = v)
    {ini : IniFile} {key : Text} {v : α} (hrange : LLONG_MIN ≤ toInt v ∧ toInt v ≤ LLONG_MAX)
    (hkey : ini.mData key = some (to_string (toInt v))) (env : Text → Text) (einval : Bool) (d : α) :
    Returns (ini.getValue env (fun value => (parseInteger einval value).map ofInt) true key d) v := by
  have hlength := length_to_string (natAbs_lt hrange.1 hrange.2)
  rw [getValue_returns_iff hkey (percent_not_mem_to_string _), parseInteger_to_string einval hrange.1 hrange.2]
  exact ⟨by omega, (hof v).symm⟩

/-- **Integers.** `getInt` is exact on a text without percent signs exactly if the text is shorter than
`2 ^ 32`, what is in front of a NUL, where it is a numeral of 64 bits, is the whole text and fits in 32
bits, and there is something in front of a NUL unless the library objects to nothing; `getInt64` under the
same condition without the 32 bits. Whatever was set is read back. -/
theorem integer_getters_iff (ini : IniFile) (env : Text → Text) (einval : Bool) {key s : Text}
    (hkey : ini.mData key = some s) (hs : percent ∉ s) :
    (Exact (ini.getInt env einval key) (fun v => Numeral s v.toInt) ↔
        s.length < 4294967296 ∧
          (∀ x, Numeral (cString s) x → LLONG_MIN ≤ x → x ≤ LLONG_MAX →
            0 ∉ s ∧ -2147483648 ≤ x ∧ x ≤ 2147483647) ∧
          (cString s = [] → einval = true)) ∧
      (Exact (ini.getInt64 env einval key) (fun v => Numeral s v.toInt) ↔
        s.length < 4294967296 ∧
          (∀ x, Numeral (cString s) x → LLONG_MIN ≤ x → x ≤ LLONG_MAX → 0 ∉ s) ∧
          (cString s = [] → einval = true)) ∧
      (∀ v d, Returns ((ini.set key (.setInt v)).getInt env einval key d) v) ∧
      ∀ v d, Returns ((ini.set key (.setInt64 v)).getInt64 env einval key d) v := by
  refine ⟨?_, ?_, fun v d => ?_, fun v d => ?_⟩
  · unfold IniFile.getInt
    rw [hkey, Option.isSome_some, exact_iff (show (0 : Int32) ≠ 1 by decide) hkey hs,
      narrow_iff Int32.ofInt_toInt (fun v => (int32_range v).1) (fun v => (int32_range v).2)]
    simp only [int32_fits]
  · unfold IniFile.getInt64
    rw [hkey, Option.isSome_some, exact_iff (show (0 : Int64) ≠ 1 by decide) hkey hs,
      narrow_iff Int64.ofInt_toInt (fun v => (int64_range v).1) (fun v => (int64_range v).2)]
    refine and_congr_right fun _ => and_congr_left fun _ => ?_
    -- nothing is lost in 64 bits
    constructor
    · intro h x hx hlow hhigh
      exact (h x hx hlow hhigh).1
    · intro h x hx hlow hhigh
      exact ⟨h x hx hlow hhigh, int64_fits hlow hhigh⟩
  · have hset := set_mData ini key (.setInt v)
    unfold IniFile.getInt
    rw [hset, Option.isSome_some]
    exact getInteger_returns Int32.ofInt_toInt (int32_range v) hset env einval d
  · have hset := set_mData ini key (.setInt64 v)
    unfold IniFile.getInt64
    rw [hset, Option.isSome_some]
    exact getInteger_returns Int64.ofInt_toInt (int64_range v) hset env einval d

theorem twelve_is_exact :
    let s := ['1', '2'].map Char.toUInt8
    Exact (((IniFile.new []).set [] (.setString s)).getInt (fun _ => []) false []) fun v =>
      Numeral s v.toInt := by
  refine (integer_getters_iff _ _ false (set_mData _ _ _) (by decide)).1.mpr
    ⟨by decide, fun x hx _ _ => ⟨by decide, ?_⟩, fun hempty => absurd hempty (by decide)⟩
  rw [(numeral_iff.mp hx).2.2]
  decide

/-- Ten digits that `int` has no room for. -/
theorem ten_digits_read_as_one : ¬ ∀ (ini : IniFile) (env : Text → Text) (einval : Bool) (key s : Text),
    ini.mData key = some s → percent ∉ s → Exact (ini.getInt env einval key) fun v => Numeral s v.toInt := by
  intro h
  let s := ['4', '2', '9', '4', '9', '6', '7', '2', '9', '7'].map Char.toUInt8
  have hset := set_mData (IniFile.new []) [] (.setString s)
  have hpercent : percent ∉ (Setter.setString s).text := by decide
  have hexact := h _ (fun _ => []) true [] _ hset hpercent
  have hvalue : (scan (Setter.setString s).text).value = 4294967297 := by decide
  have hdefault := (hexact 7).2 fun v hv => by
    have hv' := (numeral_iff.mp hv).2.2
    rw [hvalue] at hv'
    have := v.toInt_lt
    omega
  unfold IniFile.getInt at hdefault
  rw [hset, Option.isSome_some, getValue_returns_iff hset hpercent] at hdefault
  exact absurd hdefault.2 (by decide)

/-! ### Truth values -/

/-- A truth value in any case. -/
def BoolWord (s : Text) (v : Bool) : Prop := s.map tolower ∈ if v then trueWords else falseWords

/-- What a comparison as long as the value accepts. -/
theorem any_word_iff {words : List Text} (hlower : ∀ word ∈ words, 0 ∉ word ∧ word.map tolower = word) (s : Text) :
    (words.any fun word => strncasecmp word s s.length = 0) = true ↔
      ∃ word ∈ words, s.map tolower <+: word ∨ word ++ [0] <+: s.map tolower := by
  rw [List.any_eq_true]
  refine exists_congr fun word => and_congr_right fun hword => ?_
  obtain ⟨hnul, hsame⟩ := hlower word hword
  rw [decide_eq_true_eq, strncasecmp_eq_zero_iff hnul, hsame]

/-- The words are in lower case, and have no NUL in them. -/
theorem words_lower : ∀ word ∈ trueWords ++ falseWords, 0 ∉ word ∧ word.map tolower = word := by
  decide

/-- No word is the beginning of another one. -/
theorem words_incomparable : ∀ word ∈ trueWords ++ falseWords, ∀ other ∈ trueWords ++ falseWords,
    word <+: other → word = other := by
  decide

theorem words_disjoint : ∀ word ∈ falseWords, word ∉ trueWords := by
  decide

/-- What `parseBool` takes. -/
theorem parseBool_isSome_iff {s : Text} :
    (∃ v, parseBool s = some v) ↔
      ∃ word ∈ trueWords ++ falseWords, s.map tolower <+: word ∨ word ++ [0] <+: s.map tolower := by
  have htrue := any_word_iff (fun word hword => words_lower word (List.mem_append_left falseWords hword)) s
  have hfalse := any_word_iff (fun word hword => words_lower word (List.mem_append_right trueWords hword)) s
  simp only [List.mem_append, or_and_right, exists_or]
  rw [← htrue, ← hfalse]
  change (∃ v, parseBool s = some v) ↔ isBoolTrue s = true ∨ isBoolFalse s = true
  unfold parseBool
  cases isBoolTrue s <;> cases isBoolFalse s <;> simp

/-- It is exact if each comparison accepts just its words. -/
theorem parseBool_eq_some_iff {s : Text} (htrue : isBoolTrue s = true ↔ s.map tolower ∈ trueWords)
    (hfalse : isBoolFalse s = true ↔ s.map tolower ∈ falseWords) (v : Bool) :
    parseBool s = some v ↔ BoolWord s v := by
  unfold parseBool BoolWord
  by_cases htrueWord : s.map tolower ∈ trueWords
  · rw [if_pos (htrue.mpr htrueWord)]
    cases v with
    | true => exact iff_of_true rfl htrueWord
    | false => exact iff_of_false (by simp) fun hfalseWord => words_disjoint _ hfalseWord htrueWord
  · rw [if_neg (mt htrue.mp htrueWord)]
    by_cases hfalseWord : s.map tolower ∈ falseWords
    · rw [if_pos (hfalse.mpr hfalseWord)]
      cases v with
      | true => exact iff_of_false (by simp) htrueWord
      | false => exact iff_of_true rfl hfalseWord
    · rw [if_neg (mt hfalse.mp hfalseWord)]
      cases v with
      | true => exact iff_of_false (by simp) htrueWord
      | false => exact iff_of_false (by simp) hfalseWord

/-- **Truth values.** `getBool` is exact on a text without percent signs exactly if the text is shorter than
`2 ^ 32`, and neither a proper beginning of a word, in any case, nor a word with a NUL behind it. -/
theorem getBool_iff (ini : IniFile) (env : Text → Text) {key s : Text} (hkey : ini.mData key = some s)
    (hs : percent ∉ s) :
    Exact (ini.getBool env key) (BoolWord s) ↔
      s.length < 4294967296 ∧ ∀ word ∈ trueWords ++ falseWords,
        (s.map tolower <+: word → s.map tolower = word) ∧ ¬ word ++ [0] <+: s.map tolower := by
  unfold IniFile.getBool
  rw [hkey, Option.isSome_some, exact_iff Bool.false_ne_true hkey hs]
  refine and_congr_right fun _ => ?_
  constructor
  · intro h word hword
    -- what is taken is a word
    have hmem : s.map tolower <+: word ∨ word ++ [0] <+: s.map tolower →
        s.map tolower ∈ trueWords ++ falseWords := by
      intro htaken
      obtain ⟨v, hv⟩ := parseBool_isSome_iff.mpr ⟨word, hword, htaken⟩
      have hs := (h v).mp hv
      unfold BoolWord at hs
      rw [List.mem_append]
      cases v with
      | false => exact .inr hs
      | true => exact .inl hs
    refine ⟨fun hbegin => ?_, fun hbehind => ?_⟩
    · exact words_incomparable _ (hmem (.inl hbegin)) word hword hbegin
    · exact (words_lower _ (hmem (.inr hbehind))).1 (hbehind.subset (by simp))
  · intro h
    have hany : ∀ words : List Text, (∀ word ∈ words, word ∈ trueWords ++ falseWords) →
        ((words.any fun word => strncasecmp word s s.length = 0) = true ↔ s.map tolower ∈ words) := by
      intro words hwords
      rw [any_word_iff fun word hword => words_lower word (hwords word hword)]
      constructor
      · intro ⟨word, hword, htaken⟩
        obtain ⟨hbegin, hbehind⟩ := h word (hwords word hword)
        rw [hbegin (htaken.resolve_right hbehind)]
        exact hword
      · intro hs
        exact ⟨_, hs, .inl (List.prefix_refl _)⟩
    have htrue := hany trueWords fun _ hword => List.mem_append_left _ hword
    have hfalse := hany falseWords fun _ hword => List.mem_append_right _ hword
    exact fun v => parseBool_eq_some_iff htrue hfalse v

/-- A word in capitals. -/
theorem capitals_are_exact :
    let s := ['Y', 'E', 'S'].map Char.toUInt8
    Exact (((IniFile.new []).set [] (.setString s)).getBool (fun _ => []) []) (BoolWord s) := by
  exact (getBool_iff _ _ (set_mData _ _ _) (by decide)).mpr ⟨by decide, by decide⟩

/-- An empty value is true. -/
theorem empty_is_true : ¬ ∀ (ini : IniFile) (env : Text → Text) (key s : Text),
    ini.mData key = some s → percent ∉ s → Exact (ini.getBool env key) (BoolWord s) := by
  intro h
  have hset := set_mData (IniFile.new []) [] (.setString [])
  have hpercent : percent ∉ (Setter.setString []).text := by decide
  have hdefault := (h _ (fun _ => []) [] _ hset hpercent false).2 (by
    intro v
    cases v <;> unfold BoolWord <;> decide)
  unfold IniFile.getBool at hdefault
  rw [hset, Option.isSome_some, getValue_returns_iff hset hpercent] at hdefault
  exact absurd hdefault.2 (by decide)

end Goldfish.Files
