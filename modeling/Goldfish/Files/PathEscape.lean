import Goldfish.Files.IniFile
import Goldfish.Lib.Blocks
import Goldfish.Lib.Trace

/-!
# Goldfish.Files.PathEscape

**Escaping a path** (`path.cpp`): `path_escape_path` writes `%E`, `%C` and `%P` for `=`,
`,` and `%` into a block of its own, `path_unescape_path` undoes this in place, with a
cursor that reads and one that writes behind it.

`escape` and `unescape` say what the loops do to a text (`path_escape_path_returns`,
`path_unescape_path_returns`). The results are put together in `path_round_trip`.
-/

namespace Goldfish.Files

open Goldfish.Lib

/-! ### The loops -/

/-- The escape of a character that has one. -/
def escapeCode (c : UInt8) : Option UInt8 :=
  if c = '='.toUInt8 then some 'E'.toUInt8
  else if c = ','.toUInt8 then some 'C'.toUInt8
  else if c = '%'.toUInt8 then some 'P'.toUInt8
  else none

/-- The variables of the loop of `path_escape_path`. -/
structure Escape where
  src : Nat
  retStr : Text
  dst : Nat

/-- `*dst++ = c`. -/
def Escape.put (s : Escape) (c : UInt8) : Except OutOfBlock Escape := do
  let retStr ← store s.retStr s.dst c
  .ok { s with retStr := retStr, dst := s.dst + 1 }

/-- The body of the loop of `path_escape_path`. -/
def Escape.next (str : Text) (s : Escape) : Except OutOfBlock (Text ⊕ Escape) := do
  let c ← load str s.src
  if c = 0 then
    let retStr ← store s.retStr s.dst 0
    .ok (.inl retStr)
  else
    match escapeCode c with
    | some code =>
      let s ← s.put '%'.toUInt8
      let s ← s.put code
      .ok (.inr { s with src := s.src + 1 })
    | none =>
      let s ← s.put c
      .ok (.inr { s with src := s.src + 1 })

/-- `src` is the block that the argument points to. -/
def path_escape_path (malloc : Nat → Option Text) (src : Option Text) (fuel : Nat) :
    Option (Except OutOfBlock (Option Text)) :=
  match src with
  | none => some (.ok none)
  | some src =>
    match malloc (2 * (cString src).length + 1) with
    | none => some (.ok none)
    | some retStr => (iterate (stepOrFail (Escape.next src)) ⟨0, retStr, 0⟩ fuel).map (Except.map some)

/-- The character of an escape. -/
def escapedChar (code : UInt8) : Option UInt8 :=
  if code = 'C'.toUInt8 then some ','.toUInt8
  else if code = 'E'.toUInt8 then some '='.toUInt8
  else if code = 'P'.toUInt8 then some '%'.toUInt8
  else none

/-- The variables of the loop of `path_unescape_path`. -/
structure Unescape where
  str : Text
  src : Nat
  dst : Nat

/-- `*dst++ = c`, and `n` characters have been read. -/
def Unescape.put (s : Unescape) (c : UInt8) (n : Nat) : Except OutOfBlock Unescape := do
  let str ← store s.str s.dst c
  .ok ⟨str, s.src + n, s.dst + 1⟩

/-- The body of the loop of `path_unescape_path`. -/
def Unescape.next (s : Unescape) : Except OutOfBlock (Text ⊕ Unescape) := do
  let c ← load s.str s.src
  if c = 0 then
    let str ← store s.str s.dst 0
    .ok (.inl str)
  else if c ≠ '%'.toUInt8 then
    let s ← s.put c 1
    .ok (.inr s)
  else
    let code ← load s.str (s.src + 1)
    match escapedChar code with
    | some c =>
      let s ← s.put c 2
      .ok (.inr s)
    | none => .ok (.inr { s with src := s.src + 1 })

/-- `path_unescape_path`, in place. -/
def path_unescape_path (str : Text) (fuel : Nat) : Option (Except OutOfBlock Text) :=
  iterate (stepOrFail Unescape.next) ⟨str, 0, 0⟩ fuel

/-! ### What they do to a text -/

/-- What a character becomes. -/
def escapeChar (c : UInt8) : Text :=
  match escapeCode c with
  | some code => ['%'.toUInt8, code]
  | none => [c]

/-- A text with its characters escaped, in one go. -/
def escape (s : Text) : Text := s.flatMap escapeChar

/-- What unescaping makes of a text: a code that is not complete ends it. -/
def unescape : Text → Text
  | [] => []
  | c :: rest =>
    if c ≠ '%'.toUInt8 then c :: unescape rest
    else
      match rest with
      | [] => []
      | code :: rest =>
        match escapedChar code with
        | some c => c :: unescape rest
        | none => unescape (code :: rest)

theorem unescape_of_ne {c : UInt8} (h : c ≠ '%'.toUInt8) (rest : Text) :
    unescape (c :: rest) = c :: unescape rest := by
  cases rest with
  | nil => rw [unescape.eq_2, if_pos h]
  | cons => rw [unescape.eq_3, if_pos h]

theorem unescape_of_code {code c : UInt8} (h : escapedChar code = some c) (rest : Text) :
    unescape ('%'.toUInt8 :: code :: rest) = c :: unescape rest := by
  rw [unescape, if_neg (fun h => h rfl)]
  simp only [h]

/-- A percent sign that begins no escape is dropped. -/
theorem unescape_of_no_code {rest : Text} (h : escapedChar (rest.headD 0) = none) :
    unescape ('%'.toUInt8 :: rest) = unescape rest := by
  cases rest with
  | nil => rfl
  | cons code rest =>
    rw [unescape, if_neg (fun h => h rfl)]
    simp only [show escapedChar code = none from h]

theorem escapedChar_escapeCode {c code : UInt8} (h : escapeCode c = some code) : escapedChar code = some c := by
  unfold escapeCode at h
  split at h
  · rename_i hc
    cases h
    rw [hc]
    rfl
  split at h
  · rename_i hc
    cases h
    rw [hc]
    rfl
  split at h
  · rename_i hc
    cases h
    rw [hc]
    rfl
  · cases h

theorem ne_of_escapeCode {c : UInt8} (h : escapeCode c = none) :
    c ≠ '='.toUInt8 ∧ c ≠ ','.toUInt8 ∧ c ≠ '%'.toUInt8 := by
  refine ⟨?_, ?_, ?_⟩
  all_goals
    rintro rfl
    cases h

theorem unescape_escape (s : Text) : unescape (escape s) = s := by
  induction s with
  | nil => rfl
  | cons c s ih =>
    rw [escape, List.flatMap_cons, escapeChar]
    cases hcode : escapeCode c with
    | some code =>
      change unescape ('%'.toUInt8 :: code :: escape s) = c :: s
      rw [unescape_of_code (escapedChar_escapeCode hcode), ih]
    | none =>
      change unescape (c :: escape s) = c :: s
      rw [unescape_of_ne (ne_of_escapeCode hcode).2.2, ih]

/-- The characters of escapes. -/
def escapeAlphabet : Text := ['%'.toUInt8, 'E'.toUInt8, 'C'.toUInt8, 'P'.toUInt8]

theorem escapeCode_mem {c code : UInt8} (h : escapeCode c = some code) : code ∈ escapeAlphabet := by
  unfold escapeCode at h
  split at h
  · cases h
    decide
  split at h
  · cases h
    decide
  split at h
  · cases h
    decide
  · cases h

/-- What escaping writes. -/
theorem mem_escape {s : Text} {d : UInt8} (h : d ∈ escape s) :
    d ∈ s ∧ escapeCode d = none ∨ d ∈ escapeAlphabet := by
  obtain ⟨c, hc, hd⟩ := List.mem_flatMap.mp h
  unfold escapeChar at hd
  split at hd
  · rename_i code hcode
    rcases List.mem_cons.mp hd with rfl | hd
    · exact .inr List.mem_cons_self
    · obtain rfl := List.mem_singleton.mp hd
      exact .inr (escapeCode_mem hcode)
  · rename_i hcode
    obtain rfl := List.mem_singleton.mp hd
    exact .inl ⟨hc, hcode⟩

theorem length_escape_le (s : Text) : (escape s).length ≤ 2 * s.length := by
  induction s with
  | nil => exact Nat.le_refl _
  | cons c s ih =>
    have hone : (escapeChar c).length ≤ 2 := by
      unfold escapeChar
      split <;> simp
    rw [escape, List.flatMap_cons, List.length_append, List.length_cons]
    change (escapeChar c).length + (escape s).length ≤ _
    omega

theorem length_unescape_le (s : Text) : (unescape s).length ≤ s.length := by
  fun_induction unescape s with
  | case1 => exact Nat.le_refl _
  | case2 c rest h ih => simpa using ih
  | case3 => simp
  | case4 c h code rest d hcode ih => simp; omega
  | case5 c h code rest hcode ih => simp at ih ⊢; omega

/-! ### What the loops return -/

/-- The end of what is written moves on by a character. -/
theorem exists_gap (gap : Text) (c : UInt8) :
    ∃ d gap', gap'.length = gap.length ∧ ∀ rest, gap ++ c :: rest = d :: (gap' ++ rest) := by
  cases gap with
  | nil => exact ⟨c, [], rfl, fun rest => rfl⟩
  | cons d gap => exact ⟨d, gap ++ [c], by simp, fun rest => by simp⟩

/-- The variables of the loop when `read` has been read and `free` is left of the block. -/
def escaping (read written free : Text) : Escape := ⟨read.length, written ++ free, written.length⟩

/-- The loop of `path_escape_path` writes what is left of the text. -/
theorem Escape.returns {str rest behind : Text} (read written free : Text)
    (hstr : str = read ++ (rest ++ 0 :: behind)) (hrest : 0 ∉ rest) (hfree : (escape rest).length < free.length) :
    ∃ left, (escape rest).length + left.length + 1 = free.length ∧
      Returns (iterate (stepOrFail (Escape.next str)) (escaping read written free))
        (.ok (written ++ (escape rest ++ 0 :: left))) := by
  induction rest generalizing read written free with
  | nil =>
    cases free with
    | nil => cases hfree
    | cons a left =>
      refine ⟨left, by simp [escape], (returns_of_next_done ?_).mpr rfl⟩
      rw [Escape.next, escaping, load_at _ _ hstr rfl, ok_bind, if_pos rfl, store_append, ok_bind]
      rfl
  | cons c rest ih =>
    obtain ⟨hc, hrest⟩ : 0 ≠ c ∧ 0 ∉ rest := by simpa using hrest
    have hload : load str read.length = .ok c := load_at _ _ hstr rfl
    have hread : str = (read ++ [c]) ++ (rest ++ 0 :: behind) := by simp [hstr]
    have hescape : escape (c :: rest) = escapeChar c ++ escape rest := rfl
    rw [hescape] at hfree ⊢
    unfold escapeChar at hfree ⊢
    cases hcode : escapeCode c with
    | some code =>
      rw [hcode] at hfree
      match free with
      | [] | [_] => simp at hfree
      | a :: b :: free =>
        obtain ⟨left, hlen, hleft⟩ := ih (read ++ [c]) (written ++ ['%'.toUInt8, code]) free hread hrest
          (by simpa using hfree)
        refine ⟨left, by simp at hlen ⊢; omega, (returns_of_next_step
          (escaping (read ++ [c]) (written ++ ['%'.toUInt8, code]) free) ?_).mpr ?_⟩
        · rw [Escape.next, escaping, hload, ok_bind, if_neg (Ne.symm hc), hcode]
          dsimp only
          rw [Escape.put, store_append, ok_bind, ok_bind, Escape.put,
            store_at (written ++ ['%'.toUInt8]) free (a := b) (by simp) (by simp)]
          simp [escaping]
        · simpa using hleft
    | none =>
      rw [hcode] at hfree
      match free with
      | [] => simp at hfree
      | a :: free =>
        obtain ⟨left, hlen, hleft⟩ := ih (read ++ [c]) (written ++ [c]) free hread hrest
          (by simpa using hfree)
        refine ⟨left, by simp at hlen ⊢; omega, (returns_of_next_step
          (escaping (read ++ [c]) (written ++ [c]) free) ?_).mpr ?_⟩
        · rw [Escape.next, escaping, hload, ok_bind, if_neg (Ne.symm hc), hcode]
          dsimp only
          rw [Escape.put, store_append, ok_bind]
          simp [escaping]
        · simpa using hleft

section Unescape

variable {rest : Text} (behind written gap : Text)

/-- The variables of the loop when `rest` is left to read and `gap` is between the cursors. -/
def unescaping (written gap rest behind : Text) : Unescape :=
  ⟨written ++ (gap ++ (rest ++ 0 :: behind)), written.length + gap.length, written.length⟩

theorem load_unescaping (c : UInt8) :
    load (unescaping written gap (c :: rest) behind).str (unescaping written gap (c :: rest) behind).src = .ok c :=
  load_at (written ++ gap) (rest ++ 0 :: behind) (by simp [unescaping]) (by simp [unescaping])

/-- The character behind a percent sign may be the NUL. -/
theorem load_unescaping_code (c : UInt8) :
    load (unescaping written gap (c :: rest) behind).str ((unescaping written gap (c :: rest) behind).src + 1) =
      .ok (rest.headD 0) := by
  cases rest with
  | nil =>
    exact load_at (written ++ gap ++ [c]) (behind) (by simp [unescaping])
      (by simp [unescaping, Nat.add_assoc])
  | cons code rest =>
    exact load_at (written ++ gap ++ [c]) (rest ++ 0 :: behind) (by simp [unescaping])
      (by simp [unescaping, Nat.add_assoc])

/-- The end of the text. -/
theorem Unescape.returns_nil :
    ∃ left, left.length = gap.length ∧
      ∀ behind, Returns (iterate (stepOrFail Unescape.next) (unescaping written gap [] behind))
        (.ok (written ++ 0 :: (left ++ behind))) := by
  obtain ⟨d, left, hlen, hgap⟩ := exists_gap gap 0
  refine ⟨left, hlen, fun behind => (returns_of_next_done ?_).mpr rfl⟩
  have hload : load (unescaping written gap [] behind).str (unescaping written gap [] behind).src = .ok 0 :=
    load_at (written ++ gap) (behind) (by simp [unescaping]) (by simp [unescaping])
  have hstore : store (unescaping written gap [] behind).str (unescaping written gap [] behind).dst 0 =
      .ok (written ++ 0 :: (left ++ behind)) :=
    store_at written _ (a := d) (by simp [unescaping, hgap]) rfl 0
  rw [Unescape.next, hload, ok_bind, if_pos rfl, hstore]
  rfl

/-- A character is written over the first one of the gap. -/
theorem Unescape.put_unescaping (c e : UInt8) (read rest : Text) :
    ∃ gap', gap'.length = gap.length + read.length ∧
      ∀ behind, (unescaping written gap (c :: (read ++ rest)) behind).put e (read.length + 1) =
        .ok (unescaping (written ++ [e]) gap' rest behind) := by
  obtain ⟨d, gap', hlen, hgap⟩ := exists_gap gap c
  refine ⟨gap' ++ read, by simp [hlen], fun behind => ?_⟩
  have hstore : store (unescaping written gap (c :: (read ++ rest)) behind).str written.length e =
      .ok (written ++ e :: (gap' ++ (read ++ (rest ++ 0 :: behind)))) :=
    store_at written _ (a := d) (by simp [unescaping, hgap]) rfl e
  rw [Unescape.put]
  change (store _ written.length e >>= _) = _
  rw [hstore, ok_bind]
  simp [unescaping, hlen]
  omega

/-- A percent sign that begins no escape joins the gap. -/
theorem Unescape.next_dropped (hcode : escapedChar (rest.headD 0) = none) :
    (unescaping written gap ('%'.toUInt8 :: rest) behind).next =
      .ok (.inr (unescaping written (gap ++ ['%'.toUInt8]) rest behind)) := by
  have hpercent : ¬ '%'.toUInt8 ≠ '%'.toUInt8 := fun h => h rfl
  rw [Unescape.next, load_unescaping, ok_bind, if_neg (by decide), if_neg hpercent, load_unescaping_code, ok_bind,
    hcode]
  simp [unescaping, Nat.add_assoc]

/-- **The loop of `path_unescape_path`** writes what is left of the text, and leaves alone what is behind it. -/
theorem Unescape.returns (hrest : 0 ∉ rest) :
    ∃ left, (unescape rest).length + left.length = gap.length + rest.length ∧
      ∀ behind, Returns (iterate (stepOrFail Unescape.next) (unescaping written gap rest behind))
        (.ok (written ++ (unescape rest ++ 0 :: (left ++ behind)))) := by
  induction rest using unescape.induct generalizing written gap with
  | case1 =>
    obtain ⟨left, hlen, hleft⟩ := Unescape.returns_nil written gap
    exact ⟨left, by simp [unescape, hlen], by simpa [unescape] using hleft⟩
  | case2 c rest hne ih =>
    obtain ⟨hc, hrest⟩ : 0 ≠ c ∧ 0 ∉ rest := by simpa using hrest
    obtain ⟨gap', hlen, hput⟩ := Unescape.put_unescaping written gap c c [] rest
    obtain ⟨left, hsum, hleft⟩ := ih (written ++ [c]) gap' hrest
    refine ⟨left, ?_, fun behind =>
      (returns_of_next_step (unescaping (written ++ [c]) gap' rest behind) ?_).mpr ?_⟩
    · rw [unescape_of_ne hne, List.length_cons, List.length_cons]
      simp at hlen
      omega
    · rw [Unescape.next, load_unescaping, ok_bind, if_neg (Ne.symm hc), if_pos hne]
      exact congrArg (· >>= _) (hput behind)
    · rw [unescape_of_ne hne]
      simpa using hleft behind
  | case3 c hpercent =>
    obtain rfl := not_not.mp hpercent
    obtain ⟨left, hlen, hleft⟩ := Unescape.returns_nil written (gap ++ ['%'.toUInt8])
    refine ⟨left, by simpa [unescape] using hlen, fun behind => ?_⟩
    have hdropped : escapedChar (([] : Text).headD 0) = none := by decide
    exact (returns_of_next_step _ (Unescape.next_dropped behind written gap hdropped)).mpr
      (by simpa [unescape] using hleft behind)
  | case4 c hpercent code rest d hcode ih =>
    obtain rfl := not_not.mp hpercent
    obtain ⟨-, -, hrest⟩ : 0 ≠ '%'.toUInt8 ∧ 0 ≠ code ∧ 0 ∉ rest := by simpa using hrest
    obtain ⟨gap', hlen, hput⟩ := Unescape.put_unescaping written gap '%'.toUInt8 d [code] rest
    obtain ⟨left, hsum, hleft⟩ := ih (written ++ [d]) gap' hrest
    refine ⟨left, ?_, fun behind =>
      (returns_of_next_step (unescaping (written ++ [d]) gap' rest behind) ?_).mpr ?_⟩
    · rw [unescape_of_code hcode, List.length_cons, List.length_cons, List.length_cons]
      simp at hlen
      omega
    · rw [Unescape.next, load_unescaping, ok_bind, if_neg (by decide), if_neg hpercent, load_unescaping_code,
        ok_bind, List.headD_cons, hcode]
      exact congrArg (· >>= _) (hput behind)
    · rw [unescape_of_code hcode]
      simpa using hleft behind
  | case5 c hpercent code rest hcode ih =>
    obtain rfl := not_not.mp hpercent
    obtain ⟨-, hrest⟩ : 0 ≠ '%'.toUInt8 ∧ 0 ∉ code :: rest := by simpa using hrest
    obtain ⟨left, hsum, hleft⟩ := ih written (gap ++ ['%'.toUInt8]) hrest
    have hdropped : escapedChar ((code :: rest).headD 0) = none := hcode
    have hdrop := unescape_of_no_code hdropped
    refine ⟨left, ?_, fun behind =>
      (returns_of_next_step _ (Unescape.next_dropped behind written gap hdropped)).mpr ?_⟩
    · rw [hdrop, List.length_cons]
      simp at hsum ⊢
      omega
    · rw [hdrop]
      exact hleft behind

end Unescape

/-! ### The functions -/

theorem cString_append_zero {s : Text} (h : 0 ∉ s) (behind : Text) : cString (s ++ 0 :: behind) = s := by
  rw [cString, List.takeWhile_append_of_pos (fun c hc => by simpa using fun h0 : c = 0 => h (h0 ▸ hc))]
  simp

/-- `path_escape_path` of a string, in the block that it asks for. -/
theorem path_escape_path_returns {s : Text} (h : 0 ∉ s) {malloc : Nat → Option Text} {retStr : Text}
    (hmalloc : malloc (2 * s.length + 1) = some retStr) (hlen : retStr.length = 2 * s.length + 1) :
    ∃ left, (escape s).length + left.length = 2 * s.length ∧
      Returns (path_escape_path malloc (some (s ++ [0]))) (.ok (some (escape s ++ 0 :: left))) := by
  have hroom : (escape s).length < retStr.length := by
    have hle := length_escape_le s
    omega
  obtain ⟨left, hsum, fuel, hfuel⟩ := Escape.returns [] [] retStr (rfl : s ++ [0] = [] ++ (s ++ 0 :: [])) h hroom
  refine ⟨left, by omega, fuel, ?_⟩
  unfold path_escape_path
  dsimp only
  rw [cString_append_zero h, hmalloc]
  exact congrArg (Option.map (Except.map some)) hfuel

/-- `path_unescape_path` of a string: what is behind the string is neither read nor changed. -/
theorem path_unescape_path_returns {s : Text} (h : 0 ∉ s) :
    ∃ left, (unescape s).length + left.length = s.length ∧
      ∀ behind, Returns (path_unescape_path (s ++ 0 :: behind)) (.ok (unescape s ++ 0 :: (left ++ behind))) := by
  obtain ⟨left, hlen, hreturns⟩ := Unescape.returns [] [] h
  exact ⟨left, by simpa using hlen, hreturns⟩

theorem not_mem_escape {s : Text} (h : 0 ∉ s) :
    0 ∉ escape s ∧ ','.toUInt8 ∉ escape s ∧ '='.toUInt8 ∉ escape s := by
  refine ⟨fun hmem => ?_, fun hmem => ?_, fun hmem => ?_⟩
  · rcases mem_escape hmem with ⟨hs, -⟩ | halphabet
    · exact h hs
    · exact absurd halphabet (by decide)
  · rcases mem_escape hmem with ⟨-, hcode⟩ | halphabet
    · cases hcode
    · exact absurd halphabet (by decide)
  · rcases mem_escape hmem with ⟨-, hcode⟩ | halphabet
    · cases hcode
    · exact absurd halphabet (by decide)

theorem not_mem_unescape {s : Text} (h : 0 ∉ s) : 0 ∉ unescape s := by
  have hchar : ∀ code c, escapedChar code = some c → 0 ≠ c := by
    rintro code _ hcode rfl
    unfold escapedChar at hcode
    split at hcode
    · cases hcode
    split at hcode
    · cases hcode
    split at hcode <;> cases hcode
  fun_induction unescape s with
  | case1 => exact h
  | case2 c rest hne ih =>
    obtain ⟨hc, hrest⟩ : 0 ≠ c ∧ 0 ∉ rest := by simpa using h
    simpa using ⟨hc, ih hrest⟩
  | case3 => simp
  | case4 c hpercent code rest d hcode ih =>
    obtain ⟨-, -, hrest⟩ : 0 ≠ c ∧ 0 ≠ code ∧ 0 ∉ rest := by simpa using h
    simpa using ⟨hchar code d hcode, ih hrest⟩
  | case5 c hpercent code rest hcode ih => exact ih fun hmem => h (List.mem_cons_of_mem c hmem)

/-- **Escaping and back.** The escaped string has neither of the separators and fits its block, and unescaping it
in place gives back the string. Unescaping ends for every string, does not get behind its NUL and does not make
it longer. -/
theorem path_round_trip {s : Text} (h : 0 ∉ s) (malloc : Nat → Option Text)
    (hmalloc : ∀ n block, malloc n = some block → block.length = n) :
    (∃ retStr, Returns (path_escape_path malloc (some (s ++ [0]))) (.ok retStr) ∧
        (retStr = none ↔ malloc (2 * s.length + 1) = none) ∧
        ∀ escaped, retStr = some escaped →
          escaped.length = 2 * s.length + 1 ∧ 0 ∈ escaped ∧
            ','.toUInt8 ∉ cString escaped ∧ '='.toUInt8 ∉ cString escaped ∧
            ∃ back, Returns (path_unescape_path escaped) (.ok back) ∧ 0 ∈ back ∧ cString back = s) ∧
      ∃ back, back.length = s.length + 1 ∧ 0 ∈ back ∧ (cString back).length ≤ s.length ∧
        ∀ behind, Returns (path_unescape_path (s ++ 0 :: behind)) (.ok (back ++ behind)) := by
  refine ⟨?_, ?_⟩
  · cases hblock : malloc (2 * s.length + 1) with
    | none =>
      refine ⟨none, ⟨0, ?_⟩, by simp, fun escaped hescaped => by cases hescaped⟩
      unfold path_escape_path
      dsimp only
      rw [cString_append_zero h, hblock]
    | some retStr =>
      obtain ⟨left, hlen, hescape⟩ := path_escape_path_returns h hblock (hmalloc _ _ hblock)
      obtain ⟨hzero, hcomma, hequals⟩ := not_mem_escape h
      obtain ⟨left', -, hunescape⟩ := path_unescape_path_returns hzero
      refine ⟨_, hescape, by simp, fun escaped hescaped => ?_⟩
      obtain rfl := Option.some.inj hescaped
      rw [cString_append_zero hzero]
      refine ⟨by simp; omega, by simp, hcomma, hequals, _, hunescape left, by simp, ?_⟩
      rw [unescape_escape, cString_append_zero h]
  · obtain ⟨left, hlen, hunescape⟩ := path_unescape_path_returns h
    refine ⟨unescape s ++ 0 :: left, by simp; omega, by simp, ?_, fun behind => ?_⟩
    · rw [cString_append_zero (not_mem_unescape h)]
      exact length_unescape_le s
    · simpa using hunescape behind

/-- A file with a comma, an equals sign and a percent sign in its name. -/
def oddName : Text := "/a=b,50%C".toList.map Char.toUInt8

theorem odd_name_round_trip :
    (∃ retStr, Returns (path_escape_path (fun n => some (List.replicate n 255)) (some (oddName ++ [0])))
        (.ok retStr) ∧
        (retStr = none ↔ some (List.replicate (2 * oddName.length + 1) 255) = (none : Option Text)) ∧
        ∀ escaped, retStr = some escaped →
          escaped.length = 2 * oddName.length + 1 ∧ 0 ∈ escaped ∧
            ','.toUInt8 ∉ cString escaped ∧ '='.toUInt8 ∉ cString escaped ∧
            ∃ back, Returns (path_unescape_path escaped) (.ok back) ∧ 0 ∈ back ∧ cString back = oddName) ∧
      ∃ back, back.length = oddName.length + 1 ∧ 0 ∈ back ∧ (cString back).length ≤ oddName.length ∧
        ∀ behind, Returns (path_unescape_path (oddName ++ 0 :: behind)) (.ok (back ++ behind)) :=
  path_round_trip (by decide) (fun n => some (List.replicate n 255)) fun n block hblock => by
    rw [← Option.some.inj hblock, List.length_replicate]

end Goldfish.Files
