import Goldfish.Lib.Lines

/-!
# Goldfish.Lib.CStrings

Functions of the C library on **strings of bytes**: `strtoll` in base ten and
`strncasecmp`, in the C locale. A string is the list of its bytes without the NUL behind
them.

`scan` cuts a string into what `strtoll` skips, takes and leaves. A `Numeral` is a string
of which it leaves nothing (`numeral_iff`), and the digits of a number are one with this
value (`decimal_toDigits`). `strncasecmp_eq_zero_iff` says what a comparison accepts that
goes as far as the second string: less than the word, or more than it behind a NUL.
-/

namespace Goldfish.Lib

/-! ### Characters -/

/-- The characters of a string literal. -/
def literal (s : String) : List UInt8 := s.toList.map Char.toUInt8

/-- `isspace`, in the C locale. -/
def isspace (c : UInt8) : Bool := c = ' '.toUInt8 || ('\t'.toUInt8 ≤ c && c ≤ '\r'.toUInt8)

/-- `isdigit`. -/
def isdigit (c : UInt8) : Bool := '0'.toUInt8 ≤ c && c ≤ '9'.toUInt8

/-- What may stand before the digits. -/
def isSign (c : UInt8) : Bool := c = '+'.toUInt8 || c = '-'.toUInt8

/-- `tolower`, in the C locale. -/
def tolower (c : UInt8) : UInt8 := if 'A'.toUInt8 ≤ c ∧ c ≤ 'Z'.toUInt8 then c + 32 else c

theorem isdigit_iff {c : UInt8} : isdigit c = true ↔ 48 ≤ c.toNat ∧ c.toNat ≤ 57 := by
  rw [isdigit, Bool.and_eq_true, decide_eq_true_eq, decide_eq_true_eq, UInt8.le_iff_toNat_le,
    UInt8.le_iff_toNat_le]
  exact Iff.rfl

theorem isspace_iff {c : UInt8} : isspace c = true ↔ c.toNat = 32 ∨ 9 ≤ c.toNat ∧ c.toNat ≤ 13 := by
  rw [isspace, Bool.or_eq_true, Bool.and_eq_true, decide_eq_true_eq, decide_eq_true_eq, decide_eq_true_eq,
    ← UInt8.toNat_inj, UInt8.le_iff_toNat_le, UInt8.le_iff_toNat_le]
  exact Iff.rfl

theorem isSign_iff {c : UInt8} : isSign c = true ↔ c.toNat = 43 ∨ c.toNat = 45 := by
  rw [isSign, Bool.or_eq_true, decide_eq_true_eq, decide_eq_true_eq, ← UInt8.toNat_inj, ← UInt8.toNat_inj]
  exact Iff.rfl

theorem tolower_eq_zero_iff {c : UInt8} : tolower c = 0 ↔ c = 0 := by
  unfold tolower
  split
  · rename_i h
    rw [UInt8.le_iff_toNat_le, UInt8.le_iff_toNat_le] at h
    have hrange : 65 ≤ c.toNat ∧ c.toNat ≤ 90 := h
    have hsum : (c + 32).toNat = c.toNat + 32 := by
      rw [UInt8.toNat_add]
      exact Nat.mod_eq_of_lt (by simp; omega)
    rw [← UInt8.toNat_inj, ← UInt8.toNat_inj, hsum]
    simp
    omega
  · exact Iff.rfl

/-! ### Positions -/

/-- The character at a position, if it is in the text or the NUL behind it. -/
def charAt (text : List UInt8) (p : Nat) : Option UInt8 := (text ++ [0])[p]?

section CharAt

variable {text : List UInt8} {p : Nat} {c : UInt8}

theorem lt_of_charAt (h : charAt text p = some c) : p < text.length + 1 := by
  obtain ⟨hp, -⟩ := List.getElem?_eq_some_iff.mp h
  rwa [List.length_append] at hp

theorem charAt_of_lt (hp : p < text.length) : charAt text p = some text[p] := by
  rw [charAt, List.getElem?_append_left hp, List.getElem?_eq_getElem hp]

theorem charAt_length (text : List UInt8) : charAt text text.length = some 0 := List.getElem?_concat_length

/-- A character of the text, or the NUL behind it. -/
theorem charAt_cases (h : charAt text p = some c) :
    (∃ hp : p < text.length, text[p] = c) ∨ p = text.length ∧ c = 0 := by
  have hlt := lt_of_charAt h
  by_cases hp : p < text.length
  · exact .inl ⟨hp, Option.some.inj ((charAt_of_lt hp).symm.trans h)⟩
  · obtain rfl : p = text.length := by omega
    exact .inr ⟨rfl, (Option.some.inj ((charAt_length text).symm.trans h)).symm⟩

theorem charAt_append (before : List UInt8) (c : UInt8) (behind : List UInt8) :
    charAt (before ++ c :: behind) before.length = some c := by
  rw [charAt, List.append_assoc, List.getElem?_append_right (Nat.le_refl _), Nat.sub_self]
  rfl

end CharAt

/-! ### Numerals -/

/-- The number that digits denote. -/
def decimal (digits : List UInt8) : Nat := Nat.ofDigitChars 10 (digits.map Char.ofUInt8) 0

/-- The number with its sign. -/
def signed (sign : List UInt8) (n : Nat) : Int := if sign = ['-'.toUInt8] then -(n : Int) else n

/-- What `strtoll` makes of a string: white space and a sign, the digits, and what is behind them. -/
structure Scan where
  space : List UInt8
  sign : List UInt8
  digits : List UInt8
  rest : List UInt8
  deriving DecidableEq, Repr

/-- The sign in front of a number. -/
def splitSign : List UInt8 → List UInt8 × List UInt8
  | [] => ([], [])
  | c :: cs => if isSign c then ([c], cs) else ([], c :: cs)

/-- The parts that `strtol` reads. -/
def scan (text : List UInt8) : Scan :=
  let number := splitSign (text.dropWhile isspace)
  { space := text.takeWhile isspace
    sign := number.1
    digits := number.2.takeWhile isdigit
    rest := number.2.dropWhile isdigit }

/-- The number that is in the string, if there are digits in it. -/
def Scan.value (s : Scan) : Int := signed s.sign (decimal s.digits)

/-- The decimal numerals, with white space and a sign in front. -/
def Numeral (text : List UInt8) (v : Int) : Prop :=
  ∃ space sign digits, text = space ++ sign ++ digits ∧
    (∀ c ∈ space, isspace c = true) ∧ (sign = [] ∨ sign = ['+'.toUInt8] ∨ sign = ['-'.toUInt8]) ∧
    digits ≠ [] ∧ (∀ c ∈ digits, isdigit c = true) ∧ v = signed sign (decimal digits)

theorem splitSign_append (text : List UInt8) : (splitSign text).1 ++ (splitSign text).2 = text := by
  cases text with
  | nil => rfl
  | cons c cs =>
    rw [splitSign]
    split <;> rfl

theorem splitSign_cases (text : List UInt8) :
    (splitSign text).1 = [] ∨ (splitSign text).1 = ['+'.toUInt8] ∨ (splitSign text).1 = ['-'.toUInt8] := by
  cases text with
  | nil => exact .inl rfl
  | cons c cs =>
    rw [splitSign]
    split
    · rename_i h
      simp only [isSign, Bool.or_eq_true, decide_eq_true_eq] at h
      rcases h with rfl | rfl
      · exact .inr (.inl rfl)
      · exact .inr (.inr rfl)
    · exact .inl rfl

theorem splitSign_of_digit {c : UInt8} {cs : List UInt8} (h : isdigit c = true) :
    splitSign (c :: cs) = ([], c :: cs) := by
  have hsign : isSign c = false := by
    rw [Bool.eq_false_iff, Ne, isSign_iff]
    have := isdigit_iff.mp h
    omega
  rw [splitSign, hsign]
  rfl

/-- A sign, or none, is found in front of a digit. -/
theorem splitSign_digit {sign : List UInt8} {d : UInt8} (rest : List UInt8)
    (hsign : sign = [] ∨ sign = ['+'.toUInt8] ∨ sign = ['-'.toUInt8]) (hdigit : isdigit d = true) :
    Starts isspace (sign ++ d :: rest) ∧ splitSign (sign ++ d :: rest) = (sign, d :: rest) := by
  have hspace : isspace d = false := by
    rw [Bool.eq_false_iff, Ne, isspace_iff]
    have := isdigit_iff.mp hdigit
    omega
  rcases hsign with rfl | rfl | rfl
  · exact ⟨starts_cons.mpr hspace, splitSign_of_digit hdigit⟩
  · exact ⟨starts_cons.mpr (by decide), rfl⟩
  · exact ⟨starts_cons.mpr (by decide), rfl⟩

/-- Nothing is lost. -/
theorem scan_append (text : List UInt8) :
    (scan text).space ++ (scan text).sign ++ (scan text).digits ++ (scan text).rest = text := by
  have hnumber := splitSign_append (text.dropWhile isspace)
  simp only [scan]
  rw [List.append_assoc, List.takeWhile_append_dropWhile, List.append_assoc, hnumber,
    List.takeWhile_append_dropWhile]

theorem scan_space (text : List UInt8) : ∀ c ∈ (scan text).space, isspace c = true :=
  fun _ hc => List.mem_takeWhile_imp hc

theorem scan_digits (text : List UInt8) : ∀ c ∈ (scan text).digits, isdigit c = true :=
  fun _ hc => List.mem_takeWhile_imp hc

/-- **Scanning a number**: the parts are where they are. -/
theorem scan_eq {space sign digits rest : List UInt8} (hspace : ∀ c ∈ space, isspace c = true)
    (hsign : sign = [] ∨ sign = ['+'.toUInt8] ∨ sign = ['-'.toUInt8]) (hne : digits ≠ [])
    (hdigits : ∀ c ∈ digits, isdigit c = true) (hrest : Starts isdigit rest) :
    scan (space ++ sign ++ digits ++ rest) = ⟨space, sign, digits, rest⟩ := by
  obtain ⟨d, ds, rfl⟩ := List.exists_cons_of_ne_nil hne
  -- the sign and the digits are behind the white space
  obtain ⟨hstart, hsplit⟩ := splitSign_digit (ds ++ rest) hsign (hdigits d List.mem_cons_self)
  rw [List.append_assoc, List.append_assoc, List.cons_append]
  unfold scan
  rw [takeWhile_append_starts hspace hstart, dropWhile_append_starts hspace hstart, hsplit]
  dsimp only
  rw [← List.cons_append, takeWhile_append_starts hdigits hrest, dropWhile_append_starts hdigits hrest]

/-- **The numerals** are the strings with digits and nothing behind them. -/
theorem numeral_iff {text : List UInt8} {v : Int} :
    Numeral text v ↔ (scan text).digits ≠ [] ∧ (scan text).rest = [] ∧ v = (scan text).value := by
  constructor
  · intro ⟨space, sign, digits, htext, hspace, hsign, hne, hdigits, hv⟩
    have hscan := scan_eq hspace hsign hne hdigits starts_nil
    rw [List.append_nil, ← htext] at hscan
    rw [hscan]
    exact ⟨hne, rfl, hv⟩
  · intro ⟨hne, hrest, hv⟩
    have htext := scan_append text
    rw [hrest, List.append_nil] at htext
    exact ⟨_, _, _, htext.symm, scan_space text, splitSign_cases _, hne, scan_digits text, hv⟩

theorem Numeral.unique {text : List UInt8} {v w : Int} (hv : Numeral text v) (hw : Numeral text w) : v = w :=
  (numeral_iff.mp hv).2.2.trans (numeral_iff.mp hw).2.2.symm

theorem not_numeral_nil {v : Int} : ¬ Numeral [] v := fun h => (numeral_iff.mp h).1 rfl

/-- What is neither white space nor a sign nor a digit is in no numeral. -/
theorem Numeral.not_mem {text : List UInt8} {v : Int} (h : Numeral text v) {c : UInt8}
    (hspace : isspace c = false) (hsign : isSign c = false) (hdigit : isdigit c = false) : c ∉ text := by
  obtain ⟨space, sign, digits, rfl, hspaces, hsigns, -, hdigits, -⟩ := h
  intro hmem
  rw [List.mem_append, List.mem_append] at hmem
  rcases hmem with (hmem | hmem) | hmem
  · rw [hspaces c hmem] at hspace
    cases hspace
  · have hc : isSign c = true := by
      rcases hsigns with rfl | rfl | rfl
      · cases hmem
      · rw [List.mem_singleton.mp hmem]
        decide
      · rw [List.mem_singleton.mp hmem]
        decide
    rw [hc] at hsign
    cases hsign
  · rw [hdigits c hmem] at hdigit
    cases hdigit

theorem Numeral.nul_not_mem {text : List UInt8} {v : Int} (h : Numeral text v) : 0 ∉ text :=
  h.not_mem (by decide) (by decide) (by decide)

/-- The digits of a number. -/
theorem isdigit_toUInt8 {c : Char} (h : c.isDigit = true) :
    isdigit c.toUInt8 = true ∧ Char.ofUInt8 c.toUInt8 = c := by
  have hrange : 48 ≤ c.toNat ∧ c.toNat ≤ 57 := by simpa [Char.isDigit, UInt32.le_iff_toNat_le] using h
  have hnat : c.toUInt8.toNat = c.toNat := by
    rw [Char.toUInt8, UInt32.toNat_toUInt8]
    exact Nat.mod_eq_of_lt (by simp only [Char.toNat] at hrange; omega)
  refine ⟨isdigit_iff.mpr (hnat ▸ hrange), ?_⟩
  rw [← Char.toNat_inj]
  exact hnat

theorem isdigit_toDigits {n : Nat} {c : UInt8} (h : c ∈ (Nat.toDigits 10 n).map Char.toUInt8) :
    isdigit c = true := by
  obtain ⟨d, hd, rfl⟩ := List.mem_map.mp h
  exact (isdigit_toUInt8 (Nat.isDigit_of_mem_toDigits (by decide) (by decide) hd)).1

/-- **The digits of a number denote it.** -/
theorem decimal_toDigits (n : Nat) : decimal ((Nat.toDigits 10 n).map Char.toUInt8) = n := by
  have hsame : ((Nat.toDigits 10 n).map Char.toUInt8).map Char.ofUInt8 = Nat.toDigits 10 n := by
    rw [List.map_map]
    exact (List.map_congr_left fun d hd =>
      (isdigit_toUInt8 (Nat.isDigit_of_mem_toDigits (by decide) (by decide) hd)).2).trans (List.map_id _)
  rw [decimal, hsame, Nat.ofDigitChars_ten_toDigits]

/-! ### `strtoll` -/

/-- The smallest `long long`. -/
def LLONG_MIN : Int := -9223372036854775808

/-- The largest `long long`. -/
def LLONG_MAX : Int := 9223372036854775807

/-- The value, what the end pointer points at, and whether `errno` is set. -/
structure Conversion where
  value : Int
  rest : List UInt8
  errno : Bool
  deriving DecidableEq, Repr

/-- `strtoll` in base ten. A library is free to set `errno` where there are no digits (`einval`). -/
def strtoll (einval : Bool) (text : List UInt8) : Conversion :=
  let s := scan text
  if s.digits = [] then ⟨0, text, einval⟩
  else if s.value < LLONG_MIN then ⟨LLONG_MIN, s.rest, true⟩
  else if LLONG_MAX < s.value then ⟨LLONG_MAX, s.rest, true⟩
  else ⟨s.value, s.rest, false⟩

/-- The outcomes: no digits, a number that fits, and one that does not. -/
theorem strtoll_cases (einval : Bool) (text : List UInt8) :
    ((scan text).digits = [] ∧ strtoll einval text = ⟨0, text, einval⟩) ∨
      ((scan text).digits ≠ [] ∧ (LLONG_MIN ≤ (scan text).value ∧ (scan text).value ≤ LLONG_MAX) ∧
        strtoll einval text = ⟨(scan text).value, (scan text).rest, false⟩) ∨
      ((scan text).digits ≠ [] ∧ ¬ (LLONG_MIN ≤ (scan text).value ∧ (scan text).value ≤ LLONG_MAX) ∧
        (strtoll einval text).errno = true) := by
  unfold strtoll
  dsimp only
  by_cases hdigits : (scan text).digits = []
  · exact .inl ⟨hdigits, if_pos hdigits⟩
  · rw [if_neg hdigits]
    split
    · exact .inr (.inr ⟨hdigits, by omega, rfl⟩)
    · split
      · exact .inr (.inr ⟨hdigits, by omega, rfl⟩)
      · exact .inr (.inl ⟨hdigits, by omega, rfl⟩)

/-- A conversion leaves nothing, and nothing goes wrong: the string is a numeral with a value that fits, or it
is empty. -/
theorem strtoll_whole_iff {einval : Bool} {text : List UInt8} {v : Int} :
    ((strtoll einval text).errno = false ∧ (strtoll einval text).rest = [] ∧
        (strtoll einval text).value = v) ↔
      Numeral text v ∧ LLONG_MIN ≤ v ∧ v ≤ LLONG_MAX ∨ text = [] ∧ einval = false ∧ v = 0 := by
  have hnil : text = [] → (scan text).digits = [] := by
    intro h
    rw [h]
    rfl
  rw [numeral_iff]
  rcases strtoll_cases einval text with ⟨hdigits, h⟩ | ⟨hdigits, hrange, h⟩ | ⟨hdigits, hrange, h⟩
  · rw [h]
    constructor
    · intro ⟨heinval, hrest, hv⟩
      exact .inr ⟨hrest, heinval, hv.symm⟩
    · intro hv
      rcases hv with hv | ⟨hrest, heinval, hv⟩
      · exact absurd hdigits hv.1.1
      · exact ⟨heinval, hrest, hv.symm⟩
  · rw [h]
    constructor
    · intro ⟨_, hrest, hv⟩
      subst hv
      exact .inl ⟨⟨hdigits, hrest, rfl⟩, hrange⟩
    · intro hv
      rcases hv with ⟨⟨-, hrest, hv⟩, -⟩ | hv
      · exact ⟨rfl, hrest, hv.symm⟩
      · exact absurd (hnil hv.1) hdigits
  · constructor
    · intro hv
      rw [hv.1] at h
      cases h
    · intro hv
      rcases hv with ⟨⟨-, -, hv⟩, hin⟩ | hv
      · exact absurd (hv ▸ hin) hrange
      · exact absurd (hnil hv.1) hdigits

/-! ### `strncasecmp` -/

/-- The difference of the first characters that differ, up to a NUL and in at most `n` characters. -/
def strncasecmp : List UInt8 → List UInt8 → (n : Nat) → Int
  | _, _, 0 => 0
  | s1, s2, n + 1 =>
    let c1 := tolower (s1.headD 0)
    let c2 := tolower (s2.headD 0)
    if c1 ≠ c2 ∨ c1 = 0 then c1.toNat - c2.toNat else strncasecmp s1.tail s2.tail n

/-- One more character. -/
theorem strncasecmp_cons {s1 s2 : List UInt8} {n : Nat} :
    strncasecmp s1 s2 (n + 1) = 0 ↔
      tolower (s1.headD 0) = tolower (s2.headD 0) ∧
        (tolower (s1.headD 0) = 0 ∨ strncasecmp s1.tail s2.tail n = 0) := by
  rw [strncasecmp]
  split
  · rename_i h
    rw [Int.sub_eq_zero, Int.natCast_inj, UInt8.toNat_inj]
    constructor
    · intro hsame
      exact ⟨hsame, .inl (h.resolve_left fun hne => hne hsame)⟩
    · exact And.left
  · rename_i h
    rw [not_or, not_not] at h
    exact ⟨fun hrest => ⟨h.1, .inr hrest⟩, fun hrest => hrest.2.resolve_left h.2⟩

/-- **Comparing as far as the second string goes.** -/
theorem strncasecmp_eq_zero_iff {word : List UInt8} (hword : 0 ∉ word) (text : List UInt8) :
    strncasecmp word text text.length = 0 ↔
      text.map tolower <+: word.map tolower ∨ word.map tolower ++ [0] <+: text.map tolower := by
  induction text generalizing word with
  | nil => simp [strncasecmp]
  | cons c text ih =>
    rw [List.length_cons, strncasecmp_cons]
    cases word with
    | nil =>
      have hzero : tolower 0 = 0 := tolower_eq_zero_iff.mpr rfl
      simp [hzero]
    | cons w word =>
      rw [List.mem_cons, not_or] at hword
      have hw : tolower w ≠ 0 := fun h => hword.1 (tolower_eq_zero_iff.mp h).symm
      have hrest := ih hword.2
      simp only [List.headD_cons, List.tail_cons, List.map_cons, List.cons_append, List.cons_prefix_cons, hw,
        false_or, hrest]
      constructor
      · intro ⟨hsame, h⟩
        exact h.imp (fun h => ⟨hsame.symm, h⟩) fun h => ⟨hsame, h⟩
      · intro h
        rcases h with ⟨hsame, h⟩ | ⟨hsame, h⟩
        · exact ⟨hsame.symm, .inl h⟩
        · exact ⟨hsame, .inr h⟩

end Goldfish.Lib
