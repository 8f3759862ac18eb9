import Goldfish.Lib.CStrings

/-!
# Goldfish.Lib.Strtol

`strtol` with **base 0** and a `long` of 64 bits, on strings of bytes without the NUL behind
them: white space, a sign, and digits in base 16 behind `0x`, in base 8 behind a `0`, or in
base 10.

`scan0` finds the number and what is behind it. A string is a `Numeral0` if there is nothing
behind the number (`numeral0_iff`). What is scanned is always a numeral
(`exists_numeral0_of_scan0`), and every numeral is scanned in front of what cannot go on with
it (`scan0_append`).
-/

namespace Goldfish.Lib

/-! ### Digits of any base -/

/-- The value of a digit, from 36 on for what is none. -/
def digitValue (c : UInt8) : Nat :=
  if '0'.toUInt8 ≤ c ∧ c ≤ '9'.toUInt8 then c.toNat - '0'.toNat
  else if 'a'.toUInt8 ≤ c ∧ c ≤ 'z'.toUInt8 then c.toNat - 'a'.toNat + 10
  else if 'A'.toUInt8 ≤ c ∧ c ≤ 'Z'.toUInt8 then c.toNat - 'A'.toNat + 10
  else 36

/-- The character is a digit of this base. -/
def isDigitIn (base : Nat) (c : UInt8) : Bool := digitValue c < base

/-- The number that digits denote. -/
def valueIn (base : Nat) (digits : List UInt8) : Nat := digits.foldl (fun n c => n * base + digitValue c) 0

/-! ### Numerals -/

/-- `0x` or `0X`, with a digit behind it. -/
def hexLead : List UInt8 → Bool
  | z :: x :: d :: _ => z == '0'.toUInt8 && (x == 'x'.toUInt8 || x == 'X'.toUInt8) && isDigitIn 16 d
  | _ => false

/-- The base that a number's beginning gives away. -/
def baseOf (text : List UInt8) : Nat :=
  if hexLead text then 16 else if text.head? = some '0'.toUInt8 then 8 else 10

/-- What is in front of the digits. -/
def leadLength (text : List UInt8) : Nat := if hexLead text then 2 else 0

/-- The number at the beginning of a text without white space and sign, and what is behind it. -/
def magnitude0 (text : List UInt8) : Option (Nat × List UInt8) :=
  let behind := text.drop (leadLength text)
  let digits := behind.takeWhile (isDigitIn (baseOf text))
  if digits = [] then none else some (valueIn (baseOf text) digits, behind.dropWhile (isDigitIn (baseOf text)))

/-- The number that `strtol` finds, and what is behind it. -/
def scan0 (text : List UInt8) : Option (Int × List UInt8) :=
  let number := splitSign (text.dropWhile isspace)
  (magnitude0 number.2).map fun found => (signed number.1 found.1, found.2)

/-- Hexadecimal, octal and decimal numbers. -/
inductive Magnitude : List UInt8 → Nat → Prop where
  | hexadecimal {x : UInt8} {digits : List UInt8} (hx : x = 'x'.toUInt8 ∨ x = 'X'.toUInt8) (hne : digits ≠ [])
      (hdigits : ∀ c ∈ digits, isDigitIn 16 c = true) :
      Magnitude ('0'.toUInt8 :: x :: digits) (valueIn 16 digits)
  | octal {digits : List UInt8} (hdigits : ∀ c ∈ digits, isDigitIn 8 c = true) :
      Magnitude ('0'.toUInt8 :: digits) (valueIn 8 ('0'.toUInt8 :: digits))
  | decimal {d : UInt8} {digits : List UInt8} (hd : d ≠ '0'.toUInt8)
      (hdigits : ∀ c ∈ d :: digits, isDigitIn 10 c = true) : Magnitude (d :: digits) (valueIn 10 (d :: digits))

/-- The numerals with base 0, with white space and a sign in front. -/
def Numeral0 (text : List UInt8) (v : Int) : Prop :=
  ∃ space sign body n, text = space ++ sign ++ body ∧ (∀ c ∈ space, isspace c = true) ∧
    (sign = [] ∨ sign = ['+'.toUInt8] ∨ sign = ['-'.toUInt8]) ∧ Magnitude body n ∧ v = signed sign n

/-- A character that is in no numeral behind its first digit. -/
def Foreign (c : UInt8) : Prop := isDigitIn 16 c = false ∧ c ≠ 'x'.toUInt8 ∧ c ≠ 'X'.toUInt8

/-- What is behind a numeral, if it does not go on with it. -/
def Stops (rest : List UInt8) : Prop := ∀ c ∈ rest.head?, Foreign c

section Magnitude

variable {text body rest : List UInt8} {n : Nat}

theorem isDigitIn_mono {b b' : Nat} (hle : b ≤ b') {c : UInt8} (h : isDigitIn b c = true) : isDigitIn b' c = true :=
  decide_eq_true (Nat.lt_of_lt_of_le (of_decide_eq_true h) hle)

theorem Stops.starts (h : Stops rest) {base : Nat} (hbase : base ≤ 16) : Starts (isDigitIn base) rest := by
  intro c hc
  have hforeign := (h c hc).1
  rw [Bool.eq_false_iff] at hforeign ⊢
  exact fun hdigit => hforeign (isDigitIn_mono hbase hdigit)

theorem magnitude0_eq {lead : Nat} {base : Nat} {digits : List UInt8} (hlead : leadLength text = lead)
    (hbase : baseOf text = base) (htext : text.drop lead = digits ++ rest) (hne : digits ≠ [])
    (hdigits : ∀ c ∈ digits, isDigitIn base c = true) (hrest : Starts (isDigitIn base) rest) :
    magnitude0 text = some (valueIn base digits, rest) := by
  unfold magnitude0
  dsimp only
  rw [hlead, hbase, htext, takeWhile_append_starts hdigits hrest, dropWhile_append_starts hdigits hrest, if_neg hne]

/-- What follows a zero is no `x` with a digit behind it. -/
theorem hexLead_zero {digits : List UInt8} (hdigits : ∀ c ∈ digits, isDigitIn 8 c = true) (hrest : Stops rest) :
    hexLead ('0'.toUInt8 :: (digits ++ rest)) = false := by
  have hnot : ∀ x ∈ (digits ++ rest).head?, x ≠ 'x'.toUInt8 ∧ x ≠ 'X'.toUInt8 := by
    intro x hx
    cases digits with
    | nil => exact (hrest x hx).2
    | cons d digits =>
      obtain rfl : d = x := Option.some.inj hx
      have hd := hdigits d List.mem_cons_self
      constructor
      · rintro rfl
        exact absurd hd (by decide)
      · rintro rfl
        exact absurd hd (by decide)
  cases hbehind : digits ++ rest with
  | nil => rfl
  | cons x behind =>
    rw [hbehind] at hnot
    obtain ⟨hx, hX⟩ := hnot x rfl
    cases behind with
    | nil => rfl
    | cons d behind => simp [hexLead, hx, hX]

/-- **A number is found in front of what stops it.** -/
theorem magnitude0_append (h : Magnitude body n) (hrest : Stops rest) :
    magnitude0 (body ++ rest) = some (n, rest) := by
  cases h with
  | @hexadecimal x digits hx hne hdigits =>
    have hlead : hexLead ('0'.toUInt8 :: x :: digits ++ rest) = true := by
      obtain ⟨d, digits, rfl⟩ := List.exists_cons_of_ne_nil hne
      have hd := hdigits d List.mem_cons_self
      rcases hx with rfl | rfl
      · simp [hexLead, hd]
      · simp [hexLead, hd]
    exact magnitude0_eq (if_pos hlead) (if_pos hlead) rfl hne hdigits (hrest.starts (Nat.le_refl 16))
  | @octal digits hdigits =>
    have hlead := hexLead_zero hdigits hrest
    have hall : ∀ c ∈ '0'.toUInt8 :: digits, isDigitIn 8 c = true :=
      List.forall_mem_cons.mpr ⟨by decide, hdigits⟩
    have hbase : baseOf ('0'.toUInt8 :: digits ++ rest) = 8 := by
      rw [List.cons_append, baseOf, hlead]
      rfl
    exact magnitude0_eq (if_neg (Bool.eq_false_iff.mp hlead)) hbase rfl (List.cons_ne_nil _ _) hall
      (hrest.starts (by decide))
  | @decimal d digits hd hdigits =>
    have hlead : hexLead (d :: digits ++ rest) = false := by
      cases hbehind : digits ++ rest with
      | nil => rw [List.cons_append, hbehind]; rfl
      | cons x behind =>
        rw [List.cons_append, hbehind]
        cases behind with
        | nil => rfl
        | cons e behind => simp [hexLead, hd]
    have hbase : baseOf (d :: digits ++ rest) = 10 := by
      rw [baseOf, hlead, if_neg Bool.false_ne_true, if_neg]
      exact fun h => hd (Option.some.inj h)
    exact magnitude0_eq (if_neg (Bool.eq_false_iff.mp hlead)) hbase rfl (List.cons_ne_nil _ _) hdigits
      (hrest.starts (by decide))

/-- **What is found is a number.** -/
theorem exists_magnitude (h : magnitude0 text = some (n, rest)) :
    ∃ body, text = body ++ rest ∧ Magnitude body n := by
  unfold magnitude0 at h
  dsimp only at h
  split at h
  · cases h
  rename_i hne
  obtain ⟨rfl, rfl⟩ := Prod.mk.inj (Option.some.inj h)
  have hall : ∀ c ∈ (text.drop (leadLength text)).takeWhile (isDigitIn (baseOf text)),
      isDigitIn (baseOf text) c = true := fun _ hc => List.mem_takeWhile_imp hc
  have hsplit := List.takeWhile_append_dropWhile (p := isDigitIn (baseOf text)) (l := text.drop (leadLength text))
  by_cases hlead : hexLead text = true
  · have hlength : leadLength text = 2 := if_pos hlead
    have hbase : baseOf text = 16 := if_pos hlead
    rw [hlength, hbase] at hne hall hsplit ⊢
    unfold hexLead at hlead
    split at hlead
    · rename_i z x d cs
      rw [Bool.and_eq_true, Bool.and_eq_true, Bool.or_eq_true, beq_iff_eq, beq_iff_eq, beq_iff_eq] at hlead
      obtain ⟨⟨rfl, hx⟩, -⟩ := hlead
      refine ⟨_, ?_, .hexadecimal hx hne hall⟩
      rw [List.cons_append, List.cons_append, hsplit]
      rfl
    · cases hlead
  · have hlength : leadLength text = 0 := if_neg hlead
    rw [hlength, List.drop_zero] at hne hall hsplit ⊢
    refine ⟨_, hsplit.symm, ?_⟩
    cases text with
    | nil => exact absurd rfl hne
    | cons d cs =>
      have hd : isDigitIn (baseOf (d :: cs)) d = true := by
        by_contra hd
        exact hne (List.takeWhile_cons_of_neg hd)
      rw [List.takeWhile_cons_of_pos hd] at hall ⊢
      by_cases hzero : d = '0'.toUInt8
      · have hbase : baseOf (d :: cs) = 8 := by
          rw [baseOf, if_neg hlead]
          exact if_pos (congrArg some hzero)
        rw [hbase] at hall ⊢
        subst hzero
        exact .octal (List.forall_mem_cons.mp hall).2
      · have hbase : baseOf (d :: cs) = 10 := by
          rw [baseOf, if_neg hlead]
          exact if_neg fun h => hzero (Option.some.inj h)
        rw [hbase] at hall ⊢
        exact .decimal hzero hall

theorem isdigit_of_isDigitIn {c : UInt8} (h : isDigitIn 10 c = true) : isdigit c = true := by
  have hlt : digitValue c < 10 := of_decide_eq_true h
  unfold digitValue at hlt
  split at hlt
  · rename_i hc
    rw [isdigit, decide_eq_true hc.1, decide_eq_true hc.2]
    rfl
  · split at hlt
    · omega
    · split at hlt <;> omega

/-- A number begins with a digit. -/
theorem Magnitude.head (h : Magnitude body n) : ∃ d ds, body = d :: ds ∧ isdigit d = true := by
  cases h with
  | hexadecimal hx hne hdigits => exact ⟨_, _, rfl, by decide⟩
  | octal hdigits => exact ⟨_, _, rfl, by decide⟩
  | decimal hd hdigits => exact ⟨_, _, rfl, isdigit_of_isDigitIn (hdigits _ List.mem_cons_self)⟩

end Magnitude

/-! ### Scanning -/

section Scan

variable {text rest : List UInt8} {v : Int}

/-- **A numeral is scanned** in front of what stops it. -/
theorem scan0_append (h : Numeral0 text v) (hrest : Stops rest) : scan0 (text ++ rest) = some (v, rest) := by
  obtain ⟨space, sign, body, n, rfl, hspace, hsign, hbody, rfl⟩ := h
  obtain ⟨d, ds, hhead, hdigit⟩ := hbody.head
  obtain ⟨hstart, hsplit⟩ := splitSign_digit (ds ++ rest) hsign hdigit
  rw [← List.cons_append, ← hhead] at hstart hsplit
  rw [List.append_assoc, List.append_assoc]
  unfold scan0
  rw [dropWhile_append_starts hspace hstart, hsplit]
  dsimp only
  rw [magnitude0_append hbody hrest]
  rfl

/-- **What is scanned is a numeral**, and nothing is lost. -/
theorem exists_numeral0_of_scan0 (h : scan0 text = some (v, rest)) :
    ∃ number, text = number ++ rest ∧ Numeral0 number v := by
  unfold scan0 at h
  dsimp only at h
  obtain ⟨⟨n, behind⟩, hfound, hpair⟩ := Option.map_eq_some_iff.mp h
  obtain ⟨rfl, rfl⟩ := Prod.mk.inj hpair
  obtain ⟨body, hbody, hmagnitude⟩ := exists_magnitude hfound
  refine ⟨text.takeWhile isspace ++ (splitSign (text.dropWhile isspace)).1 ++ body, ?_,
    _, _, _, _, rfl, fun _ hc => List.mem_takeWhile_imp hc, splitSign_cases _, hmagnitude, rfl⟩
  rw [List.append_assoc, ← hbody, List.append_assoc, splitSign_append, List.takeWhile_append_dropWhile]

theorem stops_nil : Stops [] := nofun

/-- **The numerals** are the strings of which nothing is left. -/
theorem numeral0_iff : Numeral0 text v ↔ scan0 text = some (v, []) := by
  constructor
  · intro h
    have hscan := scan0_append h stops_nil
    rwa [List.append_nil] at hscan
  · intro h
    obtain ⟨number, htext, hnumber⟩ := exists_numeral0_of_scan0 h
    rwa [htext, List.append_nil]

theorem Numeral0.unique {w : Int} (hv : Numeral0 text v) (hw : Numeral0 text w) : v = w := by
  have h := (numeral0_iff.mp hv).symm.trans (numeral0_iff.mp hw)
  exact (Prod.mk.inj (Option.some.inj h)).1

end Scan

/-! ### `strtol` -/

/-- `strtol` in base 0. A library is free to set `errno` where there are no digits (`einval`). -/
def strtol0 (einval : Bool) (text : List UInt8) : Conversion :=
  match scan0 text with
  | none => ⟨0, text, einval⟩
  | some (v, rest) =>
    if v < LLONG_MIN then ⟨LLONG_MIN, rest, true⟩
    else if LLONG_MAX < v then ⟨LLONG_MAX, rest, true⟩
    else ⟨v, rest, false⟩

end Goldfish.Lib
