import Goldfish.Lib.CStrings
import Goldfish.Lib.Trace
import Mathlib.Algebra.Order.Ring.Nat
import Mathlib.Order.Bounds.Basic

/-!
# Goldfish.System.StorageCapacity

Storage capacities (`storage_capacity.cpp`, `storage_capacity.h`): how they are read from a
string, and how they are rounded up to an alignment.

A string that is taken is digits and, behind them, a letter with anything behind it
(`parse_eq_ok_iff`). The number is checked against 64 bits, but neither what it is
multiplied with nor the sum of `align` is, so both are exact just where nothing wraps
around (`exact_or_refused_iff`).
-/

namespace Goldfish.System

open Goldfish.Lib

/-- A `std::string_view`. -/
abbrev Text := List UInt8

/-- The errors of `from_chars`. -/
inductive Errc where
  | invalid_argument
  | result_out_of_range
  deriving DecidableEq, Repr

/-- `std::from_chars` in base ten: the number, and what is behind its digits. -/
def from_chars (str : Text) : Except Errc (UInt64 × Text) :=
  let digits := str.takeWhile isdigit
  if digits = [] then .error .invalid_argument
  else if decimal digits < 18446744073709551616 then .ok (UInt64.ofNat (decimal digits), str.dropWhile isdigit)
  else .error .result_out_of_range

/-- `absl::Status`, where it is not OK. -/
inductive Status where
  | InvalidArgumentError (message : Text)
  deriving DecidableEq, Repr

/-- The `switch` over the character behind the number. -/
def applyLabel (str : Text) (result : UInt64) : Text → Except Status UInt64
  | [] => .ok result
  | c :: _ =>
    if c = 'k'.toUInt8 ∨ c = 'K'.toUInt8 then .ok (result * 1024)
    else if c = 'm'.toUInt8 ∨ c = 'M'.toUInt8 then .ok (result * (1024 * 1024))
    else if c = 'g'.toUInt8 ∨ c = 'G'.toUInt8 then .ok (result * (1024 * 1024 * 1024))
    else if c = 't'.toUInt8 ∨ c = 'T'.toUInt8 then .ok (result * (1024 * 1024 * 1024 * 1024))
    else .error (.InvalidArgumentError (literal "Unknown label in: " ++ str))

/-- The other errors that the function looks for are none of `from_chars`. -/
def parseFromString (str : Text) : Except Status UInt64 :=
  match from_chars str with
  | .error .invalid_argument => .error (.InvalidArgumentError (literal "Invalid number: " ++ str))
  | .error .result_out_of_range => .error (.InvalidArgumentError (literal "Number out of range: " ++ str))
  | .ok (result, rest) => applyLabel str result rest

/-- `StorageCapacity`. -/
structure StorageCapacity where
  mBytes : UInt64
  deriving DecidableEq, Repr

namespace StorageCapacity

/-- `parse`. -/
def parse (str : Text) : Except Status StorageCapacity := StorageCapacity.mk <$> parseFromString str

/-- The next multiple of a capacity that is not zero. -/
def align (capacity align : StorageCapacity) : StorageCapacity :=
  ⟨(capacity.mBytes + align.mBytes - 1) / align.mBytes * align.mBytes⟩

/-! ### Labels -/

/-- What is behind the number, and the power of 1024 that it stands for. -/
inductive Label : Text → Nat → Prop where
  | none : Label [] 0
  | kilo {c : UInt8} {rest : Text} (h : c = 'k'.toUInt8 ∨ c = 'K'.toUInt8) : Label (c :: rest) 1
  | mega {c : UInt8} {rest : Text} (h : c = 'm'.toUInt8 ∨ c = 'M'.toUInt8) : Label (c :: rest) 2
  | giga {c : UInt8} {rest : Text} (h : c = 'g'.toUInt8 ∨ c = 'G'.toUInt8) : Label (c :: rest) 3
  | tera {c : UInt8} {rest : Text} (h : c = 't'.toUInt8 ∨ c = 'T'.toUInt8) : Label (c :: rest) 4

/-- The capacity is the one that the string denotes. -/
def Denotes (str : Text) (capacity : StorageCapacity) : Prop :=
  ∃ e, str.takeWhile isdigit ≠ [] ∧ Label (str.dropWhile isdigit) e ∧
    capacity.mBytes.toNat = decimal (str.takeWhile isdigit) * 1024 ^ e

/-- A number that fits still fits when it is multiplied. -/
def ProductFits (str : Text) : Prop :=
  ∀ e, str.takeWhile isdigit ≠ [] → Label (str.dropWhile isdigit) e →
    decimal (str.takeWhile isdigit) < 18446744073709551616 →
      decimal (str.takeWhile isdigit) * 1024 ^ e < 18446744073709551616

theorem from_chars_eq_ok_iff {str rest : Text} {result : UInt64} :
    from_chars str = .ok (result, rest) ↔ str.takeWhile isdigit ≠ [] ∧
      decimal (str.takeWhile isdigit) < 18446744073709551616 ∧
        result = UInt64.ofNat (decimal (str.takeWhile isdigit)) ∧ rest = str.dropWhile isdigit := by
  unfold from_chars
  dsimp only
  by_cases hdigits : str.takeWhile isdigit = []
  · rw [if_pos hdigits]
    exact iff_of_false (fun h => by cases h) fun h => h.1 hdigits
  · rw [if_neg hdigits]
    by_cases hfits : decimal (str.takeWhile isdigit) < 18446744073709551616
    · rw [if_pos hfits, Except.ok.injEq, Prod.mk.injEq]
      exact ⟨fun h => ⟨hdigits, hfits, h.1.symm, h.2.symm⟩, fun h => ⟨h.2.2.1.symm, h.2.2.2.symm⟩⟩
    · rw [if_neg hfits]
      exact iff_of_false (fun h => by cases h) fun h => hfits h.2.1

/-- A label multiplies, modulo 2^64. -/
theorem applyLabel_of_label {rest : Text} {e : Nat} (h : Label rest e) (str : Text) (result : UInt64) :
    applyLabel str result rest = .ok (result * UInt64.ofNat (1024 ^ e)) := by
  cases h with
  | none => exact congrArg Except.ok (UInt64.mul_one result).symm
  | kilo h | mega h | giga h | tera h => rcases h with rfl | rfl <;> rfl

theorem Label.unique {rest : Text} {e e' : Nat} (h : Label rest e) (h' : Label rest e') : e = e' := by
  have hsame := (applyLabel_of_label h [] 1).symm.trans (applyLabel_of_label h' [] 1)
  have hpow : UInt64.ofNat (1024 ^ e) = UInt64.ofNat (1024 ^ e') := by simpa using hsame
  have hle : ∀ {e}, Label rest e → e ≤ 4 := by
    intro e h
    cases h <;> decide
  have hlt : ∀ {e}, Label rest e → 1024 ^ e < 2 ^ 64 := fun h =>
    lt_of_le_of_lt (Nat.pow_le_pow_right (by decide) (hle h)) (by decide)
  have hnat := congrArg UInt64.toNat hpow
  rw [UInt64.toNat_ofNat_of_lt' (hlt h), UInt64.toNat_ofNat_of_lt' (hlt h')] at hnat
  exact Nat.pow_right_injective (by decide) hnat

theorem exists_label {str rest : Text} {result r : UInt64} (h : applyLabel str result rest = .ok r) :
    ∃ e, Label rest e := by
  cases rest with
  | nil => exact ⟨0, .none⟩
  | cons c rest =>
    rw [applyLabel] at h
    split at h
    · exact ⟨1, .kilo ‹_›⟩
    split at h
    · exact ⟨2, .mega ‹_›⟩
    split at h
    · exact ⟨3, .giga ‹_›⟩
    split at h
    · exact ⟨4, .tera ‹_›⟩
    · cases h

/-- **What is parsed**: a number that fits, and its label; the product may have wrapped around. -/
theorem parse_eq_ok_iff {str : Text} {capacity : StorageCapacity} :
    parse str = .ok capacity ↔ ∃ e, str.takeWhile isdigit ≠ [] ∧ Label (str.dropWhile isdigit) e ∧
      decimal (str.takeWhile isdigit) < 18446744073709551616 ∧
        capacity.mBytes = UInt64.ofNat (decimal (str.takeWhile isdigit) * 1024 ^ e) := by
  have hproduct : ∀ e, applyLabel str (UInt64.ofNat (decimal (str.takeWhile isdigit))) (str.dropWhile isdigit) =
      .ok capacity.mBytes → Label (str.dropWhile isdigit) e →
        capacity.mBytes = UInt64.ofNat (decimal (str.takeWhile isdigit) * 1024 ^ e) := by
    intro e hparsed hlabel
    rw [applyLabel_of_label hlabel, ← UInt64.ofNat_mul] at hparsed
    exact (Except.ok.inj hparsed).symm
  rw [parse, map_eq_ok]
  constructor
  · rintro ⟨_, hparsed, rfl⟩
    unfold parseFromString at hparsed
    split at hparsed
    · cases hparsed
    · cases hparsed
    · rename_i result rest hchars
      obtain ⟨hdigits, hfits, rfl, rfl⟩ := from_chars_eq_ok_iff.mp hchars
      obtain ⟨e, hlabel⟩ := exists_label hparsed
      exact ⟨e, hdigits, hlabel, hfits, hproduct e hparsed hlabel⟩
  · rintro ⟨e, hdigits, hlabel, hfits, hbytes⟩
    refine ⟨capacity.mBytes, ?_, rfl⟩
    rw [parseFromString, from_chars_eq_ok_iff.mpr ⟨hdigits, hfits, rfl, rfl⟩]
    dsimp only
    rw [applyLabel_of_label hlabel, ← UInt64.ofNat_mul, hbytes]

/-- **Capacities that are read** are the ones the strings denote, unless a product does not fit. -/
theorem parse_denotes_iff (str : Text) :
    (∀ capacity, parse str = .ok capacity → Denotes str capacity) ↔ ProductFits str := by
  constructor
  · intro h e hdigits hlabel hfits
    obtain ⟨e', -, hlabel', hvalue⟩ := h ⟨_⟩ (parse_eq_ok_iff.mpr ⟨e, hdigits, hlabel, hfits, rfl⟩)
    rw [hlabel.unique hlabel', ← hvalue]
    exact UInt64.toNat_lt _
  · intro h capacity hparsed
    obtain ⟨e, hdigits, hlabel, hfits, hbytes⟩ := parse_eq_ok_iff.mp hparsed
    refine ⟨e, hdigits, hlabel, ?_⟩
    rw [hbytes, UInt64.toNat_ofNat_of_lt' (h e hdigits hlabel hfits)]

/-! ### Alignment -/

/-- **Rounding up**, with integers that are large enough. -/
theorem isLeast_roundUp {a : Nat} (ha : 0 < a) (c : Nat) :
    IsLeast {m | a ∣ m ∧ c ≤ m} ((c + a - 1) / a * a) := by
  have hdiv := Nat.div_add_mod (c + a - 1) a
  have hmod := Nat.mod_lt (c + a - 1) ha
  rw [Nat.mul_comm a] at hdiv
  refine ⟨⟨Nat.dvd_mul_left .., by omega⟩, ?_⟩
  rintro m ⟨⟨k, rfl⟩, hle⟩
  rw [Nat.mul_comm a k]
  refine Nat.mul_le_mul_right a (Nat.lt_succ_iff.mp ?_)
  rw [Nat.div_lt_iff_lt_mul ha, Nat.succ_mul, Nat.mul_comm k a]
  omega

theorem mul_toNat_of_lt {x y : UInt64} (h : x.toNat * y.toNat < 18446744073709551616) :
    (x * y).toNat = x.toNat * y.toNat := by
  rw [UInt64.toNat_mul, Nat.mod_eq_of_lt h]

section Align

variable {c a : StorageCapacity}

/-- A sum that fits. -/
theorem align_of_fits (ha : 0 < a.mBytes) (hfits : c.mBytes.toNat + a.mBytes.toNat ≤ 18446744073709551616) :
    (c.align a).mBytes.toNat = (c.mBytes.toNat + a.mBytes.toNat - 1) / a.mBytes.toNat * a.mBytes.toNat := by
  have ha' : 0 < a.mBytes.toNat := UInt64.lt_iff_toNat_lt.mp ha
  have hsum : (c.mBytes + a.mBytes - 1).toNat = c.mBytes.toNat + a.mBytes.toNat - 1 := by
    rw [UInt64.toNat_sub, UInt64.toNat_add]
    simp
    omega
  have hle := Nat.div_mul_le_self (c.mBytes.toNat + a.mBytes.toNat - 1) a.mBytes.toNat
  have hquotient : ((c.mBytes + a.mBytes - 1) / a.mBytes).toNat =
      (c.mBytes.toNat + a.mBytes.toNat - 1) / a.mBytes.toNat := by
    rw [UInt64.toNat_div, hsum]
  rw [align, mul_toNat_of_lt (by rw [hquotient]; omega), hquotient]

/-- A sum that wraps around is less than the alignment. -/
theorem align_of_wraps (hwraps : 18446744073709551616 < c.mBytes.toNat + a.mBytes.toNat) :
    (c.align a).mBytes.toNat = 0 := by
  have hc := c.mBytes.toNat_lt
  have ha := a.mBytes.toNat_lt
  have hsum : (c.mBytes + a.mBytes - 1).toNat < a.mBytes.toNat := by
    rw [UInt64.toNat_sub, UInt64.toNat_add]
    simp
    omega
  have hquotient : (c.mBytes + a.mBytes - 1) / a.mBytes = 0 := by
    rw [← UInt64.toNat_inj, UInt64.toNat_div, Nat.div_eq_of_lt hsum]
    rfl
  rw [align, hquotient, UInt64.zero_mul]
  rfl

theorem align_isLeast_iff (ha : 0 < a.mBytes) :
    IsLeast {m | a.mBytes.toNat ∣ m ∧ c.mBytes.toNat ≤ m} (c.align a).mBytes.toNat ↔
      c.mBytes.toNat + a.mBytes.toNat ≤ 18446744073709551616 := by
  constructor
  · intro hleast
    by_contra hwraps
    have hle := hleast.1.2
    rw [align_of_wraps (not_le.mp hwraps)] at hle
    have hlt := a.mBytes.toNat_lt
    omega
  · intro hfits
    rw [align_of_fits ha hfits]
    exact isLeast_roundUp (UInt64.lt_iff_toNat_lt.mp ha) _

end Align

/-- **Exact or refused.** What is read is what the string denotes exactly if the number, when it fits, still
fits multiplied; a capacity is rounded up to the next multiple exactly if its sum with the alignment needs no
more than 64 bits. -/
theorem exact_or_refused_iff (str : Text) (c a : StorageCapacity) (ha : 0 < a.mBytes) :
    ((∀ capacity, parse str = .ok capacity → Denotes str capacity) ↔ ProductFits str) ∧
      (IsLeast {m | a.mBytes.toNat ∣ m ∧ c.mBytes.toNat ≤ m} (c.align a).mBytes.toNat ↔
        c.mBytes.toNat + a.mBytes.toNat ≤ 18446744073709551616) :=
  ⟨parse_denotes_iff str, align_isLeast_iff ha⟩

theorem exact_kilobytes : 0 < (1024 : UInt64) ∧ parse (literal "8kb") = .ok ⟨8192⟩ ∧
    IsLeast {m | 1024 ∣ m ∧ 1500 ≤ m} (align ⟨1500⟩ ⟨1024⟩).mBytes.toNat :=
  ⟨by decide, rfl, (exact_or_refused_iff (literal "8kb") ⟨1500⟩ ⟨1024⟩ (by decide)).2.mpr (by decide)⟩

/-- 2^64 bytes are read as none, and the largest capacity is rounded down to none. -/
theorem wrapped_around :
    (parse (literal "18014398509481984k") = .ok ⟨0⟩ ∧ ¬ Denotes (literal "18014398509481984k") ⟨0⟩) ∧
      (3 ∣ 18446744073709551615 ∧ (align ⟨18446744073709551615⟩ ⟨3⟩).mBytes = 0) := by
  refine ⟨⟨rfl, ?_⟩, by decide, rfl⟩
  rintro ⟨e, -, -, hvalue⟩
  have hzero : decimal ((literal "18014398509481984k").takeWhile isdigit) = 18014398509481984 := rfl
  rw [hzero] at hvalue
  have hpos := Nat.pow_pos (n := e) (show 0 < 1024 by decide)
  exact absurd hvalue (Nat.mul_pos (by decide) hpos).ne

end StorageCapacity

end Goldfish.System
