import Mathlib.Data.List.Basic

/-!
# Goldfish.Lib.Utf8

**Texts in UTF-8**: the lead byte of a character and the continuation bytes behind it, told
apart by their two high bits (`utf8EncodeChar_cases`).
-/

namespace Goldfish.Lib

/-- A text in UTF-8. -/
def utf8 (text : List Char) : List UInt8 := text.flatMap String.utf8EncodeChar

@[simp] theorem utf8_nil : utf8 [] = [] := rfl

@[simp] theorem utf8_cons (c : Char) (text : List Char) : utf8 (c :: text) = String.utf8EncodeChar c ++ utf8 text :=
  List.flatMap_cons

/-- The two high bits, where the low ones are set and others are not. -/
theorem and_high (x low high : UInt8) (hlow : low &&& 0xC0 = 0) : (x &&& low ||| high) &&& 0xC0 = high &&& 0xC0 := by
  have hlow' := congrArg UInt8.toNat hlow
  rw [UInt8.toNat_and] at hlow'
  rw [← UInt8.toNat_inj, UInt8.toNat_and, UInt8.toNat_or, UInt8.toNat_and, UInt8.toNat_and, Nat.and_or_distrib_right,
    Nat.and_assoc, hlow', UInt8.toNat_zero, Nat.and_zero, Nat.zero_or]

/-- A byte is not below its high bits. -/
theorem toNat_of_and_high {b high : UInt8} (h : b &&& 0xC0 = high) : high.toNat ≤ b.toNat := by
  rw [← h, UInt8.toNat_and]
  exact Nat.and_le_left

/-- **The bytes of a character**: a single one, or a lead byte with up to three continuation bytes. -/
theorem utf8EncodeChar_cases (c : Char) :
    (c.toNat < 128 ∧ String.utf8EncodeChar c = [c.val.toUInt8]) ∨
      (128 ≤ c.toNat ∧ ∃ lead cont conts, String.utf8EncodeChar c = lead :: cont :: conts ∧
        lead &&& 0xC0 = 0xC0 ∧ cont &&& 0xC0 = 0x80 ∧ (∀ b ∈ conts, b &&& 0xC0 = 0x80) ∧ conts.length ≤ 2) := by
  have hcont : ∀ x : UInt8, (x &&& 0x3f ||| 0x80) &&& 0xC0 = 0x80 := fun x => and_high x 0x3f 0x80 rfl
  rcases c.utf8Size_eq with h | h | h | h
  · have hc := Char.utf8Size_eq_one_iff.mp h
    rw [UInt32.le_iff_toNat_le] at hc
    exact .inl ⟨Nat.lt_succ_of_le hc, String.utf8EncodeChar_eq_singleton h⟩
  · have hc := (Char.utf8Size_eq_two_iff.mp h).1
    rw [UInt32.lt_iff_toNat_lt] at hc
    refine .inr ⟨hc, _, _, [], String.utf8EncodeChar_eq_cons_cons h, and_high _ 0x1f 0xc0 rfl, hcont _, ?_, ?_⟩
    · simp
    · simp
  · have hc := (Char.utf8Size_eq_three_iff.mp h).1
    rw [UInt32.lt_iff_toNat_lt] at hc
    refine .inr ⟨?_, _, _, [_], String.utf8EncodeChar_eq_cons_cons_cons h, and_high _ 0x0f 0xe0 rfl, hcont _, ?_, ?_⟩
    · exact Nat.le_trans (by decide) hc
    · simpa using hcont _
    · simp
  · have hc := Char.utf8Size_eq_four_iff.mp h
    rw [UInt32.lt_iff_toNat_lt] at hc
    refine .inr ⟨?_, _, _, [_, _], String.utf8EncodeChar_eq_cons_cons_cons_cons h, and_high _ 0x07 0xf0 rfl,
      hcont _, ?_, ?_⟩
    · exact Nat.le_trans (by decide) hc
    · simpa using ⟨hcont _, hcont _⟩
    · simp

end Goldfish.Lib
