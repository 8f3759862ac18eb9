import Mathlib.Order.Interval.Finset.Nat

/-!
# Goldfish.Lib.Bitmap

**Bitmaps**: bytes, read as a row of bits of which the lowest of a byte comes first
(`bitAt`).

`setBit` and `clearBit` change one bit and `setByte` a row of eight, and nothing else
(`bitAt_setBit`, `bitAt_clearBit`, `bitAt_setByte`). `clearBits` counts the bits below a
limit that are clear; where they are known to be those between two numbers, so is how many
there are (`clearBits_eq_sub`).
-/

namespace Goldfish.Lib

/-- Bytes, of which the bit 0 comes first. -/
abbrev Bitmap := List (BitVec 8)

namespace Bitmap

/-- A bit, none of which is set outside of the bytes. -/
def bitAt (bitmap : Bitmap) (bit : Nat) : Bool := (bitmap.getD (bit / 8) 0#8).getLsbD (bit % 8)

/-- The bit is set; behind the end nothing is. -/
def setBit (bitmap : Bitmap) (bit : Nat) : Bitmap :=
  bitmap.set (bit / 8) (bitmap.getD (bit / 8) 0#8 ||| 1#8 <<< (bit % 8))

/-- The bit is cleared. -/
def clearBit (bitmap : Bitmap) (bit : Nat) : Bitmap :=
  bitmap.set (bit / 8) (bitmap.getD (bit / 8) 0#8 &&& ~~~(1#8 <<< (bit % 8)))

/-- All the bits of the byte that a bit is in. -/
def setByte (bitmap : Bitmap) (bit : Nat) : Bitmap := bitmap.set (bit / 8) 0xFF#8

variable {bitmap : Bitmap} {bit i : Nat}

@[simp] theorem length_setBit : (bitmap.setBit bit).length = bitmap.length := List.length_set

@[simp] theorem length_clearBit : (bitmap.clearBit bit).length = bitmap.length := List.length_set

@[simp] theorem length_setByte : (bitmap.setByte bit).length = bitmap.length := List.length_set

theorem getD_set (bitmap : Bitmap) {k : Nat} (j : Nat) (b : BitVec 8) (hk : k < bitmap.length) :
    List.getD (bitmap.set k b) j 0#8 = if j = k then b else bitmap.getD j 0#8 := by
  rw [List.getD_eq_getElem?_getD, List.getElem?_set, List.getD_eq_getElem?_getD]
  by_cases hj : k = j
  · rw [if_pos hj, if_pos hj.symm, if_pos hk, Option.getD_some]
  · rw [if_neg hj, if_neg (Ne.symm hj)]

theorem bitAt_zeros (n i : Nat) : bitAt (List.replicate n 0#8) i = false := by
  by_cases h : i / 8 < n <;> simp [bitAt, h]

theorem getLsbD_mask {k j : Nat} (hj : j < 8) : (1#8 <<< k).getLsbD j = decide (j = k) := by
  rw [BitVec.getLsbD_shiftLeft, BitVec.getLsbD_one]
  simp only [hj, decide_true, Bool.true_and, Nat.zero_lt_succ]
  by_cases h : j = k
  · simp [h]
  · have hne : ¬ (¬ j < k ∧ j - k = 0) := by omega
    rw [Bool.eq_iff_iff]
    simpa [h] using fun h₁ h₂ => hne ⟨by omega, h₂⟩

theorem bitAt_setBit (h : bit < 8 * bitmap.length) :
    bitAt (bitmap.setBit bit) i = (decide (i = bit) || bitAt bitmap i) := by
  rw [bitAt, setBit, getD_set _ _ _ (by omega)]
  by_cases hbyte : i / 8 = bit / 8
  · rw [if_pos hbyte, BitVec.getLsbD_or, getLsbD_mask (Nat.mod_lt _ (by decide)), bitAt,
      hbyte, Bool.or_comm]
    congr 1
    exact decide_eq_decide.mpr (by omega)
  · have hne : i ≠ bit := fun hi => hbyte (hi ▸ rfl)
    rw [if_neg hbyte, decide_eq_false hne, Bool.false_or, bitAt]

theorem bitAt_clearBit (h : bit < 8 * bitmap.length) :
    bitAt (bitmap.clearBit bit) i = (decide (i ≠ bit) && bitAt bitmap i) := by
  rw [bitAt, clearBit, getD_set _ _ _ (by omega)]
  by_cases hbyte : i / 8 = bit / 8
  · have hlt : i % 8 < 8 := Nat.mod_lt _ (by decide)
    rw [if_pos hbyte, BitVec.getLsbD_and, BitVec.getLsbD_not, getLsbD_mask hlt, bitAt,
      hbyte, Bool.and_comm, decide_eq_true hlt, Bool.true_and, ← decide_not]
    congr 1
    exact decide_eq_decide.mpr (by omega)
  · have hne : i ≠ bit := fun hi => hbyte (hi ▸ rfl)
    rw [if_neg hbyte, decide_eq_true hne, Bool.true_and, bitAt]

theorem bitAt_setByte (h : bit < 8 * bitmap.length) :
    bitAt (bitmap.setByte bit) i = (decide (i / 8 = bit / 8) || bitAt bitmap i) := by
  rw [bitAt, setByte, getD_set _ _ _ (by omega)]
  by_cases hbyte : i / 8 = bit / 8
  · have hlt : i % 8 < 8 := Nat.mod_lt _ (by decide)
    rw [if_pos hbyte, decide_eq_true hbyte, Bool.true_or]
    exact (BitVec.getLsbD_allOnes (v := 8)).trans (decide_eq_true hlt)
  · rw [if_neg hbyte, decide_eq_false hbyte, Bool.false_or, bitAt]

/-- A byte is zero if none of its bits is set. -/
theorem byte_eq_zero_iff : bitmap.getD (bit / 8) 0#8 = 0#8 ↔ ∀ i, i / 8 = bit / 8 → bitAt bitmap i = false := by
  constructor
  · intro h i hi
    rw [bitAt, hi, h, BitVec.getLsbD_zero]
  · intro h
    refine BitVec.eq_of_getLsbD_eq fun k hk => ?_
    have hbit := h (8 * (bit / 8) + k) (by omega)
    rw [bitAt, show (8 * (bit / 8) + k) / 8 = bit / 8 by omega, show (8 * (bit / 8) + k) % 8 = k by omega] at hbit
    rw [hbit, BitVec.getLsbD_zero]

/-- A bitmap is its bits. -/
theorem ext_bitAt {bitmap' : Bitmap} (hlength : bitmap.length = bitmap'.length)
    (h : ∀ i, bitAt bitmap i = bitAt bitmap' i) : bitmap = bitmap' := by
  refine List.ext_getElem hlength fun k hk hk' => BitVec.eq_of_getLsbD_eq fun j hj => ?_
  have hbit := h (8 * k + j)
  rw [bitAt, bitAt, show (8 * k + j) / 8 = k by omega, show (8 * k + j) % 8 = j by omega, List.getD_eq_getElem?_getD,
    List.getD_eq_getElem?_getD, List.getElem?_eq_getElem hk, List.getElem?_eq_getElem hk'] at hbit
  exact hbit

/-! ### Counting -/

/-- How many of the first bits are clear. -/
def clearBits (bitmap : Bitmap) (limit : Nat) : Nat :=
  ((Finset.range limit).filter fun i => bitAt bitmap i = false).card

/-- **The clear bits are those between two numbers.** -/
theorem clearBits_eq_sub {a b limit : Nat} (hb : b ≤ limit)
    (h : ∀ i, i < limit → (bitAt bitmap i = false ↔ a ≤ i ∧ i < b)) : clearBits bitmap limit = b - a := by
  have hbetween : ((Finset.range limit).filter fun i => bitAt bitmap i = false) = Finset.Ico a b := by
    ext i
    rw [Finset.mem_filter, Finset.mem_range, Finset.mem_Ico]
    constructor
    · intro ⟨hi, hclear⟩
      exact (h i hi).mp hclear
    · intro hi
      have hlt : i < limit := by omega
      exact ⟨hlt, (h i hlt).mpr hi⟩
  rw [clearBits, hbetween, Nat.card_Ico]

end Bitmap

end Goldfish.Lib
