import Mathlib.Data.Nat.Digits.Lemmas

/-!
# Goldfish.Lib.LittleEndian

**Numbers as bytes**, the least significant one first: the value of some bytes (`ofLE`),
and a number in a given number of bytes (`toLE`), which is the number again if it fits
(`ofLE_toLE`).
-/

namespace Goldfish.Lib

/-- The number that some bytes stand for. -/
def ofLE (bytes : List UInt8) : Nat := Nat.ofDigits 256 (bytes.map UInt8.toNat)

/-- The lowest bytes of a number. -/
def toLE : (width : Nat) → Nat → List UInt8
  | 0, _ => []
  | width + 1, n => UInt8.ofNat n :: toLE width (n / 256)

@[simp]
theorem length_toLE (width n : Nat) : (toLE width n).length = width := by
  induction width generalizing n with
  | zero => rfl
  | succ width ih => rw [toLE, List.length_cons, ih]

theorem ofLE_cons (b : UInt8) (bytes : List UInt8) : ofLE (b :: bytes) = b.toNat + 256 * ofLE bytes := by
  rw [ofLE, List.map_cons, Nat.ofDigits_cons]
  rfl

/-- **A number is what its bytes stand for**, as far as they go. -/
theorem ofLE_toLE (width n : Nat) : ofLE (toLE width n) = n % 256 ^ width := by
  induction width generalizing n with
  | zero => rw [Nat.pow_zero, Nat.mod_one]; rfl
  | succ width ih =>
    rw [toLE, ofLE_cons, ih, UInt8.toNat_ofNat', Nat.pow_succ 256, Nat.mul_comm (256 ^ width)]
    exact Nat.mod_mul.symm

theorem ofLE_toLE_of_lt {width n : Nat} (h : n < 256 ^ width) : ofLE (toLE width n) = n := by
  rw [ofLE_toLE, Nat.mod_eq_of_lt h]

end Goldfish.Lib
