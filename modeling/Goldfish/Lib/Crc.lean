import Goldfish.Lib.LittleEndian

/-!
# Goldfish.Lib.Crc

**Cyclic redundancy checks** of any width and polynomial, the lowest bit first.

A shift of the remainder is linear in exclusive or (`crcShift_xor`), so eight of them are the
word of a table for the low byte and the rest moved down (`crcByte_eq`). If the polynomial has
its highest bit, no shift loses anything (`crcShifts_injective`), and then two texts that differ
only in a part that is not longer than the remainder never have the same one (`crcBytes_burst`).
-/

namespace Goldfish.Lib

variable {w : Nat} (poly : BitVec w)

/-- One bit. -/
def crcShift (c : BitVec w) : BitVec w := if c.getLsbD 0 then (c >>> 1) ^^^ poly else c >>> 1

/-- So many bits go through the register. -/
def crcShifts : Nat → BitVec w → BitVec w
  | 0, c => c
  | n + 1, c => crcShifts n (crcShift poly c)

/-- A byte goes through the register. -/
def crcByte (c : BitVec w) (b : UInt8) : BitVec w := crcShifts poly 8 (c ^^^ BitVec.ofNat w b.toNat)

/-- Some bytes go through the register. -/
def crcBytes (c : BitVec w) (bytes : List UInt8) : BitVec w := bytes.foldl (crcByte poly) c

variable {poly}

theorem crcBytes_append (c : BitVec w) (bytes bytes' : List UInt8) :
    crcBytes poly c (bytes ++ bytes') = crcBytes poly (crcBytes poly c bytes) bytes' := List.foldl_append

/-! ### Shifts -/

/-- **A shift is linear.** -/
theorem crcShift_xor (a b : BitVec w) : crcShift poly (a ^^^ b) = crcShift poly a ^^^ crcShift poly b := by
  rw [crcShift, crcShift, crcShift, BitVec.getLsbD_xor, BitVec.ushiftRight_xor_distrib]
  have hcancel : (a >>> 1) ^^^ (b >>> 1) = (a >>> 1) ^^^ poly ^^^ ((b >>> 1) ^^^ poly) := by
    rw [BitVec.xor_assoc, ← BitVec.xor_assoc poly, BitVec.xor_comm poly, BitVec.xor_assoc _ poly, BitVec.xor_self,
      BitVec.xor_zero]
  cases a.getLsbD 0 <;> cases b.getLsbD 0
  · rfl
  · exact BitVec.xor_assoc _ _ _
  · change (a >>> 1) ^^^ (b >>> 1) ^^^ poly = (a >>> 1) ^^^ poly ^^^ (b >>> 1)
    rw [BitVec.xor_assoc, BitVec.xor_comm (b >>> 1), BitVec.xor_assoc]
  · exact hcancel

theorem crcShifts_xor (n : Nat) (a b : BitVec w) :
    crcShifts poly n (a ^^^ b) = crcShifts poly n a ^^^ crcShifts poly n b := by
  induction n generalizing a b with
  | zero => rfl
  | succ n ih => rw [crcShifts, crcShift_xor, ih, crcShifts, crcShifts]

theorem crcShifts_add (m n : Nat) (c : BitVec w) :
    crcShifts poly (m + n) c = crcShifts poly n (crcShifts poly m c) := by
  induction m generalizing c with
  | zero => rw [Nat.zero_add, crcShifts]
  | succ m ih => rw [Nat.succ_add, crcShifts, ih, crcShifts]

/-- As long as the low bits are clear, the remainder only moves down. -/
theorem crcShifts_of_clear {n : Nat} {c : BitVec w} (h : ∀ i, i < n → c.getLsbD i = false) :
    crcShifts poly n c = c >>> n := by
  induction n generalizing c with
  | zero => rw [crcShifts, BitVec.ushiftRight_zero]
  | succ n ih =>
    have hlow : crcShift poly c = c >>> 1 := by rw [crcShift, h 0 (Nat.succ_pos n)]; rfl
    rw [crcShifts, hlow,
      ih fun i hi => by rw [BitVec.getLsbD_ushiftRight]; exact h _ (by omega), Nat.add_comm, BitVec.shiftRight_add]

/-! ### A byte at a time -/

theorem testBit_255 (i : Nat) : Nat.testBit 255 i = decide (i < 8) := by
  rw [show (255 : Nat) = 2 ^ 8 - 1 by rfl, Nat.testBit_two_pow_sub_one]

theorem ofNat_byte_ushiftRight (b : UInt8) : BitVec.ofNat w b.toNat >>> 8 = 0#w := by
  ext i hi
  have hlt : b.toNat < 2 ^ (8 + i) :=
    Nat.lt_of_lt_of_le b.toNat_lt (Nat.pow_le_pow_right (by decide) (Nat.le_add_right _ _))
  rw [BitVec.getElem_zero, ← BitVec.getLsbD_eq_getElem, BitVec.getLsbD_ushiftRight, BitVec.getLsbD_ofNat,
    Nat.testBit_lt_two_pow hlt, Bool.and_false]

/-- **A byte at a time, from a table** of eight shifts of each byte. -/
theorem crcByte_eq (c : BitVec w) (b : UInt8) :
    crcByte poly c b = crcShifts poly 8 ((c ^^^ BitVec.ofNat w b.toNat) &&& BitVec.ofNat w 255) ^^^ (c >>> 8) := by
  generalize hx : c ^^^ BitVec.ofNat w b.toNat = x
  have hhigh : (x &&& ~~~BitVec.ofNat w 255) >>> 8 = c >>> 8 := by
    have hshift : x >>> 8 = c >>> 8 := by
      rw [← hx, BitVec.ushiftRight_xor_distrib, ofNat_byte_ushiftRight, BitVec.xor_zero]
    rw [← hshift]
    ext i hi
    rw [← BitVec.getLsbD_eq_getElem, ← BitVec.getLsbD_eq_getElem, BitVec.getLsbD_ushiftRight,
      BitVec.getLsbD_ushiftRight, BitVec.getLsbD_and, BitVec.getLsbD_not, BitVec.getLsbD_ofNat, testBit_255]
    by_cases hw : 8 + i < w
    · simp [hw]
    · simp [BitVec.getLsbD_of_ge x (8 + i) (by omega)]
  have hsplit : x = (x &&& BitVec.ofNat w 255) ^^^ (x &&& ~~~BitVec.ofNat w 255) := by
    ext i hi
    rw [BitVec.getElem_xor, BitVec.getElem_and, BitVec.getElem_and, BitVec.getElem_not]
    cases x[i] <;> cases (BitVec.ofNat w 255)[i] <;> rfl
  have hclear : ∀ i, i < 8 → (x &&& ~~~BitVec.ofNat w 255).getLsbD i = false := by
    intro i hi
    rw [BitVec.getLsbD_and, BitVec.getLsbD_not, BitVec.getLsbD_ofNat, testBit_255]
    simp [hi]
  rw [crcByte, hx]
  conv_lhs => rw [hsplit]
  rw [crcShifts_xor, crcShifts_of_clear hclear, hhigh]

/-! ### What a check finds -/

/-- **No shift loses anything.** -/
theorem crcShift_injective (hpoly : poly.getLsbD (w - 1) = true) : Function.Injective (crcShift poly) := by
  have hzero : ∀ c : BitVec w, crcShift poly c = 0#w → c = 0#w := by
    intro c hc
    have hbits : ∀ i, (crcShift poly c).getLsbD i = false := fun i => by rw [hc, BitVec.getLsbD_zero]
    have hlow : c.getLsbD 0 = false := by
      by_contra hset
      have hhigh := hbits (w - 1)
      rw [crcShift, if_pos (Bool.of_not_eq_false hset), BitVec.getLsbD_xor, hpoly, BitVec.getLsbD_ushiftRight,
        BitVec.getLsbD_of_ge c (1 + (w - 1)) (by omega)] at hhigh
      cases hhigh
    refine BitVec.eq_of_getLsbD_eq fun i _ => ?_
    rw [BitVec.getLsbD_zero]
    cases i with
    | zero => exact hlow
    | succ i =>
      have hi := hbits i
      rwa [crcShift, hlow, if_neg (by decide), BitVec.getLsbD_ushiftRight, Nat.add_comm] at hi
  intro a b hab
  refine BitVec.xor_eq_zero_iff.mp (hzero _ ?_)
  rw [crcShift_xor, hab, BitVec.xor_self]

theorem crcShifts_injective (hpoly : poly.getLsbD (w - 1) = true) (n : Nat) :
    Function.Injective (crcShifts poly n) := by
  induction n with
  | zero => exact fun _ _ h => h
  | succ n ih => exact fun a b h => crcShift_injective hpoly (ih h)

theorem crcBytes_injective (hpoly : poly.getLsbD (w - 1) = true) (bytes : List UInt8) :
    Function.Injective fun c => crcBytes poly c bytes := by
  induction bytes with
  | nil => exact fun _ _ h => h
  | cons b bytes ih =>
    intro c c' h
    have hbyte : crcByte poly c b = crcByte poly c' b := ih h
    exact (BitVec.xor_left_inj _).mp (crcShifts_injective hpoly 8 hbyte)

/-- One more byte in front of a number. -/
theorem ofNat_cons (b : UInt8) (v : Nat) :
    BitVec.ofNat w (b.toNat + 256 * v) = BitVec.ofNat w b.toNat ^^^ BitVec.ofNat w (256 * v) := by
  refine BitVec.eq_of_getLsbD_eq fun i hi => ?_
  have hb : b.toNat < 2 ^ 8 := b.toNat_lt
  have hsum := Nat.testBit_two_pow_mul_add v hb i
  have hmul := Nat.testBit_two_pow_mul_add v (b := 0) (i := 8) (by decide) i
  rw [Nat.add_zero] at hmul
  rw [BitVec.getLsbD_xor, BitVec.getLsbD_ofNat, BitVec.getLsbD_ofNat, BitVec.getLsbD_ofNat, Nat.add_comm,
    show (256 : Nat) = 2 ^ 8 from rfl, hsum, hmul, Nat.zero_testBit, decide_eq_true hi, Bool.true_and, Bool.true_and,
      Bool.true_and]
  by_cases h : i < 8
  · rw [if_pos h, if_pos h, Bool.xor_false]
  · rw [if_neg h, if_neg h,
      Nat.testBit_lt_two_pow (Nat.lt_of_lt_of_le hb (Nat.pow_le_pow_right (by decide) (not_lt.mp h))), Bool.false_xor]

/-- Eight shifts take away the byte that is not there. -/
theorem crcShifts_ofNat_mul {v : Nat} (hv : 256 * v < 2 ^ w) :
    crcShifts poly 8 (BitVec.ofNat w (256 * v)) = BitVec.ofNat w v := by
  have hclear : ∀ i, i < 8 → (BitVec.ofNat w (256 * v)).getLsbD i = false := by
    intro i hi
    have hmul := Nat.testBit_two_pow_mul_add v (b := 0) (i := 8) (by decide) i
    rw [Nat.add_zero, if_pos hi, Nat.zero_testBit] at hmul
    rw [BitVec.getLsbD_ofNat, show (256 : Nat) = 2 ^ 8 from rfl, hmul, Bool.and_false]
  rw [crcShifts_of_clear hclear]
  refine BitVec.eq_of_toNat_eq ?_
  rw [BitVec.toNat_ushiftRight, BitVec.toNat_ofNat, BitVec.toNat_ofNat, Nat.mod_eq_of_lt hv,
    Nat.mod_eq_of_lt (by omega), Nat.shiftRight_eq_div_pow, Nat.mul_div_cancel_left v (by decide)]

theorem ofLE_lt (bytes : List UInt8) : ofLE bytes < 2 ^ (8 * bytes.length) := by
  have hlt := Nat.ofDigits_lt_base_pow_length (b := 256) (l := bytes.map UInt8.toNat) (by decide) fun d hd => by
    obtain ⟨b, -, rfl⟩ := List.mem_map.mp hd
    exact b.toNat_lt
  rwa [List.length_map, show (256 : Nat) = 2 ^ 8 from rfl, ← Nat.pow_mul] at hlt

theorem ofLE_inj {bytes bytes' : List UInt8} (hlength : bytes.length = bytes'.length) (h : ofLE bytes = ofLE bytes') :
    bytes = bytes' := by
  have hbytes : ∀ l : List UInt8, ∀ d ∈ l.map UInt8.toNat, d < 256 := by
    intro l d hd
    obtain ⟨b, -, rfl⟩ := List.mem_map.mp hd
    exact b.toNat_lt
  have hdigits :=
    Nat.ofDigits_inj_of_len_eq (by decide) (by rw [List.length_map, List.length_map, hlength]) (hbytes bytes)
      (hbytes bytes') h
  exact List.map_injective_iff.mpr (fun _ _ => UInt8.toNat_inj.mp) hdigits

/-- **As many bytes as the remainder has** are added to it at once. -/
theorem crcBytes_eq_shifts {bytes : List UInt8} (hle : 8 * bytes.length ≤ w) (c : BitVec w) :
    crcBytes poly c bytes = crcShifts poly (8 * bytes.length) (c ^^^ BitVec.ofNat w (ofLE bytes)) := by
  induction bytes generalizing c with
  | nil =>
    change c = c ^^^ 0#w
    rw [BitVec.xor_zero]
  | cons b bytes ih =>
    rw [List.length_cons] at hle ⊢
    have hlt : 256 * ofLE bytes < 2 ^ w := by
      have hv := ofLE_lt bytes
      have hpow : 2 ^ (8 + 8 * bytes.length) ≤ 2 ^ w := Nat.pow_le_pow_right (by decide) (by omega)
      rw [Nat.pow_add] at hpow
      omega
    calc crcBytes poly c (b :: bytes)
        = crcShifts poly (8 * bytes.length)
          (crcShifts poly 8 (c ^^^ BitVec.ofNat w b.toNat) ^^^ BitVec.ofNat w (ofLE bytes)) :=
          ih (by omega) (crcByte poly c b)
      _ = crcShifts poly (8 * bytes.length)
        (crcShifts poly 8 (c ^^^ BitVec.ofNat w b.toNat ^^^ BitVec.ofNat w (256 * ofLE bytes))) := by
          rw [crcShifts_xor _ (c ^^^ BitVec.ofNat w b.toNat), crcShifts_ofNat_mul hlt]
      _ = crcShifts poly (8 * (bytes.length + 1)) (c ^^^ BitVec.ofNat w (ofLE (b :: bytes))) := by
          rw [← crcShifts_add, ofLE_cons, ofNat_cons, BitVec.xor_assoc, Nat.mul_succ, Nat.add_comm]

/-- **A part that is not longer than the remainder** cannot be changed without a change of the check. -/
theorem crcBytes_burst (hpoly : poly.getLsbD (w - 1) = true) (c : BitVec w) (before behind : List UInt8)
    {part part' : List UInt8} (hlength : part.length = part'.length) (hle : 8 * part.length ≤ w)
    (h : crcBytes poly c (before ++ part ++ behind) = crcBytes poly c (before ++ part' ++ behind)) : part = part' := by
  rw [crcBytes_append, crcBytes_append, crcBytes_append, crcBytes_append] at h
  have hpart := crcBytes_injective hpoly behind h
  generalize crcBytes poly c before = start at hpart
  rw [crcBytes_eq_shifts hle, crcBytes_eq_shifts (hlength ▸ hle), ← hlength] at hpart
  have hvalue := (BitVec.xor_right_inj _).mp (crcShifts_injective hpoly _ hpart)
  have hpow : 2 ^ (8 * part.length) ≤ 2 ^ w := Nat.pow_le_pow_right (by decide) hle
  have hnat := congrArg BitVec.toNat hvalue
  rw [BitVec.toNat_ofNat, BitVec.toNat_ofNat, Nat.mod_eq_of_lt (Nat.lt_of_lt_of_le (ofLE_lt part) hpow),
    Nat.mod_eq_of_lt (Nat.lt_of_lt_of_le (ofLE_lt part') (hlength ▸ hpow))] at hnat
  exact ofLE_inj hlength hnat

end Goldfish.Lib
