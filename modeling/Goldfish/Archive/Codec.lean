import Mathlib.Data.List.Basic
import Mathlib.Data.Nat.Bitwise

/-!
# Goldfish.Archive.Codec

The **archive codec** (`Reader.h`, `Writer.h`): unsigned integers as groups of seven bits,
low group first, with the top bit of a byte for "more to follow", and strings as their
length and their bytes. A value is written without a tag, so a reader has to ask for
the values in the order they were written; `getUnsigned_put` and `getString_put` say
that it then gets them back and stops right behind them.

A writer is the list of bytes it has written, a reader the list of bytes that are left.
-/

namespace Goldfish.Archive

/-- The bytes a reader has left, or a writer has written. -/
abbrev Bytes := List UInt8

/-- `IReader::read`: at most `size` bytes, fewer only at the end. -/
def read (r : Bytes) (size : Nat) : Bytes × Bytes := (r.take size, r.drop size)

theorem read_append (data rest : Bytes) : read (data ++ rest) data.length = (data, rest) := by
  simp [read]

/-! ### Unsigned integers -/

/-- The loop of `operator<<` for `unsigned_t`. `buf` has room for ten bytes. -/
def putUnsignedLoop : (room : Nat) → UInt64 → Bytes
  | 0, _ => []
  | room + 1, x =>
      let high7 := x >>> 7
      let low7 := (x &&& 0x7F).toUInt8
      if high7 ≠ 0 then (low7 ||| 0x80) :: putUnsignedLoop room high7 else [low7]

/-- `operator<<` for `unsigned_t`, and for the narrower unsigned types. -/
def putUnsigned (x : UInt64) : Bytes := putUnsignedLoop 10 x

/-- The loop of `getUnsigned`. It stops at the end of the input, and after 64 bits. -/
def getUnsignedLoop : Bytes → (result : UInt64) → (shift : Nat) → UInt64 × Bytes
  | [], result, _ => (result, [])
  | b :: r, result, shift =>
      if shift < 64 then
        let result := result ||| UInt64.ofNat ((b &&& 0x7F).toNat <<< shift)
        if b >>> 7 ≠ 0 then getUnsignedLoop r result (shift + 7) else (result, r)
      else (result, b :: r)

/-- `getUnsigned`. -/
def getUnsigned (r : Bytes) : UInt64 × Bytes := getUnsignedLoop r 0 0

theorem toNat_shiftRight_seven (x : UInt64) : (x >>> 7).toNat = x.toNat / 128 := by
  rw [UInt64.toNat_shiftRight]
  exact Nat.shiftRight_eq_div_pow x.toNat 7

theorem toNat_low7 (x : UInt64) : (x &&& 0x7F).toUInt8.toNat = x.toNat % 128 := by
  have hand : (x &&& 0x7F).toNat = x.toNat % 128 := by
    rw [UInt64.toNat_and]
    exact Nat.and_two_pow_sub_one_eq_mod x.toNat 7
  rw [UInt64.toNat_toUInt8, hand]
  omega

/-- The seven payload bits of a byte with or without the top bit. -/
theorem payload_low7 {b : UInt8} (h : b.toNat < 128) : b &&& 0x7F = b ∧ (b ||| 0x80) &&& 0x7F = b := by
  constructor <;> rw [← UInt8.toNat_inj]
  · rw [UInt8.toNat_and]
    exact (Nat.and_two_pow_sub_one_eq_mod b.toNat 7).trans (Nat.mod_eq_of_lt h)
  · rw [UInt8.toNat_and, UInt8.toNat_or]
    refine (Nat.and_two_pow_sub_one_eq_mod _ 7).trans ?_
    rw [Nat.or_mod_two_pow]
    exact (Nat.or_zero _).trans (Nat.mod_eq_of_lt h)

/-- The top bit says whether another byte follows. -/
theorem follows_low7 {b : UInt8} (h : b.toNat < 128) : b >>> 7 = 0 ∧ (b ||| 0x80) >>> 7 ≠ 0 := by
  have hzero : b.toNat >>> 7 = 0 := (Nat.shiftRight_eq_div_pow b.toNat 7).trans (Nat.div_eq_of_lt h)
  constructor
  · rw [← UInt8.toNat_inj, UInt8.toNat_shiftRight]
    exact hzero
  · rw [Ne, ← UInt8.toNat_inj, UInt8.toNat_shiftRight, UInt8.toNat_or]
    show (b.toNat ||| 128) >>> 7 ≠ 0
    rw [Nat.shiftRight_or_distrib, hzero]
    decide

/-- The low group and the rest make up the number. -/
theorem or_groups (n shift : Nat) :
    (n % 128) <<< shift ||| (n / 128) <<< (shift + 7) = n <<< shift := by
  have hsplit : n % 128 ||| (n / 128) <<< 7 = n := by
    rw [Nat.or_comm, ← Nat.shiftLeft_add_eq_or_of_lt (Nat.mod_lt n (by decide)),
      Nat.shiftLeft_eq]
    omega
  rw [Nat.add_comm shift 7, Nat.shiftLeft_add, ← Nat.shiftLeft_or_distrib, hsplit]

/-- A reader that has `result` in the bits below `shift` reads the groups of `x` on top. -/
theorem getUnsignedLoop_put (rest : Bytes) : ∀ (room : Nat) (x result : UInt64) (shift : Nat),
    shift + 7 * room = 70 → x.toNat <<< shift < 2 ^ 64 → shift < 64 →
    getUnsignedLoop (putUnsignedLoop room x ++ rest) result shift =
      (result ||| UInt64.ofNat (x.toNat <<< shift), rest)
  | 0, _, _, shift, hshift, _, hlt => by omega
  | room + 1, x, result, shift, hshift, hx, hlt => by
      have hlow : (x &&& 0x7F).toUInt8.toNat < 128 := by
        rw [toNat_low7]
        exact Nat.mod_lt _ (by decide)
      rw [Nat.shiftLeft_eq] at hx
      unfold putUnsignedLoop
      by_cases hhigh : x >>> 7 = 0
      · have hsmall : x.toNat % 128 = x.toNat := by
          have := congrArg UInt64.toNat hhigh
          rw [toNat_shiftRight_seven, UInt64.toNat_zero] at this
          omega
        simp only [hhigh, ne_eq, not_true_eq_false, if_false, List.singleton_append,
          getUnsignedLoop, hlt, if_true, (payload_low7 hlow).1, (follows_low7 hlow).1, toNat_low7,
          hsmall]
      · -- a second group means that the first one was not the last that fits
        have hdiv : x.toNat / 128 ≠ 0 := by
          intro h
          refine hhigh (UInt64.toNat_inj.mp ?_)
          rw [toNat_shiftRight_seven, h, UInt64.toNat_zero]
        have hroom : shift + 7 < 64 := by
          by_contra hcontra
          have : 2 ^ 57 ≤ 2 ^ shift := Nat.pow_le_pow_right (by decide) (by omega)
          have : 128 * 2 ^ 57 ≤ x.toNat * 2 ^ shift := Nat.mul_le_mul (by omega) this
          omega
        have hfits : (x >>> 7).toNat <<< (shift + 7) < 2 ^ 64 := by
          rw [toNat_shiftRight_seven, Nat.shiftLeft_eq, Nat.pow_add]
          have : x.toNat / 128 * 128 * 2 ^ shift ≤ x.toNat * 2 ^ shift :=
            Nat.mul_le_mul_right _ (Nat.div_mul_le_self _ _)
          rw [Nat.mul_comm (2 ^ shift), ← Nat.mul_assoc]
          exact lt_of_le_of_lt this hx
        have ih := getUnsignedLoop_put rest room (x >>> 7)
          (result ||| UInt64.ofNat ((x.toNat % 128) <<< shift)) (shift + 7) (by omega) hfits hroom
        simp only [hhigh, ne_eq, not_false_eq_true, if_true, List.cons_append, getUnsignedLoop, hlt,
          (payload_low7 hlow).2, (follows_low7 hlow).2, toNat_low7, ih, toNat_shiftRight_seven,
          UInt64.or_assoc]
        rw [← or_groups x.toNat shift, UInt64.ofNat_or]

/-- A number that was written is read back. -/
@[simp] theorem getUnsigned_put (x : UInt64) (rest : Bytes) :
    getUnsigned (putUnsigned x ++ rest) = (x, rest) := by
  have h := getUnsignedLoop_put rest 10 x 0 0 (by decide) x.toNat_lt (by decide)
  simpa [getUnsigned, putUnsigned] using h

/-! ### Narrower integers

They are widened to be written, and what was read is cut down to the type it is stored in. -/

/-- `operator<<` for `unsigned int`. -/
def putUInt32 (x : UInt32) : Bytes := putUnsigned x.toUInt64

/-- `operator<<` for `unsigned short`. -/
def putUInt16 (x : UInt16) : Bytes := putUnsigned x.toUInt64

/-- `operator<<` for `bool`. -/
def putBool (x : Bool) : Bytes := putUnsigned x.toUInt64

/-- `operator<<` for `unsigned long`, which `size_t` is. -/
def putSize (n : Nat) : Bytes := putUnsigned (UInt64.ofNat n)

/-- A `uint32_t` that is assigned `getUnsigned`. -/
def getUInt32 (r : Bytes) : UInt32 × Bytes := (getUnsigned r).map UInt64.toUInt32 id

/-- A `uint16_t` that is assigned `getUnsigned`. -/
def getUInt16 (r : Bytes) : UInt16 × Bytes := (getUnsigned r).map UInt64.toUInt16 id

/-- A `uint8_t` that is assigned `getUnsigned`. -/
def getUInt8 (r : Bytes) : UInt8 × Bytes := (getUnsigned r).map UInt64.toUInt8 id

/-- A `bool` that is assigned `getUnsigned(reader) != 0`. -/
def getBool (r : Bytes) : Bool × Bytes := (getUnsigned r).map (· != 0) id

/-- A `size_t` that is assigned `getUnsigned`. -/
def getSize (r : Bytes) : Nat × Bytes := (getUnsigned r).map UInt64.toNat id

@[simp] theorem getUInt32_put (x : UInt32) (rest : Bytes) :
    getUInt32 (putUInt32 x ++ rest) = (x, rest) := by
  simp [getUInt32, putUInt32]

@[simp] theorem getUInt16_put (x : UInt16) (rest : Bytes) :
    getUInt16 (putUInt16 x ++ rest) = (x, rest) := by
  simp [getUInt16, putUInt16]

@[simp] theorem getBool_put (x : Bool) (rest : Bytes) :
    getBool (putBool x ++ rest) = (x, rest) := by
  cases x <;> simp [getBool, putBool, Bool.toUInt64]

theorem getSize_put {n : Nat} (h : n < 2 ^ 64) (rest : Bytes) :
    getSize (putSize n ++ rest) = (n, rest) := by
  simp [getSize, putSize, UInt64.toNat_ofNat_of_lt' h]

/-! ### Strings -/

/-- `operator<<` for `std::string_view`. -/
def putString (s : Bytes) : Bytes := putSize s.length ++ s

/-- `getString`: the empty string when the input ends too early. -/
def getString (r : Bytes) : Bytes × Bytes :=
  let (size, r) := getSize r
  let (result, r) := read r size
  (if result.length = size then result else [], r)

/-- A string that was written is read back. -/
theorem getString_put {s : Bytes} (h : s.length < 2 ^ 64) (rest : Bytes) :
    getString (putString s ++ rest) = (s, rest) := by
  simp [getString, putString, List.append_assoc, getSize_put h, read_append]

/-! ### Loops -/

/-- `for (size_t n = getUnsigned(reader); n > 0; --n)` around a body that reads. -/
def getLoop {α : Type} (body : α → Bytes → α × Bytes) : (n : Nat) → α → Bytes → α × Bytes
  | 0, a, r => (a, r)
  | n + 1, a, r =>
      let (a, r) := body a r
      getLoop body n a r

/-- The body reads back what was written for each element of a list. -/
theorem getLoop_flatMap {α β : Type} {body : α → Bytes → α × Bytes} {put : β → Bytes}
    {f : α → β → α} (hbody : ∀ a b rest, body a (put b ++ rest) = (f a b, rest)) (rest : Bytes) :
    ∀ (bs : List β) (a : α),
      getLoop body bs.length a (bs.flatMap put ++ rest) = (bs.foldl f a, rest)
  | [], a => rfl
  | b :: bs, a => by
      rw [List.flatMap_cons, List.append_assoc, List.length_cons, getLoop, hbody]
      exact getLoop_flatMap hbody rest bs (f a b)

end Goldfish.Archive
