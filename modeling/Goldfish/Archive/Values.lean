import Goldfish.Archive.Codec
import Mathlib.Data.Nat.Size

/-!
# Goldfish.Archive.Values

Everything an `IWriter` can be given, and **sequences** of it (`zigzag.h`, `Writer.h`,
`Reader.h`). Signed integers are turned into unsigned ones with the sign in the lowest
bit (`Zigzag`), floating point numbers are written as the bytes they have in memory.

Nothing in the stream says what comes next, so the theorem about sequences
(`getAll_putAll`) is only as good as the one about each value: what `Value.put` writes,
the matching reader takes off the front of any stream, and not a byte more (`Kind.get_put`).
-/

namespace Goldfish.Archive

/-! ### Zigzag -/

namespace Zigzag

/-- `zigzag::encode`. The right shift is the arithmetic one. -/
def encode (x : Int64) : UInt64 := ((x >>> 63) ^^^ (x <<< 1)).toUInt64

/-- `zigzag::decode`. -/
def decode (x : UInt64) : Int64 := ((x >>> 1) ^^^ (-(x &&& 1).toInt64).toUInt64).toInt64

theorem getLsbD_neg_and_one (y : BitVec 64) {i : Nat} (hi : i < 64) :
    (-(y &&& 1#64)).getLsbD i = y.getLsbD 0 := by
  have hbit : y &&& 1#64 = (BitVec.ofBool (y.getLsbD 0)).setWidth 64 :=
    BitVec.and_one_eq_setWidth_ofBool_getLsbD
  rw [hbit]
  cases y.getLsbD 0 with
  | false => exact BitVec.getLsbD_zero
  | true =>
    have hones : -(BitVec.ofBool true).setWidth 64 = BitVec.allOnes 64 := by decide
    rw [hones, BitVec.getLsbD_allOnes]
    exact decide_eq_true hi

/-- The bits of an encoded number: one place up, and flipped if the number is negative. -/
theorem getLsbD_encode (x : BitVec 64) {i : Nat} (hi : i < 64) :
    (x.sshiftRight 63 ^^^ x <<< 1).getLsbD i =
      (x.getLsbD 63 ^^ (decide (i ≠ 0) && x.getLsbD (i - 1))) := by
  have hsign : (x.sshiftRight 63).getLsbD i = x.getLsbD 63 := by
    rw [BitVec.getLsbD_sshiftRight, decide_eq_false (Nat.not_le.mpr hi),
      BitVec.msb_eq_getLsbD_last]
    rcases Nat.eq_zero_or_pos i with rfl | hpos
    · rfl
    · rw [if_neg (by omega)]
      rfl
  rw [BitVec.getLsbD_xor, hsign, BitVec.getLsbD_shiftLeft, decide_eq_true hi]
  congr 2
  rcases Nat.eq_zero_or_pos i with rfl | hpos
  · rfl
  · rw [decide_eq_false (show ¬ i < 1 by omega), decide_eq_true (show i ≠ 0 by omega)]
    rfl

/-- The bits of a decoded number: one place down, and flipped if the lowest bit was set. -/
theorem getLsbD_decode (y : BitVec 64) {i : Nat} (hi : i < 64) :
    (y >>> 1 ^^^ -(y &&& 1#64)).getLsbD i = (y.getLsbD (i + 1) ^^ y.getLsbD 0) := by
  rw [BitVec.getLsbD_xor, getLsbD_neg_and_one y hi, BitVec.getLsbD_ushiftRight, Nat.add_comm]

theorem decode_encode (x : Int64) : decode (encode x) = x := by
  refine Int64.toBitVec_inj.mp (BitVec.eq_of_getLsbD_eq fun i hi => ?_)
  refine (getLsbD_decode (encode x).toBitVec hi).trans ?_
  have hbit {j : Nat} (hj : j < 64) := getLsbD_encode x.toBitVec hj
  show (_ ^^ (x.toBitVec.sshiftRight 63 ^^^ x.toBitVec <<< 1).getLsbD 0) = _
  rw [hbit (by decide : 0 < 64)]
  rcases Nat.lt_or_ge (i + 1) 64 with hlt | hge
  · show ((x.toBitVec.sshiftRight 63 ^^^ x.toBitVec <<< 1).getLsbD (i + 1) ^^ _) = _
    rw [hbit hlt, Nat.add_sub_cancel]
    cases x.toBitVec.getLsbD 63 <;> simp
  · -- the sign comes back from the lowest bit
    obtain rfl : i = 63 := by omega
    rw [BitVec.getLsbD_of_ge _ _ hge]
    simp

theorem encode_decode (y : UInt64) : encode (decode y) = y := by
  refine UInt64.toBitVec_inj.mp (BitVec.eq_of_getLsbD_eq fun i hi => ?_)
  refine (getLsbD_encode (decode y).toBitVec hi).trans ?_
  have hbit {j : Nat} (hj : j < 64) :
      (decode y).toBitVec.getLsbD j = (y.toBitVec.getLsbD (j + 1) ^^ y.toBitVec.getLsbD 0) :=
    getLsbD_decode y.toBitVec hj
  rw [hbit (by decide : 63 < 64), hbit (show i - 1 < 64 by omega),
    BitVec.getLsbD_of_ge y.toBitVec 64 (by decide)]
  cases i with
  | zero => simp
  | succ i =>
    rw [Nat.add_sub_cancel]
    cases y.toBitVec.getLsbD 0 <;> simp

end Zigzag

/-! ### The length of an integer -/

theorem size_div_128 (n : Nat) : (n / 128).size = n.size - 7 := by
  have hle (k : Nat) : (n / 128).size ≤ k ↔ n.size ≤ k + 7 := by
    rw [Nat.size_le, Nat.size_le, Nat.pow_add]
    exact Nat.div_lt_iff_lt_mul (by decide)
  have h1 := (hle (n.size - 7)).mpr (by omega)
  have h2 := (hle (n / 128).size).mp (Nat.le_refl _)
  omega

/-- The number of bytes for a number: its bits in groups of seven, but at least one. -/
def encodedLength (n : Nat) : Nat := max 1 ((n.size + 6) / 7)

theorem putUnsignedLoop_length : ∀ (room : Nat) (x : UInt64), 0 < room → x.toNat < 2 ^ (7 * room) →
    (putUnsignedLoop room x).length = encodedLength x.toNat
  | 0, _, h, _ => absurd h (Nat.lt_irrefl 0)
  | room + 1, x, _, hx => by
      have hsize := size_div_128 x.toNat
      unfold putUnsignedLoop encodedLength
      by_cases hhigh : x >>> 7 = 0
      · -- the number has at most seven bits
        have hzero := congrArg UInt64.toNat hhigh
        rw [toNat_shiftRight_seven] at hzero
        rw [show x.toNat / 128 = 0 from hzero, Nat.size_zero] at hsize
        simp only [hhigh, ne_eq, not_true_eq_false, if_false, List.length_singleton]
        omega
      · have hbig : 128 ≤ x.toNat := by
          by_contra hcontra
          refine hhigh (UInt64.toNat_inj.mp ?_)
          rw [toNat_shiftRight_seven, Nat.div_eq_of_lt (Nat.not_le.mp hcontra)]
          rfl
        have hbits : 7 < x.toNat.size := Nat.lt_size.mpr hbig
        have hroom : 0 < room := by
          rcases Nat.eq_zero_or_pos room with rfl | hpos
          · exact absurd hx (Nat.not_lt.mpr hbig)
          · exact hpos
        have hfits : (x >>> 7).toNat < 2 ^ (7 * room) := by
          rw [toNat_shiftRight_seven]
          rw [Nat.mul_add, Nat.pow_add] at hx
          exact (Nat.div_lt_iff_lt_mul (by decide)).mpr hx
        have ih := putUnsignedLoop_length room (x >>> 7) hroom hfits
        rw [encodedLength, toNat_shiftRight_seven, hsize] at ih
        simp only [hhigh, ne_eq, not_false_eq_true, if_true, List.length_cons, ih]
        omega

/-- **The length of an integer in the archive.** -/
theorem putUnsigned_length (x : UInt64) : (putUnsigned x).length = encodedLength x.toNat :=
  putUnsignedLoop_length 10 x (by decide) (Nat.lt_trans x.toNat_lt (by decide))

/-! ### Values and their readers -/

/-- The bytes of a `float` or a `double` in memory. -/
abbrev Raw (n : Nat) := { b : Bytes // b.length = n }

/-- What `operator<<` is overloaded for. -/
inductive Value where
  | unsignedLongLong (x : UInt64)
  | signedLongLong (x : Int64)
  | unsignedChar (x : UInt8)
  | unsignedShort (x : UInt16)
  | unsignedInt (x : UInt32)
  | unsignedLong (x : UInt64)
  | signedChar (x : Int8)
  | signedShort (x : Int16)
  | signedInt (x : Int32)
  | signedLong (x : Int64)
  | bool (x : Bool)
  | char (x : UInt8)
  | float (x : Raw 4)
  | double (x : Raw 8)
  | string (x : Bytes) (fits : x.length < 2 ^ 64)

/-- `signed_t(x)` for a `char`, which is a signed type on some platforms only. -/
def charToSigned (charIsSigned : Bool) (x : UInt8) : Int64 :=
  if charIsSigned then x.toInt8.toInt64 else x.toUInt64.toInt64

/-- `operator<<` for `signed_t`, and for the narrower signed types. -/
def putSigned (x : Int64) : Bytes := putUnsigned (Zigzag.encode x)

/-- `getSigned`. -/
def getSigned (r : Bytes) : Int64 × Bytes := (getUnsigned r).map Zigzag.decode id

/-- `getFloat` and `getDouble`. When the input ends too early, some bytes of the number were never
written to. -/
def getRaw (n : Nat) (r : Bytes) : Option (Raw n) × Bytes :=
  let (b, r) := read r n
  (if h : b.length = n then some ⟨b, h⟩ else none, r)

/-- `operator<<`. -/
def Value.put (charIsSigned : Bool) : Value → Bytes
  | .unsignedLongLong x => putUnsigned x
  | .signedLongLong x => putSigned x
  | .unsignedChar x => putUnsigned x.toUInt64
  | .unsignedShort x => putUInt16 x
  | .unsignedInt x => putUInt32 x
  | .unsignedLong x => putUnsigned x
  | .signedChar x => putSigned x.toInt64
  | .signedShort x => putSigned x.toInt64
  | .signedInt x => putSigned x.toInt64
  | .signedLong x => putSigned x
  | .bool x => putBool x
  | .char x => putSigned (charToSigned charIsSigned x)
  | .float x => x.val
  | .double x => x.val
  | .string x _ => putString x

/-- The readers: `getUnsigned`, `getSigned`, `getFloat`, `getDouble` and `getString`. -/
inductive Kind where
  | unsigned | signed | float | double | string
deriving DecidableEq, Repr

/-- What a reader returns. -/
inductive Got where
  | unsigned (x : UInt64)
  | signed (x : Int64)
  | float (x : Option (Raw 4))
  | double (x : Option (Raw 8))
  | string (x : Bytes)
deriving DecidableEq

/-- Call a reader. -/
def Kind.get : Kind → Bytes → Got × Bytes
  | .unsigned, r => (getUnsigned r).map .unsigned id
  | .signed, r => (getSigned r).map .signed id
  | .float, r => (getRaw 4 r).map .float id
  | .double, r => (getRaw 8 r).map .double id
  | .string, r => (getString r).map .string id

/-- A value as its reader returns it: integers are 64 bits wide. -/
def Value.got (charIsSigned : Bool) : Value → Got
  | .unsignedLongLong x => .unsigned x
  | .signedLongLong x => .signed x
  | .unsignedChar x => .unsigned x.toUInt64
  | .unsignedShort x => .unsigned x.toUInt64
  | .unsignedInt x => .unsigned x.toUInt64
  | .unsignedLong x => .unsigned x
  | .signedChar x => .signed x.toInt64
  | .signedShort x => .signed x.toInt64
  | .signedInt x => .signed x.toInt64
  | .signedLong x => .signed x
  | .bool x => .unsigned x.toUInt64
  | .char x => .signed (charToSigned charIsSigned x)
  | .float x => .float (some x)
  | .double x => .double (some x)
  | .string x _ => .string x

/-- The kind of reader a result comes from. -/
def Got.kind : Got → Kind
  | .unsigned _ => .unsigned
  | .signed _ => .signed
  | .float _ => .float
  | .double _ => .double
  | .string _ => .string

/-- The number an integer is written as. -/
def Got.code : Got → Option UInt64
  | .unsigned x => some x
  | .signed x => some (Zigzag.encode x)
  | _ => none

@[simp] theorem getSigned_put (x : Int64) (rest : Bytes) :
    getSigned (putSigned x ++ rest) = (x, rest) := by
  simp [getSigned, putSigned, Zigzag.decode_encode]

@[simp] theorem getRaw_append {n : Nat} (x : Raw n) (rest : Bytes) :
    getRaw n (x.val ++ rest) = (some x, rest) := by
  obtain ⟨b, rfl⟩ := x
  simp [getRaw, read_append]

/-- **The matching reader takes a value off the front of any stream.** -/
theorem Kind.get_put (charIsSigned : Bool) (v : Value) (rest : Bytes) :
    (v.got charIsSigned).kind.get (v.put charIsSigned ++ rest) = (v.got charIsSigned, rest) := by
  cases v with
  | string x fits => simp [Value.got, Value.put, Got.kind, Kind.get, getString_put fits]
  | _ => simp [Value.got, Value.put, Got.kind, Kind.get, putUInt16, putUInt32, putBool]

/-- An integer is written as one number. -/
theorem Value.put_of_code (charIsSigned : Bool) {v : Value} {n : UInt64}
    (h : (v.got charIsSigned).code = some n) : v.put charIsSigned = putUnsigned n := by
  cases v <;> simp only [Value.got, Got.code, Option.some.injEq, reduceCtorEq] at h <;> subst h <;> rfl

/-! ### Sequences -/

/-- `writer << v1 << v2 << ..` -/
def putAll (charIsSigned : Bool) (vs : List Value) : Bytes := vs.flatMap (Value.put charIsSigned)

/-- A sequence of readers. -/
def getAll : List Kind → Bytes → List Got × Bytes
  | [], r => ([], r)
  | kind :: kinds, r =>
      let (x, r) := kind.get r
      let (xs, r) := getAll kinds r
      (x :: xs, r)

/-- The sequence of readers for some values returns them and stops behind them. -/
theorem getAll_putAll (charIsSigned : Bool) (vs : List Value) (rest : Bytes) :
    getAll (vs.map fun v => (v.got charIsSigned).kind) (putAll charIsSigned vs ++ rest) =
      (vs.map (Value.got charIsSigned), rest) := by
  induction vs with
  | nil => rfl
  | cons v vs ih =>
    rw [putAll, List.flatMap_cons, List.append_assoc, List.map_cons, List.map_cons, getAll,
      Kind.get_put]
    exact congrArg (Prod.map (v.got charIsSigned :: ·) id) ih

/-- **Any sequence of values is read back from the queue and leaves it empty; an integer takes as
many bytes as it has groups of seven bits, and at least one; and zigzag loses nothing.** -/
theorem archive_roundTrip (charIsSigned : Bool) :
    (∀ vs : List Value,
      getAll (vs.map fun v => (v.got charIsSigned).kind) (putAll charIsSigned vs) =
        (vs.map (Value.got charIsSigned), [])) ∧
    (∀ (v : Value) (n : UInt64), (v.got charIsSigned).code = some n →
      (v.put charIsSigned).length = max 1 ((n.toNat.size + 6) / 7)) ∧
    Function.LeftInverse Zigzag.decode Zigzag.encode ∧
    Function.RightInverse Zigzag.decode Zigzag.encode ∧
    Function.Bijective Zigzag.encode ∧ Function.Bijective Zigzag.decode := by
  have hleft : Function.LeftInverse Zigzag.decode Zigzag.encode := Zigzag.decode_encode
  have hright : Function.RightInverse Zigzag.decode Zigzag.encode := Zigzag.encode_decode
  refine ⟨fun vs => ?_, fun v n h => ?_, hleft, hright, ⟨hleft.injective, hright.surjective⟩,
    ⟨hright.injective, hleft.surjective⟩⟩
  · have hall := getAll_putAll charIsSigned vs []
    rwa [List.append_nil] at hall
  · rw [Value.put_of_code charIsSigned h]
    exact putUnsigned_length n

end Goldfish.Archive
