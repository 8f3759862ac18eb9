import Goldfish.Lib.LittleEndian
import Mathlib.Data.Int.GCD
import Mathlib.Data.Nat.Prime.Basic
import Mathlib.Data.Nat.Size
import Mathlib.Tactic.Ring

/-!
# Goldfish.Adb.PublicKey

The binary format of adb's public RSA keys (`adbkey.cpp`): a block of words, with the
modulus and the numbers that a Montgomery multiplication needs.

Big numbers are natural numbers, and BoringSSL's operations on them the functions of
arithmetic they are named for; `none` is their error. A key is encoded exactly if its
modulus is odd and has the right size (`encode_iff`). The fields are what they
should be (`n0inv_spec`, `rr_spec`), but for the exponent, which is cut to 32 bits.
-/

namespace Goldfish.Adb

open Goldfish.Lib

/-- The bytes of a modulus of 2048 bits. -/
def ANDROID_PUBKEY_MODULUS_SIZE : Nat := 256

/-- The same in words of 32 bits. -/
def ANDROID_PUBKEY_MODULUS_SIZE_WORDS : UInt32 := 64

/-! ### Big numbers -/

/-- `BN_set_bit`, of a number that is not negative. -/
def BN_set_bit (a bit : Nat) : Nat := a ||| 2 ^ bit

/-- `BN_mod`, which fails for the modulus 0. -/
def BN_mod (a m : Nat) : Option Nat := if m = 0 then none else some (a % m)

/-- The inverse, between 0 and the modulus. -/
def BN_mod_inverse (a m : Nat) : Option Nat :=
  if m = 0 ∨ Nat.gcd a m ≠ 1 then none else some (Nat.gcdA a m % (m : Int)).toNat

/-- `BN_sub`, which may leave a negative number. -/
def BN_sub (a b : Nat) : Int := a - b

/-- The value without the sign, or the largest word if there is no room for it. -/
def BN_get_word (a : Int) : Nat := if a.natAbs < 2 ^ 64 then a.natAbs else 2 ^ 64 - 1

/-- `BN_bn2le_padded`, which fails if the number does not fit. -/
def BN_bn2le_padded (len a : Nat) : Option (List UInt8) := if a < 256 ^ len then some (toLE len a) else none

/-- `BN_mod_sqr`, which fails for the modulus 0. -/
def BN_mod_sqr (a m : Nat) : Option Nat := if m = 0 then none else some (a * a % m)

/-- The two numbers of a public `RSA` key. -/
structure RSA where
  n : Nat
  e : Nat
  deriving DecidableEq, Repr

/-- The size of the modulus in bytes. -/
def RSA_size (key : RSA) : Nat := (Nat.size key.n + 7) / 8

/-! ### The format -/

/-- `RSAPublicKey`, the layout that is stored. -/
structure RSAPublicKey where
  modulus_size_words : UInt32
  n0inv : UInt32
  modulus : List UInt8
  rr : List UInt8
  exponent : UInt32
  deriving DecidableEq, Repr

/-- `sizeof(RSAPublicKey)`. -/
def RSAPublicKey.size : Nat := 524

/-- The bytes of the structure. -/
def RSAPublicKey.bytes (key_struct : RSAPublicKey) : List UInt8 :=
  toLE 4 key_struct.modulus_size_words.toNat ++ toLE 4 key_struct.n0inv.toNat ++ key_struct.modulus ++
    key_struct.rr ++ toLE 4 key_struct.exponent.toNat

/-- The structure that the bytes begin with. -/
def RSAPublicKey.ofBytes (bytes : List UInt8) : RSAPublicKey where
  modulus_size_words := UInt32.ofNat (ofLE (bytes.take 4))
  n0inv := UInt32.ofNat (ofLE ((bytes.drop 4).take 4))
  modulus := (bytes.drop 8).take ANDROID_PUBKEY_MODULUS_SIZE
  rr := (bytes.drop 264).take ANDROID_PUBKEY_MODULUS_SIZE
  exponent := UInt32.ofNat (ofLE ((bytes.drop 520).take 4))

/-- `android_pubkey_decode`: the modulus and the exponent of a stored key. -/
def android_pubkey_decode (key_buffer : List UInt8) : Option RSA :=
  if key_buffer.length < RSAPublicKey.size then none
  else
    let key_struct := RSAPublicKey.ofBytes key_buffer
    if key_struct.modulus_size_words ≠ ANDROID_PUBKEY_MODULUS_SIZE_WORDS then none
    else some ⟨ofLE key_struct.modulus, key_struct.exponent.toNat⟩

/-- `none`: the structure could not be filled. -/
def fillStruct (key : RSA) : Option RSAPublicKey := do
  let r32 := BN_set_bit 0 32
  let n0inv ← BN_mod key.n r32
  let n0inv ← BN_mod_inverse n0inv r32
  let n0inv := BN_sub r32 n0inv
  let modulus ← BN_bn2le_padded ANDROID_PUBKEY_MODULUS_SIZE key.n
  let rr := BN_set_bit 0 (ANDROID_PUBKEY_MODULUS_SIZE * 8)
  let rr ← BN_mod_sqr rr key.n
  let rr ← BN_bn2le_padded ANDROID_PUBKEY_MODULUS_SIZE rr
  return ⟨ANDROID_PUBKEY_MODULUS_SIZE_WORDS, UInt32.ofNat (BN_get_word n0inv), modulus, rr,
    UInt32.ofNat (BN_get_word key.e)⟩

/-- The buffer then, or `none`. -/
def android_pubkey_encode (key : RSA) (key_buffer : List UInt8) : Option (List UInt8) :=
  if key_buffer.length < RSAPublicKey.size ∨ RSA_size key ≠ ANDROID_PUBKEY_MODULUS_SIZE then none
  else (fillStruct key).map fun key_struct => key_struct.bytes ++ key_buffer.drop RSAPublicKey.size

/-! ### Inverses -/

theorem mod_inverse_spec {a m b : Nat} (h : BN_mod_inverse a m = some b) :
    b < m ∧ (a * b : Int) ≡ 1 [ZMOD m] := by
  unfold BN_mod_inverse at h
  split at h
  · cases h
  · rename_i hcoprime
    rw [not_or, not_not] at hcoprime
    obtain ⟨hm, hgcd⟩ := hcoprime
    have hpos : (0 : Int) < m := by exact_mod_cast Nat.pos_of_ne_zero hm
    have hnonneg := Int.emod_nonneg (Nat.gcdA a m) hpos.ne'
    have hlt := Int.emod_lt_of_pos (Nat.gcdA a m) hpos
    obtain rfl := Option.some.inj h
    have hcast : ((Nat.gcdA a m % (m : Int)).toNat : Int) = Nat.gcdA a m % m := Int.toNat_of_nonneg hnonneg
    refine ⟨by omega, ?_⟩
    have hbezout := Nat.gcd_eq_gcd_ab a m
    rw [hgcd] at hbezout
    rw [hcast]
    calc (a * (Nat.gcdA a m % m) : Int) ≡ a * Nat.gcdA a m [ZMOD m] := (Int.mod_modEq _ _).mul_left _
      _ ≡ a * Nat.gcdA a m + m * Nat.gcdB a m [ZMOD m] := by
        rw [Int.modEq_iff_dvd]
        exact ⟨Nat.gcdB a m, by ring⟩
      _ = 1 := by rw [← hbezout]; rfl

theorem exists_mod_inverse {a m : Nat} (hm : m ≠ 0) : (∃ b, BN_mod_inverse a m = some b) ↔ Nat.gcd a m = 1 := by
  unfold BN_mod_inverse
  simp [hm]

@[simp]
theorem set_bit_zero (bit : Nat) : BN_set_bit 0 bit = 2 ^ bit := Nat.zero_or _

/-- What `n0inv` is taken of is prime to the word exactly if it is odd. -/
theorem gcd_word_iff (n : Nat) : Nat.gcd (n % 2 ^ 32) (2 ^ 32) = 1 ↔ n % 2 = 1 := by
  have hgcd : Nat.gcd (n % 2 ^ 32) (2 ^ 32) = Nat.gcd (2 ^ 32) n := (Nat.gcd_rec _ _).symm
  have hpow : Nat.Coprime (2 ^ 32) n ↔ Nat.Coprime 2 n := Nat.coprime_pow_left_iff (by decide) 2 n
  rw [hgcd, ← Nat.coprime_iff_gcd_eq_one, hpow, Nat.prime_two.coprime_iff_not_dvd]
  omega

/-! ### What a structure is filled with -/

theorem bn2le_padded_eq_some {len a : Nat} {bytes : List UInt8} :
    BN_bn2le_padded len a = some bytes ↔ a < 256 ^ len ∧ bytes = toLE len a := by
  unfold BN_bn2le_padded
  split <;> simp_all [eq_comm]

theorem fillStruct_eq_some {key : RSA} {key_struct : RSAPublicKey} :
    fillStruct key = some key_struct ↔ ∃ b, BN_mod_inverse (key.n % 2 ^ 32) (2 ^ 32) = some b ∧
      key.n < 256 ^ ANDROID_PUBKEY_MODULUS_SIZE ∧ key.n ≠ 0 ∧
      key_struct = ⟨ANDROID_PUBKEY_MODULUS_SIZE_WORDS, UInt32.ofNat (BN_get_word (BN_sub (2 ^ 32) b)),
        toLE ANDROID_PUBKEY_MODULUS_SIZE key.n,
        toLE ANDROID_PUBKEY_MODULUS_SIZE
          (2 ^ (ANDROID_PUBKEY_MODULUS_SIZE * 8) * 2 ^ (ANDROID_PUBKEY_MODULUS_SIZE * 8) % key.n),
        UInt32.ofNat (BN_get_word key.e)⟩ := by
  have hword : (2 ^ 32 : Nat) ≠ 0 := by decide
  have hrr : ∀ {r : Nat}, key.n < 256 ^ ANDROID_PUBKEY_MODULUS_SIZE → key.n ≠ 0 →
      r % key.n < 256 ^ ANDROID_PUBKEY_MODULUS_SIZE :=
    fun hn hzero => (Nat.mod_lt _ (Nat.pos_of_ne_zero hzero)).trans hn
  unfold fillStruct
  simp only [set_bit_zero, BN_mod, if_neg hword, BN_mod_sqr, Option.bind_eq_bind, Option.bind_some,
    Option.bind_eq_some_iff, bn2le_padded_eq_some, Option.pure_def]
  constructor
  · rintro ⟨b, hb, modulus, ⟨hn, rfl⟩, r, hr, rr, ⟨-, rfl⟩, hstruct⟩
    split at hr
    · cases hr
    · rename_i hzero
      obtain rfl := Option.some.inj hr
      exact ⟨b, hb, hn, hzero, (Option.some.inj hstruct).symm⟩
  · rintro ⟨b, hb, hn, hzero, rfl⟩
    exact ⟨b, hb, _, ⟨hn, rfl⟩, _, if_neg hzero, _, ⟨hrr hn hzero, rfl⟩, rfl⟩

/-- A modulus of that many bytes is not zero, and has room. -/
theorem modulus_bounds {key : RSA} (hsize : RSA_size key = ANDROID_PUBKEY_MODULUS_SIZE) :
    key.n < 256 ^ ANDROID_PUBKEY_MODULUS_SIZE ∧ key.n ≠ 0 := by
  have hbits : Nat.size key.n ≤ 8 * ANDROID_PUBKEY_MODULUS_SIZE := by
    rw [← hsize, RSA_size]
    unfold RSA_size ANDROID_PUBKEY_MODULUS_SIZE at hsize
    omega
  refine ⟨?_, ?_⟩
  · have hlt := Nat.size_le.mp hbits
    rwa [Nat.pow_mul] at hlt
  · rintro hzero
    rw [RSA_size, hzero] at hsize
    exact absurd hsize (by decide)

/-! ### The fields -/

/-- **`n0inv` is minus the inverse of the modulus**, modulo the word. -/
theorem n0inv_spec {key : RSA} {key_struct : RSAPublicKey} (h : fillStruct key = some key_struct) :
    key.n * key_struct.n0inv.toNat % 2 ^ 32 = 2 ^ 32 - 1 := by
  rw [fillStruct_eq_some] at h
  obtain ⟨b, hb, -, -, rfl⟩ := h
  obtain ⟨hlt, hinverse⟩ := mod_inverse_spec hb
  -- the inverse is not zero, so that the difference is a word
  have hpos : b ≠ 0 := by
    rintro rfl
    rw [Nat.cast_zero, mul_zero] at hinverse
    exact absurd hinverse (by decide)
  have hword : BN_get_word (BN_sub (2 ^ 32) b) = 2 ^ 32 - b := by
    unfold BN_get_word BN_sub
    split <;> omega
  have htoNat : (UInt32.ofNat (BN_get_word (BN_sub (2 ^ 32) b))).toNat = 2 ^ 32 - b := by
    rw [hword, UInt32.toNat_ofNat', Nat.mod_eq_of_lt (by omega)]
  have hmul : key.n * b % 2 ^ 32 = 1 := by
    have hmod : (key.n % 2 ^ 32) * b % 2 ^ 32 = 1 % 2 ^ 32 := by exact_mod_cast hinverse
    rwa [Nat.mod_mul_mod] at hmod
  have hsum : (key.n * (2 ^ 32 - b) + key.n * b) % 2 ^ 32 = 0 := by
    rw [← Nat.mul_add, Nat.sub_add_cancel hlt.le, Nat.mul_mod_left]
  rw [htoNat]
  omega

/-- **`rr` is the square of `R`**, modulo the modulus. -/
theorem rr_spec {key : RSA} {key_struct : RSAPublicKey} (h : fillStruct key = some key_struct) :
    ofLE key_struct.rr = 2 ^ (2 * 8 * ANDROID_PUBKEY_MODULUS_SIZE) % key.n := by
  rw [fillStruct_eq_some] at h
  obtain ⟨b, -, hn, hzero, rfl⟩ := h
  have hlt := Nat.mod_lt (2 ^ (ANDROID_PUBKEY_MODULUS_SIZE * 8) * 2 ^ (ANDROID_PUBKEY_MODULUS_SIZE * 8))
    (Nat.pos_of_ne_zero hzero)
  rw [ofLE_toLE_of_lt (hlt.trans hn), ← Nat.pow_add]
  congr 2

/-- The exponent is cut to a word, once it is one. -/
theorem exponent_spec {key : RSA} {key_struct : RSAPublicKey} (h : fillStruct key = some key_struct) :
    key_struct.exponent.toNat = key.e ↔ key.e < 2 ^ 32 := by
  rw [fillStruct_eq_some] at h
  obtain ⟨b, -, -, -, rfl⟩ := h
  rw [UInt32.toNat_ofNat', BN_get_word, Int.natAbs_natCast]
  split <;> omega

/-! ### Reading back -/

/-- The structure is found again in front of other bytes. -/
theorem ofBytes_append {key_struct : RSAPublicKey} (rest : List UInt8)
    (hmodulus : key_struct.modulus.length = ANDROID_PUBKEY_MODULUS_SIZE)
    (hrr : key_struct.rr.length = ANDROID_PUBKEY_MODULUS_SIZE) :
    RSAPublicKey.ofBytes (key_struct.bytes ++ rest) = key_struct := by
  have hword (w : UInt32) : UInt32.ofNat (ofLE (toLE 4 w.toNat)) = w := by
    rw [ofLE_toLE_of_lt (w.toNat_lt), UInt32.ofNat_toNat]
  obtain ⟨words, n0inv, modulus, rr, exponent⟩ := key_struct
  have hmodulus' : modulus.length = 256 := hmodulus
  have hrr' : rr.length = 256 := hrr
  -- every field is at its place: what is before it is dropped as a whole
  simp [RSAPublicKey.ofBytes, RSAPublicKey.bytes, List.drop_append, List.drop_eq_nil_of_le, hmodulus', hrr',
    hword, ANDROID_PUBKEY_MODULUS_SIZE]

theorem length_bytes {key_struct : RSAPublicKey}
    (hmodulus : key_struct.modulus.length = ANDROID_PUBKEY_MODULUS_SIZE)
    (hrr : key_struct.rr.length = ANDROID_PUBKEY_MODULUS_SIZE) :
    key_struct.bytes.length = RSAPublicKey.size := by
  simp only [RSAPublicKey.bytes, List.length_append, length_toLE, hmodulus, hrr]
  rfl

/-- Decoding gives the modulus, and as much of the exponent as is stored. -/
theorem decode_filled {key : RSA} {key_struct : RSAPublicKey} (h : fillStruct key = some key_struct)
    (rest : List UInt8) :
    android_pubkey_decode (key_struct.bytes ++ rest) = some ⟨key.n, key_struct.exponent.toNat⟩ := by
  rw [fillStruct_eq_some] at h
  obtain ⟨b, -, hn, -, hstruct⟩ := h
  have hmodulus : key_struct.modulus = toLE ANDROID_PUBKEY_MODULUS_SIZE key.n := by rw [hstruct]
  have hlenModulus : key_struct.modulus.length = ANDROID_PUBKEY_MODULUS_SIZE := by rw [hmodulus, length_toLE]
  have hlenRr : key_struct.rr.length = ANDROID_PUBKEY_MODULUS_SIZE := by rw [hstruct, length_toLE]
  have hwords : key_struct.modulus_size_words = ANDROID_PUBKEY_MODULUS_SIZE_WORDS := by rw [hstruct]
  have hroom : ¬ (key_struct.bytes ++ rest).length < RSAPublicKey.size := by
    rw [List.length_append, length_bytes hlenModulus hlenRr]
    omega
  rw [android_pubkey_decode, if_neg hroom, ofBytes_append rest hlenModulus hlenRr]
  rw [if_neg (not_not_intro hwords), hmodulus, ofLE_toLE_of_lt hn]

/-! ### Encoding -/

theorem encode_eq_some {key : RSA} {key_buffer out : List UInt8}
    (h : android_pubkey_encode key key_buffer = some out) :
    ∃ key_struct, fillStruct key = some key_struct ∧ out = key_struct.bytes ++ key_buffer.drop RSAPublicKey.size := by
  unfold android_pubkey_encode at h
  split at h
  · cases h
  · obtain ⟨key_struct, hfill, rfl⟩ := Option.map_eq_some_iff.mp h
    exact ⟨key_struct, hfill, rfl⟩

/-- What is decoded is the key exactly if the exponent fits. -/
theorem decode_encoded_iff {key : RSA} {key_buffer out : List UInt8}
    (h : android_pubkey_encode key key_buffer = some out) :
    android_pubkey_decode out = some key ↔ key.e < 2 ^ 32 := by
  obtain ⟨key_struct, hfill, rfl⟩ := encode_eq_some h
  rw [decode_filled hfill, Option.some.injEq, ← exponent_spec hfill]
  constructor
  · rintro hkey
    rw [← hkey]
  · rintro hexponent
    rw [hexponent]

/-- The keys that the format is for. -/
def RSA.Encodable (key : RSA) : Prop := key.n % 2 = 1 ∧ RSA_size key = ANDROID_PUBKEY_MODULUS_SIZE

/-- Given room, a key can be encoded exactly if its modulus is odd and has the right size. -/
theorem encode_iff {key_buffer : List UInt8} (hroom : RSAPublicKey.size ≤ key_buffer.length) (key : RSA) :
    (∃ out, android_pubkey_encode key key_buffer = some out) ↔
      key.Encodable := by
  have hfill (hsize : RSA_size key = ANDROID_PUBKEY_MODULUS_SIZE) :
      (∃ key_struct, fillStruct key = some key_struct) ↔ key.n % 2 = 1 := by
    rw [← gcd_word_iff, ← exists_mod_inverse (by decide)]
    obtain ⟨hn, hzero⟩ := modulus_bounds hsize
    constructor
    · rintro ⟨key_struct, h⟩
      rw [fillStruct_eq_some] at h
      obtain ⟨b, hb, -⟩ := h
      exact ⟨b, hb⟩
    · rintro ⟨b, hb⟩
      simp only [fillStruct_eq_some]
      exact ⟨_, b, hb, hn, hzero, rfl⟩
  by_cases hsize : RSA_size key = ANDROID_PUBKEY_MODULUS_SIZE
  · have hguard : ¬ (key_buffer.length < RSAPublicKey.size ∨ RSA_size key ≠ ANDROID_PUBKEY_MODULUS_SIZE) := by
      rw [not_or, not_not]
      exact ⟨by omega, hsize⟩
    rw [RSA.Encodable, and_iff_left hsize, ← hfill hsize]
    simp only [android_pubkey_encode, if_neg hguard, Option.map_eq_some_iff]
    constructor
    · rintro ⟨out, key_struct, h, -⟩
      exact ⟨key_struct, h⟩
    · rintro ⟨key_struct, h⟩
      exact ⟨_, key_struct, h, rfl⟩
  · simp [android_pubkey_encode, RSA.Encodable, hsize]

/-- What an encoded key should be: the numbers for Montgomery's multiplication, and the key
itself once it is decoded. -/
structure Encodes (out : List UInt8) (key : RSA) : Prop where
  n0inv : key.n * (RSAPublicKey.ofBytes out).n0inv.toNat % 2 ^ 32 = 2 ^ 32 - 1
  rr : ofLE (RSAPublicKey.ofBytes out).rr = 2 ^ (2 * 8 * ANDROID_PUBKEY_MODULUS_SIZE) % key.n
  decode : android_pubkey_decode out = some key

/-- A key of the right size is encoded, and what is encoded is right. -/
def EncodedRight (key : RSA) (key_buffer : List UInt8) : Prop :=
  (key.Encodable → ∃ out, android_pubkey_encode key key_buffer = some out) ∧
    ∀ out, android_pubkey_encode key key_buffer = some out → Encodes out key

theorem encodes_iff {key : RSA} {key_buffer out : List UInt8} (h : android_pubkey_encode key key_buffer = some out) :
    Encodes out key ↔ key.e < 2 ^ 32 := by
  rw [← decode_encoded_iff h]
  constructor
  · exact Encodes.decode
  · intro hdecode
    obtain ⟨key_struct, hfill, rfl⟩ := encode_eq_some h
    obtain ⟨b, -, -, -, hstruct⟩ := fillStruct_eq_some.mp hfill
    have hfields : RSAPublicKey.ofBytes (key_struct.bytes ++ key_buffer.drop RSAPublicKey.size) = key_struct :=
      ofBytes_append _ (by rw [hstruct, length_toLE]) (by rw [hstruct, length_toLE])
    refine ⟨?_, ?_, hdecode⟩
    · rw [hfields]
      exact n0inv_spec hfill
    · rw [hfields]
      exact rr_spec hfill

/-- **A key is encoded right exactly if its exponent fits**, when it is encoded at all. -/
theorem encodedRight_iff (key : RSA) {key_buffer : List UInt8} (hroom : RSAPublicKey.size ≤ key_buffer.length) :
    EncodedRight key key_buffer ↔ (key.Encodable → key.e < 2 ^ 32) := by
  rw [EncodedRight, ← encode_iff hroom, and_iff_right id]
  constructor
  · rintro hright ⟨out, h⟩
    exact (encodes_iff h).mp (hright out h)
  · intro hfits out h
    exact (encodes_iff h).mpr (hfits ⟨out, h⟩)

/-- The size of the smallest odd number with its highest bit at `k`. -/
theorem size_two_pow_add_one {k : Nat} (hk : k ≠ 0) : Nat.size (2 ^ k + 1) = k + 1 := by
  have hpow : 2 ^ 1 ≤ 2 ^ k := Nat.pow_le_pow_right (by decide) (Nat.pos_of_ne_zero hk)
  refine le_antisymm (Nat.size_le.mpr ?_) (Nat.lt_size.mpr ?_)
  · rw [Nat.pow_succ]
    omega
  · omega

theorem two_pow_add_one_odd {k : Nat} (hk : k ≠ 0) : (2 ^ k + 1) % 2 = 1 := by
  obtain ⟨j, rfl⟩ := Nat.exists_eq_succ_of_ne_zero hk
  rw [Nat.pow_succ]
  omega

/-- The smallest modulus of the right size. -/
def smallestModulus : Nat := 2 ^ (8 * ANDROID_PUBKEY_MODULUS_SIZE - 1) + 1

theorem smallestModulus_encodable (e : Nat) : RSA.Encodable ⟨smallestModulus, e⟩ := by
  refine ⟨two_pow_add_one_odd (by decide), ?_⟩
  · rw [RSA_size, smallestModulus, size_two_pow_add_one (by decide)]
    rfl

/-- With the usual exponent. -/
theorem usual_key_encoded :
    EncodedRight ⟨smallestModulus, 65537⟩ (List.replicate 524 0) :=
  (encodedRight_iff _ List.length_replicate.ge).mpr fun _ => by decide

/-- An exponent of 33 bits is decoded as another one. -/
theorem wide_exponent_lost : ¬ EncodedRight ⟨smallestModulus, 2 ^ 32 + 1⟩ (List.replicate 524 0) := by
  intro hright
  obtain ⟨out, h⟩ := (encode_iff List.length_replicate.ge _).mpr (smallestModulus_encodable (2 ^ 32 + 1))
  have hfits := (encodes_iff h).mp (hright.2 out h)
  exact absurd hfits (by decide)

end Goldfish.Adb
