import Goldfish.Archive.Codec

/-!
# Goldfish.Devices.Qemud

The **qemud packets** (`qemud.h`, `qemud.cpp`): four bytes of size, as hex digits or as
a 31 bit number, and then the payload. `sendAsync` writes a packet to a socket, a
`Parser` takes the bytes of a stream as they arrive and calls its `Sink` with the payload
of every packet that is complete.

The sink is a `std::function`, so it may keep a state of its own and answer as it likes:
it is a function on a state type `σ`. Its calls are logged together with what it
returned. This module has the model and the size header: a header is read back as the size
it was written for, if that is below 2^31 (`decodeRequestSize_encode`).
-/

namespace Goldfish.Devices.Qemud

/-- Bytes in memory, on a socket or in a buffer. -/
abbrev Bytes := List UInt8

/-! ### The size header -/

/-- `kSizeSize`. -/
def kSizeSize : Nat := 4

/-- `parseHex1`: a character that is no hex digit counts as zero. -/
def parseHex1 (c : UInt8) : Nat :=
  if 0x30 ≤ c ∧ c ≤ 0x39 then (c - 0x30).toNat
  else if 0x41 ≤ c ∧ c ≤ 0x46 then (c - 0x41).toNat + 10
  else if 0x61 ≤ c ∧ c ≤ 0x66 then (c - 0x61).toNat + 10
  else 0

/-- `dict`: the characters of `0123456789ABCDEF`. -/
def dict : List UInt8 :=
  [0x30, 0x31, 0x32, 0x33, 0x34, 0x35, 0x36, 0x37, 0x38, 0x39, 0x41, 0x42, 0x43, 0x44, 0x45, 0x46]

/-- `encodeRequestSize`. -/
def encodeRequestSize (size : UInt32) : Bytes :=
  if size ≤ 0xFFFF then
    [dict.getD (size >>> 12).toNat 0, dict.getD ((size >>> 8) &&& 0xF).toNat 0,
      dict.getD ((size >>> 4) &&& 0xF).toNat 0, dict.getD (size &&& 0xF).toNat 0]
  else
    [(0x80 : UInt8) ||| (size >>> 24).toUInt8, (size >>> 16).toUInt8, (size >>> 8).toUInt8, size.toUInt8]

/-- `decodeRequestSize`, which reads the first four bytes behind the pointer. -/
def decodeRequestSize (data8 : Bytes) : Nat :=
  let at8 (i : Nat) : UInt8 := data8.getD i 0
  if at8 0 &&& 0x80 ≠ 0 then
    (at8 0 &&& 0x7F).toNat <<< 24 ||| (at8 1).toNat <<< 16 ||| (at8 2).toNat <<< 8 ||| (at8 3).toNat
  else
    parseHex1 (at8 0) <<< 12 ||| parseHex1 (at8 1) <<< 8 ||| parseHex1 (at8 2) <<< 4 |||
      parseHex1 (at8 3)

/-- `sendAsync`: what the socket is given, call by call. The size of the payload is
narrowed to 32 bits for the header. -/
def sendAsync (data : Bytes) : List Bytes :=
  [encodeRequestSize (UInt32.ofNat data.length), data]

/-! ### The parser -/

/-- A call of the sink: the payload it got and what it returned. -/
structure SinkCall where
  payload : Bytes
  returned : Bool
deriving DecidableEq, Repr

/-- `Parser::Sink`, with the state it captured. -/
abbrev Sink (σ : Type) := σ → Bytes → Bool × σ

/-- A `Parser`: the state of its sink, and `mBuffer`. -/
structure Parser (σ : Type) where
  mSink : σ
  mBuffer : Bytes
deriving DecidableEq, Repr

/-- What a call of `onReceive` has done so far: its `result` and the calls of the sink. -/
structure Outcome where
  result : Bool
  calls : List SinkCall
deriving DecidableEq, Repr

/-- The state inside `onReceive`. -/
structure Loop (σ : Type) where
  parser : Parser σ
  out : Outcome

variable {σ : Type}

/-- `if (!mSink(data, size)) result = false;` -/
def Loop.callSink (sink : Sink σ) (payload : Bytes) (l : Loop σ) : Loop σ :=
  let (returned, s) := sink l.parser.mSink payload
  { parser := { l.parser with mSink := s }
    out :=
      { result := if !returned then false else l.out.result
        calls := l.out.calls ++ [{ payload, returned }] } }

/-- Write to `mBuffer`. -/
def Loop.setBuffer (buffer : Bytes) (l : Loop σ) : Loop σ :=
  { l with parser := { l.parser with mBuffer := buffer } }

/-- The inner loop of `onReceive`: packets that are whole in the data are passed to the
sink from where they are. The result is the data behind them. -/
def wholePackets (sink : Sink σ) (data8 : Bytes) (l : Loop σ) : Bytes × Loop σ :=
  if kSizeSize ≤ data8.length then
    let requestSize := decodeRequestSize data8
    if kSizeSize + requestSize ≤ data8.length then
      wholePackets sink (data8.drop (kSizeSize + requestSize))
        (l.callSink sink ((data8.drop kSizeSize).take requestSize))
    else (data8, l)
  else (data8, l)
termination_by data8.length
decreasing_by
  rw [List.length_drop]
  have : 0 < kSizeSize := by decide
  omega

/-- `a - b` on `size_t`. -/
def sizeSub (a b : Nat) : Nat := (a + (2 ^ 64 - b % 2 ^ 64)) % 2 ^ 64

theorem sizeSub_of_le {a b : Nat} (hb : b ≤ a) (ha : a < 2 ^ 64) : sizeSub a b = a - b := by
  unfold sizeSub
  omega

/-- A difference of zero means equal numbers, so that the loop below does not spin. -/
theorem mod_eq_of_sizeSub_eq_zero {a b : Nat} (h : sizeSub a b = 0) : b % 2 ^ 64 = a % 2 ^ 64 := by
  unfold sizeSub at h
  omega

@[simp] theorem Loop.setBuffer_mBuffer (l : Loop σ) (b : Bytes) :
    (l.setBuffer b).parser.mBuffer = b := rfl

@[simp] theorem Loop.setBuffer_mSink (l : Loop σ) (b : Bytes) :
    (l.setBuffer b).parser.mSink = l.parser.mSink := rfl

@[simp] theorem Loop.setBuffer_out (l : Loop σ) (b : Bytes) : (l.setBuffer b).out = l.out := rfl

/-- The loop of `onReceive`, with the four states of the buffer: empty, a part of the
header, the header, and the header with a part of the payload. -/
def receiveLoop (sink : Sink σ) (data8 : Bytes) (l : Loop σ) : Loop σ :=
  if data8.length = 0 then l
  else
    let bufSize := l.parser.mBuffer.length
    if bufSize = 0 then
      let (unconsumed, l') := wholePackets sink data8 l
      l'.setBuffer unconsumed
    else if bufSize < kSizeSize then
      let consume := min (kSizeSize - bufSize) data8.length
      receiveLoop sink (data8.drop consume) (l.setBuffer (l.parser.mBuffer ++ data8.take consume))
    else if bufSize = kSizeSize then
      let requestSize := decodeRequestSize l.parser.mBuffer
      if requestSize ≤ data8.length then
        receiveLoop sink (data8.drop requestSize)
          ((l.callSink sink (data8.take requestSize)).setBuffer [])
      else
        let consume := min requestSize data8.length
        receiveLoop sink (data8.drop consume) (l.setBuffer (l.parser.mBuffer ++ data8.take consume))
    else
      let requestSize := decodeRequestSize l.parser.mBuffer
      let consume := min (sizeSub (kSizeSize + requestSize) bufSize) data8.length
      let buffer := l.parser.mBuffer ++ data8.take consume
      if (bufSize + consume) % 2 ^ 64 = (kSizeSize + requestSize) % 2 ^ 64 then
        receiveLoop sink (data8.drop consume)
          (((l.setBuffer buffer).callSink sink ((buffer.drop kSizeSize).take requestSize)).setBuffer [])
      else
        receiveLoop sink (data8.drop consume) (l.setBuffer buffer)
termination_by (data8.length, l.parser.mBuffer.length)
decreasing_by
  all_goals
    have hdata : data8.length ≠ 0 := by assumption
    simp only [Loop.setBuffer_mBuffer, List.length_drop, List.length_nil]
  -- a part of the header arrives
  · exact Prod.Lex.left _ _ (by omega)
  -- the payload follows a buffered header
  · rcases Nat.eq_zero_or_pos (decodeRequestSize l.parser.mBuffer) with hzero | hpos
    · rw [hzero, Nat.sub_zero]
      exact Prod.Lex.right _ (by omega)
    · exact Prod.Lex.left _ _ (by omega)
  · exact Prod.Lex.left _ _ (by omega)
  -- the last part of the payload arrives
  · show Prod.Lex _ _ (data8.length - consume, 0) _
    rcases Nat.eq_zero_or_pos consume with hzero | hpos
    · rw [hzero, Nat.sub_zero]
      exact Prod.Lex.right _ (by omega)
    · exact Prod.Lex.left _ _ (by omega)
  -- a part of the payload arrives
  · show Prod.Lex _ _ (data8.length - consume, _) _
    rename_i hne
    rcases Nat.eq_zero_or_pos consume with hzero | hpos
    · have hsub : sizeSub (kSizeSize + requestSize) bufSize = 0 := by omega
      rw [hzero, Nat.add_zero] at hne
      exact absurd (mod_eq_of_sizeSub_eq_zero hsub) hne
    · exact Prod.Lex.left _ _ (by omega)

/-- `Parser::onReceive`. -/
def onReceive (sink : Sink σ) (p : Parser σ) (data : Bytes) : Outcome × Parser σ :=
  let l := receiveLoop sink data { parser := p, out := { result := true, calls := [] } }
  (l.out, l.parser)

/-- Successive `onReceive` calls, one for each chunk of a stream. -/
def feed (sink : Sink σ) (p : Parser σ) : List Bytes → List Outcome × Parser σ
  | [] => ([], p)
  | chunk :: chunks =>
      let (out, p) := onReceive sink p chunk
      let (outs, p) := feed sink p chunks
      (out :: outs, p)

/-- A fresh parser. -/
def Parser.init (s : σ) : Parser σ := { mSink := s, mBuffer := [] }

/-! ### The header, written and read -/

/-- Four digits of `k` bits each, put together with shifts. -/
theorem or_digits (a : Nat) {b c d : Nat} (k : Nat) (hb : b < 2 ^ k) (hc : c < 2 ^ k) (hd : d < 2 ^ k) :
    a <<< (3 * k) ||| b <<< (2 * k) ||| c <<< k ||| d =
      ((a * 2 ^ k + b) * 2 ^ k + c) * 2 ^ k + d := by
  have hab : a <<< (3 * k) ||| b <<< (2 * k) = (a <<< k + b) <<< (2 * k) := by
    rw [Nat.shiftLeft_add_eq_or_of_lt hb, Nat.shiftLeft_or_distrib, ← Nat.shiftLeft_add]
    congr 2
    omega
  have habc : (a <<< k + b) <<< (2 * k) ||| c <<< k = ((a <<< k + b) <<< k + c) <<< k := by
    rw [Nat.shiftLeft_add_eq_or_of_lt hc, Nat.shiftLeft_or_distrib, ← Nat.shiftLeft_add]
    congr 2
    omega
  rw [hab, habc, ← Nat.shiftLeft_add_eq_or_of_lt hd]
  simp only [Nat.shiftLeft_eq]

theorem sub_toNat_le {lo c hi : UInt8} (h : lo ≤ c ∧ c ≤ hi) :
    (c - lo).toNat ≤ hi.toNat - lo.toNat := by
  have hlo := UInt8.le_iff_toNat_le.mp h.1
  have hhi := UInt8.le_iff_toNat_le.mp h.2
  rw [UInt8.toNat_sub_of_le _ _ h.1]
  omega

theorem parseHex1_lt (c : UInt8) : parseHex1 c < 2 ^ 4 := by
  unfold parseHex1
  split_ifs with h1 h2 h3
  · exact Nat.lt_of_le_of_lt (sub_toNat_le h1) (by decide)
  · exact Nat.lt_of_le_of_lt (Nat.add_le_add_right (sub_toNat_le h2) 10) (by decide)
  · exact Nat.lt_of_le_of_lt (Nat.add_le_add_right (sub_toNat_le h3) 10) (by decide)
  · decide

/-- The size in a header has at most 31 bits, whatever the bytes. -/
theorem decodeRequestSize_lt (data8 : Bytes) : decodeRequestSize data8 < 2 ^ 31 := by
  simp only [decodeRequestSize]
  split_ifs
  · rw [or_digits _ 8 (UInt8.toNat_lt _) (UInt8.toNat_lt _) (UInt8.toNat_lt _)]
    have h0 : (data8.getD 0 0 &&& 0x7F).toNat < 128 := by
      rw [UInt8.toNat_and]
      exact Nat.lt_of_le_of_lt Nat.and_le_right (by decide)
    have h1 := UInt8.toNat_lt (data8.getD 1 0)
    have h2 := UInt8.toNat_lt (data8.getD 2 0)
    have h3 := UInt8.toNat_lt (data8.getD 3 0)
    omega
  · rw [or_digits _ 4 (parseHex1_lt _) (parseHex1_lt _) (parseHex1_lt _)]
    have h0 := parseHex1_lt (data8.getD 0 0)
    have h1 := parseHex1_lt (data8.getD 1 0)
    have h2 := parseHex1_lt (data8.getD 2 0)
    have h3 := parseHex1_lt (data8.getD 3 0)
    omega

/-- Only the first four bytes count. -/
theorem decodeRequestSize_append {data8 : Bytes} (h : kSizeSize ≤ data8.length) (more : Bytes) :
    decodeRequestSize (data8 ++ more) = decodeRequestSize data8 := by
  have hget (i : Nat) (hi : i < kSizeSize) : (data8 ++ more).getD i 0 = data8.getD i 0 :=
    List.getD_append data8 more 0 i (Nat.lt_of_lt_of_le hi h)
  simp only [decodeRequestSize, hget 0 (by decide), hget 1 (by decide), hget 2 (by decide),
    hget 3 (by decide)]

/-- A character of the dictionary is read as its index, and not as a binary header. -/
theorem parseHex1_dict :
    ∀ d : Fin 16, parseHex1 (dict.getD d 0) = d ∧ dict.getD d.val 0 &&& 0x80 = 0 := by
  decide

theorem toNat_shiftRight (size : UInt32) (k : Fin 32) :
    (size >>> UInt32.ofNat k).toNat = size.toNat / 2 ^ k.val := by
  have hk : (UInt32.ofNat k).toNat % 32 = k := by
    rw [UInt32.toNat_ofNat']
    omega
  rw [UInt32.toNat_shiftRight, hk, Nat.shiftRight_eq_div_pow]

theorem toNat_and_hex (size : UInt32) : (size &&& 0xF).toNat = size.toNat % 16 := by
  rw [UInt32.toNat_and]
  exact Nat.and_two_pow_sub_one_eq_mod size.toNat 4

theorem or_and_top (b : UInt8) : ((0x80 : UInt8) ||| b) &&& 0x80 ≠ 0 := by
  have habsorb : ((0x80 : UInt8) ||| b) &&& 0x80 = 0x80 := by
    rw [← UInt8.toNat_inj, UInt8.toNat_and, UInt8.toNat_or]
    refine Nat.eq_of_testBit_eq fun i => ?_
    rw [Nat.testBit_and, Nat.testBit_or]
    cases Nat.testBit (0x80 : UInt8).toNat i <;> simp
  rw [habsorb]
  decide

/-- A size of at most 16 bits is written in hex digits. -/
theorem decodeRequestSize_hex {size : UInt32} (h : size ≤ 0xFFFF) (more : Bytes) :
    decodeRequestSize (encodeRequestSize size ++ more) = size.toNat := by
  have hlt : size.toNat ≤ 65535 := UInt32.le_iff_toNat_le.mp h
  have e0 : (size >>> 12).toNat = size.toNat / 4096 := toNat_shiftRight size 12
  have e1 : ((size >>> 8) &&& 0xF).toNat = size.toNat / 256 % 16 := by
    rw [toNat_and_hex]
    exact congrArg (· % 16) (toNat_shiftRight size 8)
  have e2 : ((size >>> 4) &&& 0xF).toNat = size.toNat / 16 % 16 := by
    rw [toNat_and_hex]
    exact congrArg (· % 16) (toNat_shiftRight size 4)
  have d0 := parseHex1_dict ⟨size.toNat / 4096, by omega⟩
  have d1 := parseHex1_dict ⟨size.toNat / 256 % 16, by omega⟩
  have d2 := parseHex1_dict ⟨size.toNat / 16 % 16, by omega⟩
  have d3 := parseHex1_dict ⟨size.toNat % 16, by omega⟩
  simp only [decodeRequestSize, encodeRequestSize, if_pos h, List.cons_append, List.nil_append,
    List.getD_cons_zero, List.getD_cons_succ, e0, e1, e2, toNat_and_hex, d0, d1, d2, d3, ne_eq,
    not_true_eq_false, if_false]
  rw [or_digits _ 4 (by omega) (by omega) (by omega)]
  omega

/-- A longer one in four bytes, with the top bit of the first one set. -/
theorem decodeRequestSize_binary {size : UInt32} (h : ¬ size ≤ 0xFFFF) (hsize : size.toNat < 2 ^ 31)
    (more : Bytes) : decodeRequestSize (encodeRequestSize size ++ more) = size.toNat := by
  have e0 : (size >>> 24).toUInt8.toNat = size.toNat / 2 ^ 24 := by
    rw [UInt32.toNat_toUInt8, show (size >>> 24).toNat = _ from toNat_shiftRight size 24]
    show size.toNat / 2 ^ 24 % 2 ^ 8 = _
    omega
  have e1 : (size >>> 16).toUInt8.toNat = size.toNat / 2 ^ 16 % 2 ^ 8 := by
    rw [UInt32.toNat_toUInt8]
    exact congrArg (· % 2 ^ 8) (toNat_shiftRight size 16)
  have e2 : (size >>> 8).toUInt8.toNat = size.toNat / 2 ^ 8 % 2 ^ 8 := by
    rw [UInt32.toNat_toUInt8]
    exact congrArg (· % 2 ^ 8) (toNat_shiftRight size 8)
  have hlow : (size >>> 24).toUInt8.toNat < 128 := by omega
  have hpayload := (Archive.payload_low7 hlow).2
  rw [UInt8.or_comm] at hpayload
  simp only [decodeRequestSize, encodeRequestSize, if_neg h, List.cons_append, List.nil_append,
    List.getD_cons_zero, List.getD_cons_succ, or_and_top, ne_eq, not_false_eq_true, if_true, hpayload,
    e0, e1, e2, UInt32.toNat_toUInt8]
  rw [or_digits _ 8 (by omega) (by omega) (by omega)]
  omega

/-- **A header is read as the size it was written for.** -/
theorem decodeRequestSize_encode {size : UInt32} (hsize : size.toNat < 2 ^ 31) (more : Bytes) :
    decodeRequestSize (encodeRequestSize size ++ more) = size.toNat := by
  by_cases h : size ≤ 0xFFFF
  · exact decodeRequestSize_hex h more
  · exact decodeRequestSize_binary h hsize more

theorem encodeRequestSize_length (size : UInt32) : (encodeRequestSize size).length = kSizeSize := by
  unfold encodeRequestSize
  split_ifs <;> rfl

end Goldfish.Devices.Qemud
