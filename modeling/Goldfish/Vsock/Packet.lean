import Mathlib.Data.List.Basic
import Mathlib.Data.Nat.Bitwise
import Mathlib.Tactic.IntervalCases
import Goldfish.Lib.StdSet

/-!
# Goldfish.Vsock.Packet

The words two sides of the vsock device exchange: the **packet header** of the
virtio-vsock wire format, the **operations** it names, and the packed **send
result** (`vsock_low_level.h`) with which the virtqueue side answers the device.

The send result keeps two flags in its low bits and the number of payload bytes
above them, in one 32-bit word. Thirty bits remain for the size
(`virtIOVSockSentSize_make`), two fewer than the `len` field of a header has.
-/

namespace Goldfish.Vsock

/-! ### Operations -/

/-- `enum virtio_vsock_op`. -/
inductive VirtioVsockOp
  | invalid
  | request
  | response
  | rst
  | shutdown
  | rw
  | creditUpdate
  | creditRequest
  deriving DecidableEq, Repr

namespace VirtioVsockOp

/-- The value of an operation on the wire, and its bit in `sendOpMask`. -/
def code : VirtioVsockOp → UInt16
  | invalid => 0
  | request => 1
  | response => 2
  | rst => 3
  | shutdown => 4
  | rw => 5
  | creditUpdate => 6
  | creditRequest => 7

/-- The bit `1U << op` of an operation. -/
def bit (op : VirtioVsockOp) : UInt8 := 1 <<< op.code.toUInt8

/-- Masks distribute over joined bits. -/
theorem or_and_mask (a b mask : UInt8) : (a ||| b) &&& mask = a &&& mask ||| b &&& mask := by
  simp only [← UInt8.toBitVec_inj, UInt8.toBitVec_and, UInt8.toBitVec_or,
    BitVec.and_or_distrib_right]

/-- The operation a header names; `none` for a code the protocol does not define. -/
def ofCode (c : UInt16) : Option VirtioVsockOp :=
  [invalid, request, response, rst, shutdown, rw, creditUpdate, creditRequest].find? (·.code = c)

theorem ofCode_eq_some {c : UInt16} {op : VirtioVsockOp} (h : ofCode c = some op) :
    c = op.code := by
  have := List.find?_some h
  exact (of_decide_eq_true this).symm

end VirtioVsockOp

/-! ### The packet header -/

/-- `struct virtio_vsock_hdr`. -/
structure VirtioVsockHdr where
  srcCid : UInt64 := 0
  dstCid : UInt64 := 0
  srcPort : UInt32
  dstPort : UInt32
  len : UInt32
  type : UInt16 := 0
  op : UInt16
  flags : UInt32 := 0
  bufAlloc : UInt32
  fwdCnt : UInt32
  deriving DecidableEq, Repr

/-- `sizeof(struct virtio_vsock_hdr)`; the struct is packed. -/
def hdrSize : Nat := 44

/-- `kHostBufAllocSize`, the receive buffer the host claims to have. -/
def kHostBufAllocSize : UInt32 := 64 * 1024

/-- `preparePacketHeaderLocked`: a header from the host. The remaining fields are
filled in by the virtqueue side. -/
def preparePacketHeader (srcPort dstPort : UInt32) (op : VirtioVsockOp)
    (hostFwdCnt len : UInt32) : VirtioVsockHdr :=
  { srcPort, dstPort, len, op := op.code, bufAlloc := kHostBufAllocSize, fwdCnt := hostFwdCnt }

/-- `VsockStreamKey`: the port pair that identifies a stream. -/
structure VsockStreamKey where
  guestPort : UInt32
  hostPort : UInt32
  deriving DecidableEq, Repr

/-- `VsockStreamComparer`: lexicographic, the guest port first. -/
def VsockStreamKey.lt (a b : VsockStreamKey) : Prop :=
  a.guestPort < b.guestPort ∨ (a.guestPort = b.guestPort ∧ a.hostPort < b.hostPort)

instance : DecidableRel VsockStreamKey.lt := fun a b =>
  inferInstanceAs (Decidable (a.guestPort < b.guestPort ∨
    (a.guestPort = b.guestPort ∧ a.hostPort < b.hostPort)))

instance : IsStrictTotalOrder VsockStreamKey VsockStreamKey.lt where
  irrefl a h := by
    rcases h with h | ⟨-, h⟩ <;> exact absurd h (UInt32.lt_irrefl _)
  trans a b c hab hbc := by
    unfold VsockStreamKey.lt at *
    rcases hab with hab | ⟨hab, hab'⟩ <;> rcases hbc with hbc | ⟨hbc, hbc'⟩
    · exact Or.inl (UInt32.lt_trans hab hbc)
    · exact Or.inl (hbc ▸ hab)
    · exact Or.inl (hab ▸ hbc)
    · exact Or.inr ⟨hab.trans hbc, UInt32.lt_trans hab' hbc'⟩
  trichotomous a b hab hba := by
    obtain ⟨ag, ah⟩ := a
    obtain ⟨bg, bh⟩ := b
    simp only [VsockStreamKey.lt, not_or, not_and] at hab hba
    obtain rfl : ag = bg := UInt32.le_antisymm (UInt32.not_lt.mp hba.1) (UInt32.not_lt.mp hab.1)
    obtain rfl : ah = bh :=
      UInt32.le_antisymm (UInt32.not_lt.mp (hba.2 rfl)) (UInt32.not_lt.mp (hab.2 rfl))
    rfl

instance uint32GtStrictTotalOrder : IsStrictTotalOrder UInt32 (· > ·) where
  irrefl a := UInt32.lt_irrefl a
  trans _ _ _ hab hbc := UInt32.lt_trans hbc hab
  trichotomous _ _ hab hba :=
    UInt32.le_antisymm (UInt32.not_lt.mp hab) (UInt32.not_lt.mp hba)

/-! ### The packed send result -/

/-- `VirtIOVSockSendResult`, an `unsigned`. -/
abbrev VirtIOVSockSendResult := UInt32

/-- `VirtIOVSockSendNeedNotify`. -/
def virtIOVSockSendNeedNotify (r : VirtIOVSockSendResult) : Bool := r &&& 1 ≠ 0

/-- `VirtIOVSockSendIsVqFull`. -/
def virtIOVSockSendIsVqFull (r : VirtIOVSockSendResult) : Bool := r &&& 2 ≠ 0

/-- `VirtIOVSockSentSize`. -/
def virtIOVSockSentSize (r : VirtIOVSockSendResult) : Nat := (r >>> 2).toNat

/-- `MakeVirtIOVSockSendResult`. The size is shifted as a `size_t` and the result
cut to `unsigned` when it is returned. -/
def makeVirtIOVSockSendResult (vqFull needNotify : Bool) (size : Nat) : VirtIOVSockSendResult :=
  UInt32.ofNat (needNotify.toNat ||| vqFull.toNat <<< 1 ||| size <<< 2)

/-- The packed word as a number: the flags do not overlap the size. -/
theorem makeVirtIOVSockSendResult_toNat (vqFull needNotify : Bool) (size : Nat) :
    (makeVirtIOVSockSendResult vqFull needNotify size).toNat =
      (4 * size + (2 * vqFull.toNat + needNotify.toNat)) % 2 ^ 32 := by
  have hflags : needNotify.toNat ||| vqFull.toNat <<< 1 = 2 * vqFull.toNat + needNotify.toNat := by
    cases vqFull <;> cases needNotify <;> rfl
  have hlt : 2 * vqFull.toNat + needNotify.toNat < 2 ^ 2 := by
    cases vqFull <;> cases needNotify <;> decide
  unfold makeVirtIOVSockSendResult
  rw [UInt32.toNat_ofNat', hflags, Nat.or_comm, ← Nat.shiftLeft_add_eq_or_of_lt hlt,
    Nat.shiftLeft_eq]
  congr 1
  omega

@[simp] theorem virtIOVSockSendNeedNotify_make (vqFull needNotify : Bool) (size : Nat) :
    virtIOVSockSendNeedNotify (makeVirtIOVSockSendResult vqFull needNotify size) = needNotify := by
  have hbit : (makeVirtIOVSockSendResult vqFull needNotify size &&& 1).toNat =
      needNotify.toNat := by
    rw [UInt32.toNat_and, makeVirtIOVSockSendResult_toNat]
    show _ &&& 1 = _
    rw [Nat.and_one_is_mod]
    cases needNotify <;> simp <;> omega
  unfold virtIOVSockSendNeedNotify
  cases needNotify with
  | false =>
      have : makeVirtIOVSockSendResult vqFull false size &&& 1 = 0 := UInt32.toNat_inj.mp hbit
      simp [this]
  | true =>
      have : makeVirtIOVSockSendResult vqFull true size &&& 1 = 1 := UInt32.toNat_inj.mp hbit
      simp [this]

@[simp] theorem virtIOVSockSendIsVqFull_make (vqFull needNotify : Bool) (size : Nat) :
    virtIOVSockSendIsVqFull (makeVirtIOVSockSendResult vqFull needNotify size) = vqFull := by
  have hbit : (makeVirtIOVSockSendResult vqFull needNotify size &&& 2).toNat =
      2 * vqFull.toNat := by
    rw [UInt32.toNat_and, makeVirtIOVSockSendResult_toNat]
    show _ &&& 2 ^ 1 = _
    rw [Nat.and_two_pow, Nat.testBit_eq_decide_div_mod_eq]
    cases vqFull <;> cases needNotify <;> simp <;> omega
  unfold virtIOVSockSendIsVqFull
  cases vqFull with
  | false =>
      have : makeVirtIOVSockSendResult false needNotify size &&& 2 = 0 := UInt32.toNat_inj.mp hbit
      simp [this]
  | true =>
      have : makeVirtIOVSockSendResult true needNotify size &&& 2 = 2 := UInt32.toNat_inj.mp hbit
      simp [this]

/-- Only thirty bits of the size survive the packing. -/
@[simp] theorem virtIOVSockSentSize_make (vqFull needNotify : Bool) (size : Nat) :
    virtIOVSockSentSize (makeVirtIOVSockSendResult vqFull needNotify size) = size % 2 ^ 30 := by
  unfold virtIOVSockSentSize
  rw [UInt32.toNat_shiftRight, makeVirtIOVSockSendResult_toNat]
  show _ >>> 2 = _
  rw [Nat.shiftRight_eq_div_pow]
  cases vqFull <;> cases needNotify <;> simp <;> omega

end Goldfish.Vsock
