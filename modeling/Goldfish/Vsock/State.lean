import Mathlib.Data.Finset.Basic
import Goldfish.Lib.Trace
import Goldfish.Vsock.Packet

/-!
# Goldfish.Vsock.State

The **data model** of `GoldfishVirtioVsockDevice` (`vsock.cpp`): the allocator of
dynamic host ports, the lazily consumed send buffer, the streams, and the device
with the environment it talks to.

Three things of the C++ program are made explicit here.

* *Object identity.* A plug holds a `SocketPtr`, the address of a `VsockStream`.
  Addresses are the `Ref`s of the model, handed out by `World.nextRef` and never
  reused; following one whose stream is gone is the fault `dangling`.
* *Assertions.* A failed `assert` or `NOT_NULL` stops the program; it is an error
  of the model (`Fault`).
* *History.* `World.log` records, oldest first, what the device did: the streams it
  created and destroyed, the callbacks it made, the packets it queued and every
  call of `sendPacketHostToGuest` with its arguments. The device never reads it.
-/

namespace Goldfish.Vsock

open Goldfish.Lib

/-- The ways in which the program stops. -/
inductive Fault
  /-- `assert(id < mLastId)` in `UniqueIdAllocator::put`. -/
  | assertId
  /-- `assert(inserted)` in `connect`. -/
  | assertInserted
  /-- `assert(mConsumed <= mBuf.size())` in `peek`, or its counterpart in `consume`. -/
  | assertConsumed
  /-- `assert(!(status & VIRTIO_CONFIG_S_FAILED))` in `setStatus`. -/
  | assertStatus
  /-- `assert(!stream.dataSniffer)` in `saveToSnapshot`. -/
  | assertSniffer
  /-- `NOT_NULL(stream.plug)`. -/
  | nullPlug
  /-- A `VsockStream*` whose stream was destroyed is followed. -/
  | dangling
  /-- The send loop goes round without sending anything on a queue that is not full. -/
  | spin
  deriving DecidableEq, Repr

/-! ### `UniqueIdAllocator` -/

/-- `kDynamicPortsStart`. -/
def kDynamicPortsStart : UInt32 := 2147483648

/-- `UniqueIdAllocator`: the ids `1 .. mLastId` are in use, except `mReturnedIds`.
The set is ordered by `std::greater`, so it iterates downwards. -/
structure UniqueIdAllocator where
  mLastId : UInt32 := 0
  mReturnedIds : StdSet (id : UInt32 → UInt32) (· > ·) := ∅

namespace UniqueIdAllocator

/-- `get`: the smallest returned id (the last one in iteration order), else a new one. -/
def get (a : UniqueIdAllocator) : UInt32 × UniqueIdAllocator :=
  match a.mReturnedIds.elems.getLast? with
  | some id => (id, { a with mReturnedIds := a.mReturnedIds.erase id })
  | none => (a.mLastId + 1, { a with mLastId := a.mLastId + 1 })

/-- The loop of `put`: while the largest returned id is `mLastId`, drop both. -/
def coalesce : UInt32 → List UInt32 → UInt32 × List UInt32
  | last, [] => (last, [])
  | last, i :: rest => if i = last then coalesce (last - 1) rest else (last, i :: rest)

theorem coalesce_suffix : ∀ (last : UInt32) (l : List UInt32), (coalesce last l).2 <:+ l
  | _, [] => List.suffix_refl _
  | last, i :: rest => by
      unfold coalesce
      split
      · exact (coalesce_suffix _ rest).trans (List.suffix_cons i rest)
      · exact List.suffix_refl _

/-- `put`. -/
def put (a : UniqueIdAllocator) (id : UInt32) : Except Fault UniqueIdAllocator :=
  if id = a.mLastId then
    let r := coalesce (a.mLastId - 1) a.mReturnedIds.elems
    .ok { mLastId := r.1
          mReturnedIds := ⟨r.2, a.mReturnedIds.sorted.sublist (coalesce_suffix _ _).sublist⟩ }
  else if id < a.mLastId then
    -- `std::set::insert` leaves the set alone when the id is in it already
    .ok { a with mReturnedIds := a.mReturnedIds.insert id }
  else .error .assertId

/-- `reset`. -/
def reset (_ : UniqueIdAllocator) : UniqueIdAllocator := {}

/-- The ids handed out and not returned. -/
def Outstanding (a : UniqueIdAllocator) (id : UInt32) : Prop :=
  0 < id ∧ id ≤ a.mLastId ∧ id ∉ a.mReturnedIds

end UniqueIdAllocator

/-! ### `SocketBuffer` -/

/-- `SocketBuffer`: bytes waiting for the guest. The first `mConsumed` of them were
sent already; they are erased by the next `append`. -/
structure SocketBuffer where
  mBuf : List UInt8 := []
  mConsumed : Nat := 0
  deriving DecidableEq, Repr

namespace SocketBuffer

/-- `append`. -/
def append (b : SocketBuffer) (data : List UInt8) : SocketBuffer :=
  { mBuf := (if b.mConsumed > 0 then b.mBuf.drop b.mConsumed else b.mBuf) ++ data
    mConsumed := 0 }

/-- The unconsumed bytes. -/
def pending (b : SocketBuffer) : List UInt8 := b.mBuf.drop b.mConsumed

/-- The representation invariant the asserts check. -/
def Ok (b : SocketBuffer) : Prop := b.mConsumed ≤ b.mBuf.length

/-- `peek`. -/
def peek (b : SocketBuffer) : Except Fault (List UInt8) :=
  if b.mConsumed ≤ b.mBuf.length then .ok b.pending else .error .assertConsumed

/-- `consume`. -/
def consume (b : SocketBuffer) (size : Nat) : Except Fault SocketBuffer :=
  if b.mConsumed + size ≤ b.mBuf.length then .ok { b with mConsumed := b.mConsumed + size }
  else .error .assertConsumed

theorem append_ok (b : SocketBuffer) (data : List UInt8) : (b.append data).Ok := Nat.zero_le _

theorem pending_append (b : SocketBuffer) (data : List UInt8) :
    (b.append data).pending = b.pending ++ data := by
  unfold append pending
  rcases Nat.eq_zero_or_pos b.mConsumed with h | h <;> simp [h]

theorem peek_eq_ok {b : SocketBuffer} {data : List UInt8} :
    b.peek = .ok data ↔ b.Ok ∧ data = b.pending := by
  unfold peek Ok
  split <;> simp_all [eq_comm]

theorem consume_eq_ok {b b' : SocketBuffer} {size : Nat} :
    b.consume size = .ok b' ↔
      b.mConsumed + size ≤ b.mBuf.length ∧ b' = { b with mConsumed := b.mConsumed + size } := by
  unfold consume
  split <;> simp_all [eq_comm]

/-- Consuming drops from the front of what is pending and keeps the invariant. -/
theorem consume_spec {b b' : SocketBuffer} {size : Nat} (h : b.consume size = .ok b') :
    b'.Ok ∧ b'.pending = b.pending.drop size ∧ size ≤ b.pending.length := by
  obtain ⟨hle, rfl⟩ := consume_eq_ok.mp h
  refine ⟨hle, by simp [pending], ?_⟩
  simp only [pending, List.length_drop]
  omega

/-- `consume` does not fail on a part of what `peek` returned. -/
theorem consume_of_le {b : SocketBuffer} {size : Nat} (hok : b.Ok)
    (h : size ≤ b.pending.length) : ∃ b', b.consume size = .ok b' := by
  refine ⟨_, consume_eq_ok.mpr ⟨?_, rfl⟩⟩
  simp only [pending, List.length_drop, Ok] at h hok
  omega

end SocketBuffer

/-! ### Streams -/

/-- The address of a `VsockStream`: what a `SocketPtr` points at. -/
abbrev Ref := Nat

/-- `VsockStream`, over an arbitrary type of plugs. -/
structure VsockStream (P : Type) where
  ref : Ref
  guestPort : UInt32
  hostPort : UInt32
  plug : Option P := none
  /-- The identity of the attached `IDataSniffer`, if there is one. -/
  dataSniffer : Option Nat := none
  hostToGuestBuf : SocketBuffer := {}
  /-- guest's buffer size -/
  guestBufAlloc : UInt32 := 0
  /-- how much the guest received -/
  guestFwdCnt : UInt32 := 0
  /-- how much the host sent -/
  hostSentCnt : UInt32 := 0
  /-- how much the host received -/
  hostFwdCnt : UInt32 := 0
  /-- bitmask of OPs to send -/
  sendOpMask : UInt8 := 0
  isConnected : Bool := false

namespace VsockStream

variable {P : Type}

/-- The port pair of a stream. -/
def key (s : VsockStream P) : VsockStreamKey := ⟨s.guestPort, s.hostPort⟩

/-- The guest's free buffer space, as `sendPacketsLocked` computes it: in `uint32_t`
arithmetic, widened to `size_t` afterwards. -/
def guestAvailSize (s : VsockStream P) : Nat :=
  (s.guestBufAlloc - (s.hostSentCnt - s.guestFwdCnt)).toNat

/-- Is the operation waiting to be sent? -/
def hasOp (s : VsockStream P) (op : VirtioVsockOp) : Bool := s.sendOpMask &&& op.bit ≠ 0

/-- `preparePacketHeaderLocked` for a packet of this stream. -/
def preparePacketHeader (s : VsockStream P) (op : VirtioVsockOp) (len : UInt32) :
    VirtioVsockHdr :=
  Vsock.preparePacketHeader s.hostPort s.guestPort op s.hostFwdCnt len

/-- Is the host port one of the dynamic ports `connect` hands out? -/
def isDynamic (s : VsockStream P) : Bool := kDynamicPortsStart ≤ s.hostPort

/-- The allocator's id of a dynamic host port. -/
def dynamicId (s : VsockStream P) : UInt32 := s.hostPort - kDynamicPortsStart

end VsockStream

/-- `Streams`: `std::set<VsockStream, VsockStreamComparer>`. -/
abbrev Streams (P : Type) := StdSet (VsockStream.key (P := P)) VsockStreamKey.lt

/-! ### The virtqueue side -/

/-- What one call of `sendPacketHostToGuest` did: the new state of the queue, the
packed answer, and the packets it wrote into guest descriptors. -/
structure SendOutcome (σ : Type) where
  vq : σ
  result : VirtIOVSockSendResult
  written : List (VirtioVsockHdr × List UInt8)

/-- `GoldfishVirtIOVSockDevAPI`, over the state `σ` of the queue. `avail` counts the
buffers the guest has made available; it only bounds the send loop. -/
structure GoldfishVirtIOVSockDevAPI (σ : Type) where
  sendPacketHostToGuest : σ → VirtioVsockHdr → List UInt8 → SendOutcome σ
  avail : σ → Nat

/-- The payload bytes among what was written. -/
def SendOutcome.payload {σ : Type} (o : SendOutcome σ) : List UInt8 := o.written.flatMap Prod.snd

/-! ### History -/

/-- Who made a stream: the host (`connect`) or a guest request (`listen`). -/
inductive Origin
  | connect
  | listener
  deriving DecidableEq, Repr

/-- What the device did. -/
inductive Event (σ P : Type)
  /-- A stream was inserted into `mStreams`. -/
  | created (s : Ref) (key : VsockStreamKey) (origin : Origin)
  /-- A stream was erased from `mStreams`. -/
  | erased (s : Ref)
  /-- The bit of an operation was set in a stream's mask. -/
  | opQueued (s : Ref) (op : VirtioVsockOp)
  /-- `queueOrphanPacketLocked`. -/
  | orphanQueued (hdr : VirtioVsockHdr)
  /-- A call of `sendPacketHostToGuest` for an orphan packet (`none`) or a stream. -/
  | call (source : Option Ref) (vq : σ) (hdr : VirtioVsockHdr) (data : List UInt8)
  /-- `haveHostToGuestPackets`. -/
  | notify
  /-- `sendAsync` put data into the stream's buffer. -/
  | buffered (s : Ref) (data : List UInt8)
  /-- The counters of a guest header were stored in the stream. -/
  | received (s : Ref) (hdr : VirtioVsockHdr)
  /-- `IDataSniffer::toSocket`. -/
  | toSocket (sniffer : Nat) (data : List UInt8)
  /-- `IDataSniffer::toPlug`. -/
  | toPlug (sniffer : Nat) (data : List UInt8)
  /-- `IPlug::onConnect`. -/
  | onConnect (s : Ref) (plug : P)
  /-- `IPlug::onReceive`. -/
  | onReceive (s : Ref) (plug : P) (data : List UInt8)
  /-- `onReceive` of this plug returned `false`. -/
  | refused (s : Ref) (plug : P)
  /-- `IPlug::onUnplug`. -/
  | onUnplug (s : Ref) (plug : P)
  /-- The plug itself unplugged. -/
  | unplugged (s : Ref) (plug : P)

/-! ### The device and its environment -/

/-- `GoldfishVirtioVsockDevice` (the fields named `m…`) with the state of the virtqueue,
the next free address and the history. -/
structure World (σ P : Type) where
  mHostPortListeners : Finset UInt32 := ∅
  mSrcPortAllocator : UniqueIdAllocator := {}
  mOrphanPackets : List VirtioVsockHdr := []
  /-- The ids of the queued `virtio_vsock_event`s. -/
  mHostEvents : List UInt32 := []
  mStreams : Streams P := ∅
  vq : σ
  nextRef : Ref := 0
  log : List (Event σ P) := []

variable {σ P : Type}

/-- An in-place update of a stream: ports and address stay. -/
structure KeepsIdentity (f : VsockStream P → VsockStream P) : Prop where
  key : ∀ s, (f s).key = s.key
  ref : ∀ s, (f s).ref = s.ref

namespace World

/-- Record an event. -/
def emit (w : World σ P) (e : Event σ P) : World σ P := { w with log := w.log ++ [e] }

/-- The sniffer sees some data, if there is a sniffer. -/
def sniff (w : World σ P) (sniffer : Option Nat) (e : Nat → Event σ P) : World σ P :=
  match sniffer with
  | some i => w.emit (e i)
  | none => w

/-- Update the stream at an address in place. -/
def modify (w : World σ P) (ref : Ref) (f : VsockStream P → VsockStream P)
    (hf : KeepsIdentity f := by exact ⟨fun _ => rfl, fun _ => rfl⟩) : World σ P :=
  { w with mStreams := w.mStreams.map (fun s => if s.ref = ref then f s else s)
            (fun s => by split <;> simp [hf.key s]) }

/-- Follow a `VsockStream*`. -/
def deref (w : World σ P) (ref : Ref) : Except Fault (VsockStream P) :=
  match w.mStreams.elems.find? (·.ref = ref) with
  | some s => .ok s
  | none => .error .dangling

/-- `mStreams.emplace(*this, guestPort, hostPort)`; `none` when the pair is taken. The
new stream's address is the old `nextRef`. -/
def emplace (w : World σ P) (guestPort hostPort : UInt32) (origin : Origin) :
    Option (World σ P) :=
  match w.mStreams.emplace { ref := w.nextRef, guestPort, hostPort } with
  | some streams =>
      some (emit { w with mStreams := streams, nextRef := w.nextRef + 1 }
        (.created w.nextRef ⟨guestPort, hostPort⟩ origin))
  | none => none

/-- `mStreams.erase(stream)`. -/
def erase (w : World σ P) (s : VsockStream P) : World σ P :=
  emit { w with mStreams := w.mStreams.erase s.key } (.erased s.ref)

/-- Assign to a stream's `sendOpMask`. -/
def setMask (w : World σ P) (ref : Ref) (mask : UInt8) : World σ P :=
  w.modify ref fun s => { s with sendOpMask := mask }

/-- Attach a plug to a stream. -/
abbrev setPlug (w : World σ P) (ref : Ref) (plug : P) : World σ P :=
  w.modify ref fun s => { s with plug := some plug }

/-- Assign to a stream's `isConnected`. -/
abbrev setConnected (w : World σ P) (ref : Ref) : World σ P :=
  w.modify ref fun s => { s with isConnected := true }

/-- Append to a stream's `hostToGuestBuf`. -/
abbrev appendData (w : World σ P) (ref : Ref) (data : List UInt8) : World σ P :=
  w.modify ref fun s => { s with hostToGuestBuf := s.hostToGuestBuf.append data }

/-- Count bytes a stream's plug has taken. -/
abbrev addHostFwdCnt (w : World σ P) (ref : Ref) (data : List UInt8) : World σ P :=
  w.modify ref fun s => { s with hostFwdCnt := s.hostFwdCnt + UInt32.ofNat data.length }

/-- `VsockStream::sendOp`. Both asserts hold of every operation the device passes. -/
def sendOp (w : World σ P) (ref : Ref) (op : VirtioVsockOp) : World σ P :=
  (w.modify ref fun s => { s with sendOpMask := s.sendOpMask ||| op.bit }).emit (.opQueued ref op)

/-- `queueOrphanPacketLocked`. -/
def queueOrphanPacket (w : World σ P) (hdr : VirtioVsockHdr) : World σ P :=
  emit { w with mOrphanPackets := w.mOrphanPackets ++ [hdr] } (.orphanQueued hdr)

/-- A call of `sendPacketHostToGuest`. The header is passed by pointer and the callee
fills in its remaining fields; the copy that stays behind is not modelled, since every
call fills them in again. -/
def sendPacketHostToGuest (api : GoldfishVirtIOVSockDevAPI σ) (w : World σ P)
    (source : Option Ref) (hdr : VirtioVsockHdr) (data : List UInt8) :
    VirtIOVSockSendResult × World σ P :=
  let out := api.sendPacketHostToGuest w.vq hdr data
  (out.result, { w.emit (.call source w.vq hdr data) with vq := out.vq })

end World

/-- `NOT_NULL` on a plug. -/
def notNull : Option P → Except Fault P
  | some p => .ok p
  | none => .error .nullPlug

theorem notNull_eq_ok {o : Option P} {p : P} : notNull o = .ok p ↔ o = some p := by
  cases o <;> simp [notNull]

theorem notNull_error {o : Option P} {e : Fault} (h : notNull o = .error e) :
    e = .nullPlug ∧ o = none := by
  cases o with
  | none => exact ⟨by simpa [notNull, eq_comm] using h, rfl⟩
  | some p => simp [notNull] at h

/-! ### What the primitives change -/

namespace World

variable {w : World σ P} {ref : Ref} {f g : VsockStream P → VsockStream P}

@[simp] theorem emit_log (e : Event σ P) : (w.emit e).log = w.log ++ [e] := rfl
@[simp] theorem emit_mStreams (e : Event σ P) : (w.emit e).mStreams = w.mStreams := rfl
@[simp] theorem emit_mOrphanPackets (e : Event σ P) :
    (w.emit e).mOrphanPackets = w.mOrphanPackets := rfl
@[simp] theorem emit_mSrcPortAllocator (e : Event σ P) :
    (w.emit e).mSrcPortAllocator = w.mSrcPortAllocator := rfl
@[simp] theorem emit_mHostPortListeners (e : Event σ P) :
    (w.emit e).mHostPortListeners = w.mHostPortListeners := rfl
@[simp] theorem emit_nextRef (e : Event σ P) : (w.emit e).nextRef = w.nextRef := rfl
@[simp] theorem emit_vq (e : Event σ P) : (w.emit e).vq = w.vq := rfl

@[simp] theorem modify_log {hf : KeepsIdentity f} : (w.modify ref f hf).log = w.log := rfl
@[simp] theorem modify_mOrphanPackets {hf : KeepsIdentity f} :
    (w.modify ref f hf).mOrphanPackets = w.mOrphanPackets := rfl
@[simp] theorem modify_mSrcPortAllocator {hf : KeepsIdentity f} :
    (w.modify ref f hf).mSrcPortAllocator = w.mSrcPortAllocator := rfl
@[simp] theorem modify_mHostPortListeners {hf : KeepsIdentity f} :
    (w.modify ref f hf).mHostPortListeners = w.mHostPortListeners := rfl
@[simp] theorem modify_nextRef {hf : KeepsIdentity f} :
    (w.modify ref f hf).nextRef = w.nextRef := rfl
@[simp] theorem modify_vq {hf : KeepsIdentity f} : (w.modify ref f hf).vq = w.vq := rfl

theorem mem_modify {hf : KeepsIdentity f} {t : VsockStream P} :
    t ∈ (w.modify ref f hf).mStreams ↔
      ∃ s ∈ w.mStreams, (if s.ref = ref then f s else s) = t := by
  rw [StdSet.mem_def, modify, StdSet.elems_map, List.mem_map]
  rfl

/-- The stream at the address after the update, and every other one. -/
theorem mem_modify_iff {hf : KeepsIdentity f} {t : VsockStream P} :
    t ∈ (w.modify ref f hf).mStreams ↔
      (t.ref ≠ ref ∧ t ∈ w.mStreams) ∨ (∃ s ∈ w.mStreams, s.ref = ref ∧ f s = t) := by
  rw [mem_modify]
  constructor
  · rintro ⟨s, hs, rfl⟩
    by_cases h : s.ref = ref
    · exact Or.inr ⟨s, hs, h, by rw [if_pos h]⟩
    · rw [if_neg h]
      exact Or.inl ⟨h, hs⟩
  · rintro (⟨h, ht⟩ | ⟨s, hs, h, rfl⟩)
    · exact ⟨t, ht, by rw [if_neg h]⟩
    · exact ⟨s, hs, by rw [if_pos h]⟩

/-- `modify` in terms of the list of streams. -/
theorem modify_elems {hf : KeepsIdentity f} : (w.modify ref f hf).mStreams.elems =
    w.mStreams.elems.map fun s => if s.ref = ref then f s else s := rfl

/-- Two worlds that differ in their streams only. -/
theorem with_mStreams_congr {s t : Streams P} (h : s.elems = t.elems) :
    ({ w with mStreams := s } : World σ P) = { w with mStreams := t } := by
  rw [StdSet.ext h]

theorem modify_congr {hf : KeepsIdentity f} {hg : KeepsIdentity g}
    (h : ∀ s ∈ w.mStreams, s.ref = ref → f s = g s) : w.modify ref f hf = w.modify ref g hg := by
  apply with_mStreams_congr
  refine List.map_congr_left fun s hs => ?_
  by_cases hr : s.ref = ref
  · simp only [if_pos hr, h s hs hr]
  · simp only [if_neg hr]

theorem modify_eq_self {hf : KeepsIdentity f}
    (h : ∀ s ∈ w.mStreams, s.ref = ref → f s = s) : w.modify ref f hf = w := by
  refine with_mStreams_congr (t := w.mStreams) ?_
  refine (List.map_congr_left fun s hs => ?_).trans (List.map_id _)
  by_cases hr : s.ref = ref
  · simp only [if_pos hr, h s hs hr, id]
  · simp only [if_neg hr, id]

theorem modify_modify {hf : KeepsIdentity f} {hg : KeepsIdentity g} :
    (w.modify ref f hf).modify ref g hg =
      w.modify ref (fun s => g (f s))
        ⟨fun s => (hg.key _).trans (hf.key s), fun s => (hg.ref _).trans (hf.ref s)⟩ := by
  apply with_mStreams_congr
  rw [StdSet.elems_map, StdSet.elems_map, modify_elems, List.map_map]
  refine List.map_congr_left fun s _ => ?_
  by_cases hr : s.ref = ref
  · simp [hr, hf.ref s]
  · simp [hr]

theorem mem_of_deref {s : VsockStream P} (h : w.deref ref = .ok s) :
    s ∈ w.mStreams ∧ s.ref = ref := by
  unfold deref at h
  split at h
  · next t ht =>
    obtain rfl : t = s := by simpa using h
    exact ⟨List.mem_of_find?_eq_some ht, by simpa using List.find?_some ht⟩
  · simp at h

/-- A live address can be followed. -/
theorem exists_deref {s : VsockStream P} (hs : s ∈ w.mStreams) : ∃ t, w.deref s.ref = .ok t := by
  unfold deref
  cases hfind : w.mStreams.elems.find? (·.ref = s.ref) with
  | some t => exact ⟨t, rfl⟩
  | none => simpa using List.find?_eq_none.mp hfind s hs

/-! ### Addresses identify streams -/

/-- Addresses are distinct, and below the next one to be handed out. -/
structure Wf (w : World σ P) : Prop where
  ref_lt : ∀ s ∈ w.mStreams, s.ref < w.nextRef
  ref_inj : ∀ s ∈ w.mStreams, ∀ t ∈ w.mStreams, s.ref = t.ref → s = t

theorem Wf.deref_eq (hw : w.Wf) {s : VsockStream P} (hs : s ∈ w.mStreams) :
    w.deref s.ref = .ok s := by
  obtain ⟨t, ht⟩ := exists_deref hs
  obtain ⟨hmem, href⟩ := mem_of_deref ht
  rw [ht, hw.ref_inj t hmem s hs href]

end World

end Goldfish.Vsock
