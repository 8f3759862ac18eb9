import Goldfish.Vsock.Device

/-!
# Goldfish.Vsock.LowLevel

The **virtqueue side** of the device (`vsock_low_level.c`).

* Towards the guest: `virtio_vsock_send_packet_host_to_guest` cuts a packet to the
  buffers the guest has made available and packs what happened into one word.
* From the guest: `virtio_vsock_parse_guest_to_host` checks a packet that arrives as
  an `iovec` list and hands its data on piece by piece, without copying it
  together. The pieces are those of the payload (`flatten_payloadPieces`), whatever
  the list looks like.

Buffers of the guest are given by their sizes; what is written into them is the
`written` part of the outcome.
-/

namespace Goldfish.Vsock

open Goldfish.Lib

variable {P : Type}

/-! ### Host to guest -/

/-- `VMADDR_CID_HOST`. -/
def vmaddrCidHost : UInt64 := 2

/-- `VIRTIO_VSOCK_TYPE_STREAM`. -/
def virtioVsockTypeStream : UInt16 := 1

/-- `VIRTIO_VSOCK_SHUTDOWN_RCV | VIRTIO_VSOCK_SHUTDOWN_SEND`. -/
def virtioVsockShutdownBoth : UInt32 := 1 ||| 2

/-- `VirtIOVSock`: the guest's address, and `iov_size` of the buffers of each element
available on `host_to_guest_vq`, the next one first. -/
structure VirtIOVSock where
  guestCid : UInt64
  hostToGuestVq : List Nat
  deriving DecidableEq, Repr

/-- The fields of a header that the device leaves to the virtqueue side. -/
def VirtIOVSock.fillHeader (s : VirtIOVSock) (hdr : VirtioVsockHdr) : VirtioVsockHdr :=
  { hdr with
    srcCid := vmaddrCidHost
    dstCid := s.guestCid
    type := virtioVsockTypeStream
    flags := if hdr.op = VirtioVsockOp.shutdown.code then virtioVsockShutdownBoth else 0 }

/-- The variables of `virtio_vsock_send_packet_host_to_guest` when its loop ends, with
the elements left on the queue. -/
structure SendLoop where
  isVqFull : Bool
  needNotify : Bool
  bytesSent : Nat
  written : List (VirtioVsockHdr × List UInt8)
  rest : List Nat

/-- The `do … while (data8_size)` loop. An element too small for a header is given back
empty, and the `continue` after it goes to the loop condition. -/
def sendLoop (hdr : VirtioVsockHdr) : List Nat → List UInt8 → SendLoop
  | [], _ => ⟨true, false, 0, [], []⟩
  | size :: vq, data8 =>
      if size < hdrSize then
        if data8.length ≠ 0 then { sendLoop hdr vq data8 with needNotify := true }
        else ⟨false, true, 0, [], vq⟩
      else
        let chunkSize := min data8.length (size - hdrSize)
        let packet := ({ hdr with len := UInt32.ofNat chunkSize }, data8.take chunkSize)
        if (data8.drop chunkSize).length ≠ 0 then
          let r := sendLoop hdr vq (data8.drop chunkSize)
          { r with
            needNotify := true
            bytesSent := chunkSize + r.bytesSent
            written := packet :: r.written }
        else ⟨false, true, chunkSize, [packet], vq⟩

/-- `virtio_vsock_send_packet_host_to_guest`. -/
def virtioVsockSendPacketHostToGuest (s : VirtIOVSock) (hdr : VirtioVsockHdr)
    (data : List UInt8) : SendOutcome VirtIOVSock :=
  let r := sendLoop (s.fillHeader hdr) s.hostToGuestVq (data.take hdr.len.toNat)
  { vq := { s with hostToGuestVq := r.rest }
    result := makeVirtIOVSockSendResult r.isVqFull r.needNotify r.bytesSent
    written := r.written }

/-- `dev_api`. -/
def devApi : GoldfishVirtIOVSockDevAPI VirtIOVSock where
  sendPacketHostToGuest := virtioVsockSendPacketHostToGuest
  avail s := s.hostToGuestVq.length

/-- The payload the available elements have room for. -/
def VirtIOVSock.room (s : VirtIOVSock) : Nat := (s.hostToGuestVq.map (· - hdrSize)).sum

/-- What the loop writes is a prefix of the data; all of it unless the queue ran dry. -/
theorem sendLoop_payload (hdr : VirtioVsockHdr) :
    ∀ (vq : List Nat) (data8 : List UInt8),
      (sendLoop hdr vq data8).written.flatMap Prod.snd =
          data8.take (sendLoop hdr vq data8).bytesSent ∧
        (sendLoop hdr vq data8).bytesSent ≤ data8.length ∧
        ((sendLoop hdr vq data8).isVqFull = false →
          (sendLoop hdr vq data8).bytesSent = data8.length)
  | [], data8 => by simp [sendLoop]
  | size :: vq, data8 => by
      unfold sendLoop
      by_cases hsize : size < hdrSize
      · rw [if_pos hsize]
        by_cases hlen : data8.length ≠ 0
        · rw [if_pos hlen]
          exact sendLoop_payload hdr vq data8
        · rw [if_neg hlen]
          simp_all
      · rw [if_neg hsize]
        by_cases hmore : (data8.drop (min data8.length (size - hdrSize))).length ≠ 0
        · simp only [if_pos hmore]
          obtain ⟨hw, hle, hall⟩ :=
            sendLoop_payload hdr vq (data8.drop (min data8.length (size - hdrSize)))
          rw [List.length_drop] at hle hall hmore
          refine ⟨?_, by omega, fun hfull => by have := hall hfull; omega⟩
          rw [List.flatMap_cons, hw, List.take_add]
        · simp only [if_neg hmore]
          rw [List.length_drop] at hmore
          refine ⟨by simp, by omega, fun _ => by omega⟩

/-- With data to send, the loop ends only when everything is written or the queue is
empty, so it writes as much as there is room for. -/
theorem sendLoop_bytesSent (hdr : VirtioVsockHdr) :
    ∀ (vq : List Nat) (data8 : List UInt8),
      (sendLoop hdr vq data8).bytesSent = min data8.length (vq.map (· - hdrSize)).sum
  | [], data8 => by simp [sendLoop]
  | size :: vq, data8 => by
      unfold sendLoop
      rw [List.map_cons, List.sum_cons]
      by_cases hsize : size < hdrSize
      · rw [if_pos hsize, Nat.sub_eq_zero_of_le hsize.le, Nat.zero_add]
        by_cases hlen : data8.length ≠ 0
        · rw [if_pos hlen]
          exact sendLoop_bytesSent hdr vq data8
        · rw [if_neg hlen]
          simp_all
      · rw [if_neg hsize]
        by_cases hmore : (data8.drop (min data8.length (size - hdrSize))).length ≠ 0
        · simp only [if_pos hmore]
          rw [sendLoop_bytesSent hdr vq, List.length_drop]
          rw [List.length_drop] at hmore
          omega
        · simp only [if_neg hmore]
          rw [List.length_drop] at hmore
          omega

/-- An answer without the full flag has used up an element. -/
theorem sendLoop_rest (hdr : VirtioVsockHdr) :
    ∀ (vq : List Nat) (data8 : List UInt8), (sendLoop hdr vq data8).isVqFull = false →
      (sendLoop hdr vq data8).rest.length < vq.length
  | [], data8, h => by simp [sendLoop] at h
  | size :: vq, data8, h => by
      unfold sendLoop at h ⊢
      have ih := fun d => sendLoop_rest hdr vq d
      by_cases hsize : size < hdrSize
      · rw [if_pos hsize] at h ⊢
        by_cases hlen : data8.length ≠ 0
        · rw [if_pos hlen] at h ⊢
          exact Nat.lt_succ_of_lt (ih data8 h)
        · rw [if_neg hlen]
          exact Nat.lt_succ_self _
      · rw [if_neg hsize] at h ⊢
        by_cases hmore : (data8.drop (min data8.length (size - hdrSize))).length ≠ 0
        · simp only [if_pos hmore] at h ⊢
          exact Nat.lt_succ_of_lt (ih _ h)
        · simp only [if_neg hmore]
          exact Nat.lt_succ_self _

/-- The bytes a call delivers: as many as it is asked for and there is room for. -/
theorem devApi_payload (vq : VirtIOVSock) (hdr : VirtioVsockHdr) (data : List UInt8) :
    (devApi.sendPacketHostToGuest vq hdr data).payload =
      (data.take hdr.len.toNat).take (min (data.take hdr.len.toNat).length vq.room) := by
  rw [VirtIOVSock.room, ← sendLoop_bytesSent (vq.fillHeader hdr)]
  exact (sendLoop_payload _ _ _).1

theorem devApi_payload_front (vq : VirtIOVSock) (hdr : VirtioVsockHdr) (data : List UInt8) :
    (devApi.sendPacketHostToGuest vq hdr data).payload <+: data.take hdr.len.toNat := by
  rw [devApi_payload]
  exact List.take_prefix _ _

/-- The size in the answer: 30 bits of the number of delivered bytes. -/
theorem devApi_sentSize (vq : VirtIOVSock) (hdr : VirtioVsockHdr) (data : List UInt8) :
    virtIOVSockSentSize (devApi.sendPacketHostToGuest vq hdr data).result =
      (devApi.sendPacketHostToGuest vq hdr data).payload.length % 2 ^ 30 := by
  rw [devApi_payload]
  simp only [devApi, virtioVsockSendPacketHostToGuest, virtIOVSockSentSize_make,
    sendLoop_bytesSent, VirtIOVSock.room, List.length_take]
  congr 1
  omega

/-- The answer of a call that fits is exact. -/
theorem devApi_sentSize_of_fits {vq : VirtIOVSock} {hdr : VirtioVsockHdr} (data : List UInt8)
    (hfits : min hdr.len.toNat vq.room < 2 ^ 30) :
    virtIOVSockSentSize (devApi.sendPacketHostToGuest vq hdr data).result =
      (devApi.sendPacketHostToGuest vq hdr data).payload.length := by
  rw [devApi_sentSize, devApi_payload]
  refine Nat.mod_eq_of_lt ?_
  rw [List.length_take, List.length_take]
  omega

/-- Without the full flag everything was delivered. -/
theorem devApi_payload_whole {vq : VirtIOVSock} {hdr : VirtioVsockHdr} {data : List UInt8}
    (hfull : virtIOVSockSendIsVqFull (devApi.sendPacketHostToGuest vq hdr data).result = false) :
    (devApi.sendPacketHostToGuest vq hdr data).payload = data.take hdr.len.toNat := by
  simp only [devApi, virtioVsockSendPacketHostToGuest, virtIOVSockSendIsVqFull_make] at hfull ⊢
  obtain ⟨hpayload, -, hall⟩ := sendLoop_payload (vq.fillHeader hdr) vq.hostToGuestVq
    (data.take hdr.len.toNat)
  refine hpayload.trans ?_
  rw [hall hfull, List.take_length]

/-- Data that fits into the next element goes out in one packet. -/
theorem devApi_send_whole {cid : UInt64} {size : Nat} {rest : List Nat} {hdr : VirtioVsockHdr}
    {data : List UInt8} (hsize : hdrSize + data.length ≤ size) (hlen : data.length ≤ hdr.len.toNat) :
    devApi.sendPacketHostToGuest ⟨cid, size :: rest⟩ hdr data =
      ⟨⟨cid, rest⟩, makeVirtIOVSockSendResult false true data.length,
        [({ VirtIOVSock.fillHeader ⟨cid, size :: rest⟩ hdr with len := UInt32.ofNat data.length },
          data)]⟩ := by
  have hmin : min data.length (size - hdrSize) = data.length := by omega
  simp only [devApi, virtioVsockSendPacketHostToGuest, sendLoop, List.take_of_length_le hlen,
    if_neg (show ¬ size < hdrSize by omega), hmin, List.drop_length, List.length_nil, ne_eq,
    not_true_eq_false, if_false, List.take_length]

/-! ### Guest to host -/

/-- `iov_size`. -/
def iovSize (iov : List (List UInt8)) : Nat := (iov.map List.length).sum

/-- `iov_to_buf`. -/
def iovToBuf (iov : List (List UInt8)) (offset bytes : Nat) : List UInt8 :=
  (iov.flatten.drop offset).take bytes

/-- A little-endian number. -/
def littleEndian : List UInt8 → Nat
  | [] => 0
  | b :: rest => b.toNat + 256 * littleEndian rest

/-- The header in the first bytes of a packet. -/
def parseHeader (b : List UInt8) : VirtioVsockHdr where
  srcCid := UInt64.ofNat (littleEndian (b.take 8))
  dstCid := UInt64.ofNat (littleEndian ((b.drop 8).take 8))
  srcPort := UInt32.ofNat (littleEndian ((b.drop 16).take 4))
  dstPort := UInt32.ofNat (littleEndian ((b.drop 20).take 4))
  len := UInt32.ofNat (littleEndian ((b.drop 24).take 4))
  type := UInt16.ofNat (littleEndian ((b.drop 28).take 2))
  op := UInt16.ofNat (littleEndian ((b.drop 30).take 2))
  flags := UInt32.ofNat (littleEndian ((b.drop 32).take 4))
  bufAlloc := UInt32.ofNat (littleEndian ((b.drop 36).take 4))
  fwdCnt := UInt32.ofNat (littleEndian ((b.drop 40).take 4))

/-- The loop of `virtio_vsock_parse_guest_to_host` over the `iovec`: `size` bytes are still
to be handed over, `offset` bytes still to be skipped. -/
def receiveIovec (api : GoldfishVirtIOVSockDevAPI VirtIOVSock) (cb : Callbacks P) (ref : Ref) :
    List (List UInt8) → (size offset i : Nat) → World VirtIOVSock P →
      Except Fault (Bool × World VirtIOVSock P)
  | [], _, _, _, w => pure (false, w)
  | seg :: iov, size, offset, i, w =>
      if size = 0 then pure (false, w)
      else
        let skipSize := min offset seg.length
        let dataSize := min size (seg.length - skipSize)
        if dataSize > 0 then do
          let data := (seg.drop skipSize).take dataSize
          let (eraseStream, w) ← onPacketReceiveRw api (cb.onReceive i) w ref data
          if eraseStream then pure (true, w)
          else receiveIovec api cb ref iov (size - dataSize) (offset - skipSize) (i + 1) w
        else receiveIovec api cb ref iov size (offset - skipSize) i w

/-- `virtio_vsock_parse_guest_to_host`. -/
def virtioVsockParseGuestToHost (api : GoldfishVirtIOVSockDevAPI VirtIOVSock) (cb : Callbacks P)
    (w : World VirtIOVSock P) (iov : List (List UInt8)) :
    Except Fault (World VirtIOVSock P) :=
  let packetSize := iovSize iov
  if packetSize < hdrSize then .ok w
  else
    let hdr := parseHeader (iovToBuf iov 0 hdrSize)
    if packetSize < hdrSize + hdr.len.toNat then .ok w
    else if hdr.type ≠ virtioVsockTypeStream then .ok w
    else if hdr.dstCid ≠ vmaddrCidHost then .ok w
    else if hdr.srcCid ≠ w.vq.guestCid then .ok w
    else if hdr.op ≠ VirtioVsockOp.rw.code then onPacketReceiveControl api cb w hdr
    else
      match onPacketReceiveRwStart w hdr with
      | (none, w) => .ok w
      | (some ref, w) => do
          let (eraseStream, w) ← receiveIovec api cb ref iov hdr.len.toNat hdrSize 0 w
          onPacketReceiveRwEnd api cb w ref eraseStream

/-- The non-empty pieces of `size` bytes that the `iovec` has after `offset`. -/
def payloadPieces : List (List UInt8) → (size offset : Nat) → List (List UInt8)
  | [], _, _ => []
  | seg :: iov, size, offset =>
      if size = 0 then []
      else
        let skipSize := min offset seg.length
        let dataSize := min size (seg.length - skipSize)
        if dataSize > 0 then
          (seg.drop skipSize).take dataSize ::
            payloadPieces iov (size - dataSize) (offset - skipSize)
        else payloadPieces iov size (offset - skipSize)

/-- The loop hands over the pieces of the payload. -/
theorem receiveIovec_eq (api : GoldfishVirtIOVSockDevAPI VirtIOVSock) (cb : Callbacks P)
    (ref : Ref) :
    ∀ (iov : List (List UInt8)) (size offset i : Nat) (w : World VirtIOVSock P),
      receiveIovec api cb ref iov size offset i w =
        receivePieces api cb ref i (payloadPieces iov size offset) w
  | [], _, _, _, _ => rfl
  | seg :: iov, size, offset, i, w => by
      unfold receiveIovec payloadPieces
      by_cases hsize : size = 0
      · rw [if_pos hsize, if_pos hsize]
        rfl
      · rw [if_neg hsize, if_neg hsize]
        by_cases hdata : min size (seg.length - min offset seg.length) > 0
        · simp only [if_pos hdata, receivePieces]
          simp only [receiveIovec_eq api cb ref iov]
        · simp only [if_neg hdata]
          exact receiveIovec_eq api cb ref iov _ _ _ _

/-- Put together, the pieces are the payload: whatever the segments are. -/
theorem flatten_payloadPieces :
    ∀ (iov : List (List UInt8)) (size offset : Nat),
      (payloadPieces iov size offset).flatten = (iov.flatten.drop offset).take size
  | [], _, _ => by simp [payloadPieces]
  | seg :: iov, size, offset => by
      unfold payloadPieces
      by_cases hsize : size = 0
      · simp [hsize]
      · rw [if_neg hsize]
        have ih := flatten_payloadPieces iov
        by_cases hdata : min size (seg.length - min offset seg.length) > 0
        · -- the skipped part ends inside this segment
          have hoff : offset < seg.length := by omega
          simp only [if_pos hdata, List.flatten_cons, ih]
          rw [Nat.min_eq_left hoff.le, Nat.sub_self, List.drop_zero,
            List.drop_append_of_le_length hoff.le, List.take_append, List.length_drop]
          congr 1
          · rw [List.take_eq_take_iff, List.length_drop]
            omega
          · congr 1
            omega
        · -- nothing of this segment belongs to the payload
          have hoff : seg.length ≤ offset := by omega
          simp only [if_neg hdata, ih]
          rw [Nat.min_eq_right hoff, List.flatten_cons, List.drop_append, List.drop_of_length_le hoff,
            List.nil_append]

theorem payloadPieces_ne_nil :
    ∀ (iov : List (List UInt8)) (size offset : Nat), ∀ piece ∈ payloadPieces iov size offset,
      piece ≠ []
  | [], _, _ => by simp [payloadPieces]
  | seg :: iov, size, offset => by
      unfold payloadPieces
      intro piece hpiece
      split at hpiece
      · simp at hpiece
      · simp only at hpiece
        split at hpiece
        · next hdata =>
          rcases List.mem_cons.mp hpiece with rfl | hpiece
          · intro hnil
            have := congrArg List.length hnil
            simp only [List.length_take, List.length_drop, List.length_nil] at this
            omega
          · exact payloadPieces_ne_nil iov _ _ piece hpiece
        · exact payloadPieces_ne_nil iov _ _ piece hpiece

theorem iovSize_eq (iov : List (List UInt8)) : iovSize iov = iov.flatten.length := by
  simp [iovSize, List.length_flatten]

end Goldfish.Vsock
