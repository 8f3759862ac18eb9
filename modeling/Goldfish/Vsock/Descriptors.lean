import Goldfish.Vsock.LowLevel

/-!
# Goldfish.Vsock.Descriptors

**The receive queue in memory.** `LowLevel.lean` gives the buffers of the guest by their sizes. Here
they are buffers: a descriptor is a list of segments of memory the guest can read, the loop of
`virtio_vsock_send_packet_host_to_guest` pops it, writes a header and a chunk of the data into it, and
pushes it back with the number of bytes that are in use.

`sendElements_refines` connects the two: the sizes, the flags and the packets are those of
`sendLoop`. What the guest reads off the descriptors that came back is `send_fragments`.
-/

namespace Goldfish.Vsock

/-! ### Bytes of a header -/

/-- The bytes of a little-endian number of a given width. -/
def littleEndianBytes : (width : Nat) → Nat → List UInt8
  | 0, _ => []
  | width + 1, n => UInt8.ofNat n :: littleEndianBytes width (n / 256)

@[simp] theorem length_littleEndianBytes (width n : Nat) : (littleEndianBytes width n).length = width := by
  induction width generalizing n with
  | zero => rfl
  | succ width ih => rw [littleEndianBytes, List.length_cons, ih]

/-- A number is read back as far as it fits. -/
theorem littleEndian_bytes (width n : Nat) : littleEndian (littleEndianBytes width n) = n % 256 ^ width := by
  induction width generalizing n with
  | zero => rw [littleEndianBytes, littleEndian, Nat.pow_zero, Nat.mod_one]
  | succ width ih =>
    have hbyte : (UInt8.ofNat n).toNat = n % 256 := UInt8.toNat_ofNat'
    rw [littleEndianBytes, littleEndian, ih, hbyte, Nat.pow_succ, Nat.mul_comm (256 ^ width), Nat.mod_mul]

/-- The bytes of a header, in the order of the fields of the packed struct. -/
def headerBytes (hdr : VirtioVsockHdr) : List UInt8 :=
  littleEndianBytes 8 hdr.srcCid.toNat ++ (littleEndianBytes 8 hdr.dstCid.toNat ++
    (littleEndianBytes 4 hdr.srcPort.toNat ++ (littleEndianBytes 4 hdr.dstPort.toNat ++
      (littleEndianBytes 4 hdr.len.toNat ++ (littleEndianBytes 2 hdr.type.toNat ++
        (littleEndianBytes 2 hdr.op.toNat ++ (littleEndianBytes 4 hdr.flags.toNat ++
          (littleEndianBytes 4 hdr.bufAlloc.toNat ++ littleEndianBytes 4 hdr.fwdCnt.toNat))))))))

theorem length_headerBytes (hdr : VirtioVsockHdr) : (headerBytes hdr).length = hdrSize := by
  simp only [headerBytes, List.length_append, length_littleEndianBytes]
  rfl

theorem ofNat_bytes64 (x : UInt64) : UInt64.ofNat (littleEndian (littleEndianBytes 8 x.toNat)) = x := by
  have hmod : x.toNat % 256 ^ 8 = x.toNat := by
    have := x.toNat_lt
    omega
  rw [littleEndian_bytes, hmod, UInt64.ofNat_toNat]

theorem ofNat_bytes32 (x : UInt32) : UInt32.ofNat (littleEndian (littleEndianBytes 4 x.toNat)) = x := by
  have hmod : x.toNat % 256 ^ 4 = x.toNat := by
    have := x.toNat_lt
    omega
  rw [littleEndian_bytes, hmod, UInt32.ofNat_toNat]

theorem ofNat_bytes16 (x : UInt16) : UInt16.ofNat (littleEndian (littleEndianBytes 2 x.toNat)) = x := by
  have hmod : x.toNat % 256 ^ 2 = x.toNat := by
    have := x.toNat_lt
    omega
  rw [littleEndian_bytes, hmod, UInt16.ofNat_toNat]

/-- A header is read back. -/
theorem parseHeader_headerBytes (hdr : VirtioVsockHdr) : parseHeader (headerBytes hdr) = hdr := by
  -- each field is where `parseHeader` looks for it
  have hsrcCid : (headerBytes hdr).take 8 = littleEndianBytes 8 hdr.srcCid.toNat := rfl
  have hdstCid : ((headerBytes hdr).drop 8).take 8 = littleEndianBytes 8 hdr.dstCid.toNat := rfl
  have hsrcPort : ((headerBytes hdr).drop 16).take 4 = littleEndianBytes 4 hdr.srcPort.toNat := rfl
  have hdstPort : ((headerBytes hdr).drop 20).take 4 = littleEndianBytes 4 hdr.dstPort.toNat := rfl
  have hlen : ((headerBytes hdr).drop 24).take 4 = littleEndianBytes 4 hdr.len.toNat := rfl
  have htype : ((headerBytes hdr).drop 28).take 2 = littleEndianBytes 2 hdr.type.toNat := rfl
  have hop : ((headerBytes hdr).drop 30).take 2 = littleEndianBytes 2 hdr.op.toNat := rfl
  have hflags : ((headerBytes hdr).drop 32).take 4 = littleEndianBytes 4 hdr.flags.toNat := rfl
  have hbufAlloc : ((headerBytes hdr).drop 36).take 4 = littleEndianBytes 4 hdr.bufAlloc.toNat := rfl
  have hfwdCnt : ((headerBytes hdr).drop 40).take 4 = littleEndianBytes 4 hdr.fwdCnt.toNat := rfl
  simp only [parseHeader, hsrcCid, hdstCid, hsrcPort, hdstPort, hlen, htype, hop, hflags, hbufAlloc,
    hfwdCnt, ofNat_bytes64, ofNat_bytes32, ofNat_bytes16]

/-! ### Memory of the guest -/

/-- `iov_from_buf`: the bytes go to a place in the segments, as far as there is room. -/
def iovFromBuf : List (List UInt8) → (offset : Nat) → (buf : List UInt8) → List (List UInt8)
  | [], _, _ => []
  | seg :: iov, offset, buf =>
      let skipSize := min offset seg.length
      let copySize := min buf.length (seg.length - skipSize)
      (seg.take skipSize ++ (buf.take copySize ++ seg.drop (skipSize + copySize))) ::
        iovFromBuf iov (offset - skipSize) (buf.drop copySize)

/-- The segments stay what they are. -/
theorem iovFromBuf_lengths (iov : List (List UInt8)) (offset : Nat) (buf : List UInt8) :
    (iovFromBuf iov offset buf).map List.length = iov.map List.length := by
  induction iov generalizing offset buf with
  | nil => rfl
  | cons seg iov ih =>
    simp only [iovFromBuf, List.map_cons, ih, List.length_append, List.length_take, List.length_drop,
      List.cons.injEq, and_true]
    omega

theorem iovFromBuf_nil (iov : List (List UInt8)) (offset : Nat) : iovFromBuf iov offset [] = iov := by
  induction iov generalizing offset with
  | nil => rfl
  | cons seg iov ih => simp [iovFromBuf, ih]

/-- **What is in memory afterwards**, where there is room: the bytes, in place of as many that were there. -/
theorem iovFromBuf_flatten (iov : List (List UInt8)) (offset : Nat) (buf : List UInt8)
    (hroom : offset + buf.length ≤ iov.flatten.length) :
    (iovFromBuf iov offset buf).flatten =
      iov.flatten.take offset ++ (buf ++ iov.flatten.drop (offset + buf.length)) := by
  induction iov generalizing offset buf with
  | nil =>
    rw [List.flatten_nil, List.length_nil] at hroom
    obtain rfl : buf = [] := List.eq_nil_of_length_eq_zero (by omega)
    simp [iovFromBuf]
  | cons seg iov ih =>
    rw [List.flatten_cons, List.length_append] at hroom
    rw [List.flatten_cons]
    rcases Nat.lt_or_ge offset seg.length with hoff | hoff
    · have hskip : min offset seg.length = offset := Nat.min_eq_left hoff.le
      by_cases hmore : offset + buf.length ≤ seg.length
      · -- the place is in this segment
        have hcopy : min buf.length (seg.length - offset) = buf.length := by omega
        simp only [iovFromBuf, hskip, hcopy, List.take_length, List.drop_length, iovFromBuf_nil,
          List.flatten_cons]
        rw [List.take_append_of_le_length hoff.le, List.drop_append_of_le_length hmore]
        simp only [List.append_assoc]
      · -- it goes on behind it
        have hcopy : min buf.length (seg.length - offset) = seg.length - offset := by omega
        have htail : seg.drop (offset + (seg.length - offset)) = [] := List.drop_of_length_le (by omega)
        have hseg : seg.drop (offset + buf.length) = [] := List.drop_of_length_le (by omega)
        have hbehind : 0 + (buf.length - (seg.length - offset)) = offset + buf.length - seg.length := by omega
        simp only [iovFromBuf, hskip, hcopy, List.flatten_cons, htail, Nat.sub_self, List.append_nil]
        rw [ih 0 _ (by rw [List.length_drop]; omega), List.take_append_of_le_length hoff.le,
          List.drop_append, hseg, List.length_drop, hbehind]
        simp only [List.take_zero, List.nil_append, List.append_assoc]
        rw [← List.append_assoc (buf.take _), List.take_append_drop]
    · -- it begins behind it
      have hskip : min offset seg.length = seg.length := Nat.min_eq_right hoff
      have hseg : seg.drop (offset + buf.length) = [] := List.drop_of_length_le (by omega)
      have hbehind : offset - seg.length + buf.length = offset + buf.length - seg.length := by omega
      simp only [iovFromBuf, hskip, Nat.sub_self, Nat.min_zero, Nat.add_zero, List.take_length, List.take_zero,
        List.drop_length, List.drop_zero, List.append_nil, List.flatten_cons]
      rw [ih _ _ (by omega), List.take_append, List.take_of_length_le hoff, List.drop_append, hseg,
        List.nil_append, List.append_assoc, hbehind]

/-! ### The queue -/

/-- `VirtQueueElement`: its place in the ring and `in_sg`. -/
structure VirtQueueElement where
  index : Nat
  inSg : List (List UInt8)
deriving DecidableEq, Repr

/-- `iov_size(e->in_sg, e->in_num)`. -/
def VirtQueueElement.size (e : VirtQueueElement) : Nat := iovSize e.inSg

/-- An element that was pushed, with the number of bytes in use. -/
structure UsedElement where
  element : VirtQueueElement
  len : Nat
deriving DecidableEq, Repr

/-- `VirtQueue`: the elements the guest has made available, the next one first, and those it got back. -/
structure VirtQueue where
  avail : List VirtQueueElement
  used : List UsedElement
deriving DecidableEq, Repr

/-- A header and a chunk are written into an element. -/
def VirtQueueElement.write (e : VirtQueueElement) (hdr : VirtioVsockHdr) (chunk : List UInt8) :
    VirtQueueElement :=
  { e with inSg := iovFromBuf (iovFromBuf e.inSg 0 (headerBytes hdr)) hdrSize chunk }

/-- The variables of `virtio_vsock_send_packet_host_to_guest` when its loop ends, with the queue. -/
structure SentElements where
  isVqFull : Bool
  needNotify : Bool
  bytesSent : Nat
  vq : VirtQueue

/-- The `do … while (data8_size)` loop. -/
def sendElements (hdr : VirtioVsockHdr) :
    (avail : List VirtQueueElement) → (used : List UsedElement) → List UInt8 → SentElements
  | [], used, _ => ⟨true, false, 0, ⟨[], used⟩⟩
  | e :: avail, used, data8 =>
      if e.size < hdrSize then
        -- it is given back empty, and the `continue` goes to the condition
        let used := used ++ [⟨e, 0⟩]
        if data8.length ≠ 0 then { sendElements hdr avail used data8 with needNotify := true }
        else ⟨false, true, 0, ⟨avail, used⟩⟩
      else
        let chunkSize := min data8.length (e.size - hdrSize)
        let e := e.write { hdr with len := UInt32.ofNat chunkSize } (data8.take chunkSize)
        let used := used ++ [⟨e, hdrSize + chunkSize⟩]
        if (data8.drop chunkSize).length ≠ 0 then
          let r := sendElements hdr avail used (data8.drop chunkSize)
          { r with needNotify := true, bytesSent := chunkSize + r.bytesSent }
        else ⟨false, true, chunkSize, ⟨avail, used⟩⟩

/-- `virtio_vsock_send_packet_host_to_guest`: the answer and the queue. -/
def sendToQueue (guestCid : UInt64) (vq : VirtQueue) (hdr : VirtioVsockHdr) (data : List UInt8) :
    VirtIOVSockSendResult × VirtQueue :=
  let r := sendElements (VirtIOVSock.fillHeader ⟨guestCid, []⟩ hdr) vq.avail vq.used
    (data.take hdr.len.toNat)
  (makeVirtIOVSockSendResult r.isVqFull r.needNotify r.bytesSent, r.vq)

/-! ### What the guest reads -/

/-- The packet in an element that came back: a header and as many bytes as it says. An element with no
room for a header has none. -/
def UsedElement.packet? (u : UsedElement) : Option (VirtioVsockHdr × List UInt8) :=
  if u.element.size < hdrSize then none
  else
    let hdr := parseHeader (u.element.inSg.flatten.take hdrSize)
    some (hdr, (u.element.inSg.flatten.drop hdrSize).take hdr.len.toNat)

/-- An element comes back: at its place, with its segments. -/
structure Returned (e : VirtQueueElement) (u : UsedElement) : Prop where
  index : u.element.index = e.index
  segments : u.element.inSg.map List.length = e.inSg.map List.length
  /-- One that has no room for a header is as it was. -/
  small : e.size < hdrSize → u = ⟨e, 0⟩
  /-- In one that has, the header and the bytes it announces are in use. -/
  len : ¬ e.size < hdrSize → ∃ packet, u.packet? = some packet ∧ u.len = hdrSize + packet.2.length

theorem VirtQueueElement.write_segments (e : VirtQueueElement) (hdr : VirtioVsockHdr) (chunk : List UInt8) :
    (e.write hdr chunk).inSg.map List.length = e.inSg.map List.length := by
  rw [VirtQueueElement.write, iovFromBuf_lengths, iovFromBuf_lengths]

theorem VirtQueueElement.write_size (e : VirtQueueElement) (hdr : VirtioVsockHdr) (chunk : List UInt8) :
    (e.write hdr chunk).size = e.size := by
  rw [VirtQueueElement.size, VirtQueueElement.size, iovSize, iovSize, e.write_segments]

/-- The packet that was written is read. -/
theorem VirtQueueElement.write_packet (e : VirtQueueElement) (hdr : VirtioVsockHdr) {chunk : List UInt8}
    (hsize : hdrSize + chunk.length ≤ e.size) (hlen : hdr.len.toNat = chunk.length) (len : Nat) :
    UsedElement.packet? ⟨e.write hdr chunk, len⟩ = some (hdr, chunk) := by
  have hflat : e.size = e.inSg.flatten.length := iovSize_eq e.inSg
  have hhead := iovFromBuf_flatten e.inSg 0 (headerBytes hdr) (by rw [length_headerBytes]; omega)
  rw [length_headerBytes, List.take_zero, List.nil_append] at hhead
  have hbody := iovFromBuf_flatten (iovFromBuf e.inSg 0 (headerBytes hdr)) hdrSize chunk (by
    rw [hhead, List.length_append, length_headerBytes, List.length_drop]
    omega)
  -- the header is where it was written, and the chunk behind it
  have htake : (headerBytes hdr ++ e.inSg.flatten.drop (0 + hdrSize)).take hdrSize = headerBytes hdr := by
    rw [← length_headerBytes hdr, List.take_left]
  rw [hhead, htake] at hbody
  have hfirst : (e.write hdr chunk).inSg.flatten.take hdrSize = headerBytes hdr := by
    rw [VirtQueueElement.write, hbody, ← length_headerBytes hdr, List.take_left]
  have hrest : ((e.write hdr chunk).inSg.flatten.drop hdrSize).take chunk.length = chunk := by
    rw [VirtQueueElement.write, hbody, ← length_headerBytes hdr, List.drop_left, List.take_left]
  rw [UsedElement.packet?, if_neg (by rw [e.write_size]; omega)]
  simp only [hfirst, parseHeader_headerBytes, hlen, hrest]

/-- A loop on memory has done what a loop on sizes did: the same flags, the same number of bytes, the same
packets; and the elements that were popped came back in order. -/
structure SendsLike (avail : List VirtQueueElement) (used : List UsedElement) (r : SentElements) (l : SendLoop)
    (popped : List VirtQueueElement) (returned : List UsedElement) : Prop where
  avail : avail = popped ++ r.vq.avail
  used : r.vq.used = used ++ returned
  answered : List.Forall₂ Returned popped returned
  packets : returned.filterMap UsedElement.packet? = l.written
  isVqFull : r.isVqFull = l.isVqFull
  needNotify : r.needNotify = l.needNotify
  bytesSent : r.bytesSent = l.bytesSent
  rest : r.vq.avail.map VirtQueueElement.size = l.rest

/-- An element without room for a header comes back as it was. -/
theorem returned_small {e : VirtQueueElement} (hsize : e.size < hdrSize) :
    Returned e ⟨e, 0⟩ ∧ UsedElement.packet? ⟨e, 0⟩ = none :=
  ⟨⟨rfl, rfl, fun _ => rfl, fun h => absurd hsize h⟩, if_pos hsize⟩

/-- One with a packet. -/
theorem returned_packet {e : VirtQueueElement} (hdr : VirtioVsockHdr) {chunk : List UInt8}
    (hsize : hdrSize + chunk.length ≤ e.size) (hlen : hdr.len.toNat = chunk.length) :
    Returned e ⟨e.write hdr chunk, hdrSize + chunk.length⟩ ∧
      UsedElement.packet? ⟨e.write hdr chunk, hdrSize + chunk.length⟩ = some (hdr, chunk) := by
  have hpacket := e.write_packet hdr hsize hlen (hdrSize + chunk.length)
  refine ⟨⟨rfl, e.write_segments hdr chunk, fun h => absurd h (by omega), fun _ => ?_⟩, hpacket⟩
  exact ⟨_, hpacket, rfl⟩

/-- **The loop on memory refines the loop on sizes**, for data of a size that a header can name. -/
theorem sendElements_refines (hdr : VirtioVsockHdr) (avail : List VirtQueueElement) (used : List UsedElement)
    (data8 : List UInt8) (hdata : data8.length < 4294967296) :
    ∃ popped returned, SendsLike avail used (sendElements hdr avail used data8)
      (sendLoop hdr (avail.map VirtQueueElement.size) data8) popped returned := by
  induction avail generalizing used data8 with
  | nil => exact ⟨[], [], rfl, (List.append_nil _).symm, .nil, rfl, rfl, rfl, rfl, rfl⟩
  | cons e avail ih =>
    rw [List.map_cons, sendElements, sendLoop]
    by_cases hsize : e.size < hdrSize
    · obtain ⟨hreturned, hnone⟩ := returned_small hsize
      rw [if_pos hsize, if_pos hsize]
      by_cases hmore : data8.length ≠ 0
      · rw [if_pos hmore, if_pos hmore]
        obtain ⟨popped, returned, h⟩ := ih (used ++ [⟨e, 0⟩]) data8 hdata
        refine ⟨e :: popped, ⟨e, 0⟩ :: returned, congrArg (e :: ·) h.avail, ?_, .cons hreturned h.answered, ?_,
          h.isVqFull, rfl, h.bytesSent, h.rest⟩
        · rw [h.used, List.append_assoc, List.singleton_append]
        · rw [List.filterMap_cons_none hnone]
          exact h.packets
      · rw [if_neg hmore, if_neg hmore]
        refine ⟨[e], [⟨e, 0⟩], rfl, rfl, .cons hreturned .nil, ?_, rfl, rfl, rfl, rfl⟩
        rw [List.filterMap_cons_none hnone]
        rfl
    · rw [if_neg hsize, if_neg hsize]
      dsimp only
      -- the chunk fits into the element behind the header
      have hchunk : (data8.take (min data8.length (e.size - hdrSize))).length =
          min data8.length (e.size - hdrSize) := by
        rw [List.length_take]
        omega
      have hlen : (UInt32.ofNat (min data8.length (e.size - hdrSize))).toNat =
          (data8.take (min data8.length (e.size - hdrSize))).length := by
        rw [hchunk, UInt32.toNat_ofNat']
        omega
      obtain ⟨hreturned, hpacket⟩ := returned_packet (e := e)
        { hdr with len := UInt32.ofNat (min data8.length (e.size - hdrSize)) }
        (by rw [hchunk]; omega) hlen
      rw [hchunk] at hreturned hpacket
      by_cases hmore : (data8.drop (min data8.length (e.size - hdrSize))).length ≠ 0
      · rw [if_pos hmore, if_pos hmore]
        obtain ⟨popped, returned, h⟩ := ih (used ++ [_]) (data8.drop (min data8.length (e.size - hdrSize)))
          (by rw [List.length_drop]; omega)
        refine ⟨e :: popped, _ :: returned, congrArg (e :: ·) h.avail, ?_, .cons hreturned h.answered, ?_,
          h.isVqFull, rfl, congrArg (_ + ·) h.bytesSent, h.rest⟩
        · rw [h.used, List.append_assoc, List.singleton_append]
        · rw [List.filterMap_cons_some hpacket]
          exact congrArg (_ :: ·) h.packets
      · rw [if_neg hmore, if_neg hmore]
        refine ⟨[e], [_], rfl, rfl, .cons hreturned .nil, ?_, rfl, rfl, rfl, rfl⟩
        rw [List.filterMap_cons_some hpacket]
        rfl

/-! ### Fragments -/

/-- The headers differ in their length only, which is that of the chunk behind it. -/
theorem sendLoop_headers (hdr : VirtioVsockHdr) (vq : List Nat) (data8 : List UInt8) :
    ∀ packet ∈ (sendLoop hdr vq data8).written, packet.1 = { hdr with len := UInt32.ofNat packet.2.length } := by
  induction vq generalizing data8 with
  | nil => exact fun _ h => absurd h List.not_mem_nil
  | cons size vq ih =>
    rw [sendLoop]
    by_cases hsize : size < hdrSize
    · rw [if_pos hsize]
      split
      · exact ih data8
      · exact fun _ h => absurd h List.not_mem_nil
    · rw [if_neg hsize]
      have hfirst : (data8.take (min data8.length (size - hdrSize))).length =
          min data8.length (size - hdrSize) := by
        rw [List.length_take]
        omega
      dsimp only
      split
      · refine List.forall_mem_cons.mpr ⟨?_, ih _⟩
        rw [hfirst]
      · refine List.forall_mem_singleton.mpr ?_
        rw [hfirst]

/-- The queue runs dry while there is data left. -/
theorem sendLoop_full (hdr : VirtioVsockHdr) (vq : List Nat) {data8 : List UInt8} (hdata : data8.length ≠ 0)
    (hfull : (sendLoop hdr vq data8).isVqFull = true) : (sendLoop hdr vq data8).bytesSent < data8.length := by
  induction vq generalizing data8 with
  | nil => exact Nat.pos_of_ne_zero hdata
  | cons size vq ih =>
    rw [sendLoop] at hfull ⊢
    by_cases hsize : size < hdrSize
    · rw [if_pos hsize, if_pos hdata] at hfull ⊢
      exact ih hdata hfull
    · rw [if_neg hsize] at hfull ⊢
      dsimp only at hfull ⊢
      by_cases hmore : (data8.drop (min data8.length (size - hdrSize))).length ≠ 0
      · rw [if_pos hmore] at hfull ⊢
        have hrest := ih hmore hfull
        rw [List.length_drop] at hrest hmore
        dsimp only
        omega
      · rw [if_neg hmore] at hfull
        cases hfull

/-- It is full only if nothing is left on it. -/
theorem sendLoop_dry (hdr : VirtioVsockHdr) (vq : List Nat) (data8 : List UInt8)
    (hfull : (sendLoop hdr vq data8).isVqFull = true) : (sendLoop hdr vq data8).rest = [] := by
  induction vq generalizing data8 with
  | nil => rfl
  | cons size vq ih =>
    rw [sendLoop] at hfull ⊢
    by_cases hsize : size < hdrSize
    · rw [if_pos hsize] at hfull ⊢
      by_cases hmore : data8.length ≠ 0
      · rw [if_pos hmore] at hfull ⊢
        exact ih data8 hfull
      · rw [if_neg hmore] at hfull
        cases hfull
    · rw [if_neg hsize] at hfull ⊢
      dsimp only at hfull ⊢
      by_cases hmore : (data8.drop (min data8.length (size - hdrSize))).length ≠ 0
      · rw [if_pos hmore] at hfull ⊢
        exact ih _ hfull
      · rw [if_neg hmore] at hfull
        cases hfull

/-- **Fragments of a packet**, for data of fewer than 2^30 bytes and any receive queue. The guest gets every
element that was popped back, once, in order and with its own segments. Those with no room for a header come
back as they were; each of the others holds a header and the number of bytes it announces, and these
chunks are the beginning of the data. The answer has their total length, and says
that the queue is full exactly if that is not all of the data; then no element is left. -/
theorem send_fragments (guestCid : UInt64) (vq : VirtQueue) (hdr : VirtioVsockHdr) (data : List UInt8)
    (hpos : 0 < hdr.len.toNat) (hfits : hdr.len.toNat < 1073741824) (hdata : hdr.len.toNat ≤ data.length) :
    ∃ (popped : List VirtQueueElement) (returned : List UsedElement) (chunks : List (List UInt8)),
      vq.avail = popped ++ (sendToQueue guestCid vq hdr data).2.avail ∧
      (sendToQueue guestCid vq hdr data).2.used = vq.used ++ returned ∧
      List.Forall₂ Returned popped returned ∧
      returned.filterMap UsedElement.packet? = chunks.map (fun chunk =>
        ({ VirtIOVSock.fillHeader ⟨guestCid, []⟩ hdr with len := UInt32.ofNat chunk.length }, chunk)) ∧
      chunks.flatten = data.take (virtIOVSockSentSize (sendToQueue guestCid vq hdr data).1) ∧
      virtIOVSockSentSize (sendToQueue guestCid vq hdr data).1 = (chunks.map List.length).sum ∧
      (virtIOVSockSendIsVqFull (sendToQueue guestCid vq hdr data).1 = true ↔
        virtIOVSockSentSize (sendToQueue guestCid vq hdr data).1 < hdr.len.toNat) ∧
      (virtIOVSockSendIsVqFull (sendToQueue guestCid vq hdr data).1 = true →
        (sendToQueue guestCid vq hdr data).2.avail = []) := by
  have hlength : (data.take hdr.len.toNat).length = hdr.len.toNat := by
    rw [List.length_take]
    omega
  obtain ⟨popped, returned, h⟩ := sendElements_refines (VirtIOVSock.fillHeader ⟨guestCid, []⟩ hdr)
    vq.avail vq.used (data.take hdr.len.toNat) (by omega)
  obtain ⟨hpayload, hle, hall⟩ := sendLoop_payload (VirtIOVSock.fillHeader ⟨guestCid, []⟩ hdr)
    (vq.avail.map VirtQueueElement.size) (data.take hdr.len.toNat)
  have hheaders := sendLoop_headers (VirtIOVSock.fillHeader ⟨guestCid, []⟩ hdr)
    (vq.avail.map VirtQueueElement.size) (data.take hdr.len.toNat)
  have hfull := sendLoop_full (VirtIOVSock.fillHeader ⟨guestCid, []⟩ hdr)
    (vq.avail.map VirtQueueElement.size) (by rw [hlength]; omega)
  have hdry := sendLoop_dry (VirtIOVSock.fillHeader ⟨guestCid, []⟩ hdr)
    (vq.avail.map VirtQueueElement.size) (data.take hdr.len.toNat)
  generalize sendLoop (VirtIOVSock.fillHeader ⟨guestCid, []⟩ hdr) (vq.avail.map VirtQueueElement.size)
    (data.take hdr.len.toNat) = l at h hpayload hle hall hheaders hfull hdry
  rw [hlength] at hle hall hfull
  -- the answer is exact, since the number of bytes fits
  have hsent : virtIOVSockSentSize (sendToQueue guestCid vq hdr data).1 = l.bytesSent := by
    rw [sendToQueue, virtIOVSockSentSize_make, h.bytesSent]
    omega
  have hchunks : (l.written.map Prod.snd).flatten = data.take l.bytesSent := by
    rw [← List.flatMap_def, hpayload, List.take_take, Nat.min_eq_left hle]
  refine ⟨popped, returned, l.written.map Prod.snd, h.avail, h.used, h.answered, ?_, ?_, ?_, ?_, ?_⟩
  · rw [h.packets, List.map_map]
    refine (List.map_id _).symm.trans (List.map_congr_left fun packet hpacket => ?_)
    exact Prod.ext (hheaders packet hpacket) rfl
  · rw [hsent, hchunks]
  · rw [hsent, ← List.length_flatten, hchunks, List.length_take]
    omega
  · rw [hsent, sendToQueue, virtIOVSockSendIsVqFull_make, h.isVqFull]
    constructor
    · exact hfull
    · intro hless
      cases hvq : l.isVqFull with
      | true => rfl
      | false => exact absurd (hall hvq) (by omega)
  · rw [sendToQueue, virtIOVSockSendIsVqFull_make, h.isVqFull]
    intro hvq
    exact List.map_eq_nil_iff.mp (h.rest.trans (hdry hvq))

/-- Three bytes for an element that is too small, one with room for two bytes, and one for more. -/
theorem send_fragments_small :
    0 < (3 : UInt32).toNat ∧ (3 : UInt32).toNat < 1073741824 ∧ (3 : UInt32).toNat ≤ [(7 : UInt8), 8, 9].length ∧
    ∃ popped returned,
      (⟨[⟨0, [[0]]⟩, ⟨1, [List.replicate 46 0]⟩, ⟨2, [List.replicate 40 0, List.replicate 60 0]⟩], []⟩ :
        VirtQueue).avail = popped ++ (sendToQueue 3 ⟨[⟨0, [[0]]⟩, ⟨1, [List.replicate 46 0]⟩,
          ⟨2, [List.replicate 40 0, List.replicate 60 0]⟩], []⟩
          (preparePacketHeader 1 2 .rw 0 3) [7, 8, 9]).2.avail ∧ List.Forall₂ Returned popped returned := by
  obtain ⟨popped, returned, -, havail, -, hreturned, -⟩ := send_fragments 3
    ⟨[⟨0, [[0]]⟩, ⟨1, [List.replicate 46 0]⟩, ⟨2, [List.replicate 40 0, List.replicate 60 0]⟩], []⟩
    (preparePacketHeader 1 2 .rw 0 3) [7, 8, 9] (by decide) (by decide) (by decide)
  exact ⟨by decide, by decide, by decide, popped, returned, havail, hreturned⟩

end Goldfish.Vsock
