import Goldfish.Vsock.Life

/-!
# Goldfish.Vsock.Gather

**Scatter-gather independence.** A packet from the guest arrives as an `iovec` list,
and `virtio_vsock_parse_guest_to_host` hands its data on segment by segment. What it
does is a function of the bytes:

* a byte string that is no packet changes nothing (`parse_of_not_packet`);
* the calls of `onReceive` are the segments of the payload, up to the first that is
  refused (`parse_handed`);
* a plug that accepts everything gets the same bytes from every way of splitting the
  packet, and the device ends in the same state (`parse_split`).

The state is compared without the history (`World.forget`), in which the segments are
still visible.
-/

namespace Goldfish.Vsock

open Goldfish.Lib

variable {P : Type}

/-! ### Packets -/

/-- The header of a packet. -/
def packetHeader (packet : List UInt8) : VirtioVsockHdr := parseHeader (packet.take hdrSize)

/-- The data of a packet: the `len` bytes after the header. -/
def packetPayload (packet : List UInt8) : List UInt8 :=
  (packet.drop hdrSize).take (packetHeader packet).len.toNat

/-- A complete packet of a stream, from this guest to the host. -/
structure IsGuestPacket (guestCid : UInt64) (packet : List UInt8) : Prop where
  header : hdrSize ≤ packet.length
  payload : hdrSize + (packetHeader packet).len.toNat ≤ packet.length
  type : (packetHeader packet).type = virtioVsockTypeStream
  dstCid : (packetHeader packet).dstCid = vmaddrCidHost
  srcCid : (packetHeader packet).srcCid = guestCid

section Parse

variable {api : GoldfishVirtIOVSockDevAPI VirtIOVSock} {cb : Callbacks P}
  {w : World VirtIOVSock P} {iov : List (List UInt8)}

theorem IsGuestPacket.payload_length {guestCid : UInt64} {packet : List UInt8}
    (h : IsGuestPacket guestCid packet) :
    (packetPayload packet).length = (packetHeader packet).len.toNat := by
  have hlen := h.payload
  rw [packetPayload, List.length_take, List.length_drop]
  omega

theorem parseHeader_iovToBuf :
    parseHeader (iovToBuf iov 0 hdrSize) = packetHeader iov.flatten := by
  rw [packetHeader, iovToBuf, List.drop_zero]

/-- Everything that is not a packet is dropped. -/
theorem parse_of_not_packet (h : ¬ IsGuestPacket w.vq.guestCid iov.flatten) :
    virtioVsockParseGuestToHost api cb w iov = .ok w := by
  unfold virtioVsockParseGuestToHost
  simp only [parseHeader_iovToBuf, iovSize_eq]
  by_cases hheader : iov.flatten.length < hdrSize
  · rw [if_pos hheader]
  rw [if_neg hheader]
  by_cases hpayload : iov.flatten.length < hdrSize + (packetHeader iov.flatten).len.toNat
  · rw [if_pos hpayload]
  rw [if_neg hpayload]
  by_cases htype : (packetHeader iov.flatten).type ≠ virtioVsockTypeStream
  · rw [if_pos htype]
  rw [if_neg htype]
  by_cases hdst : (packetHeader iov.flatten).dstCid ≠ vmaddrCidHost
  · rw [if_pos hdst]
  rw [if_neg hdst]
  by_cases hsrc : (packetHeader iov.flatten).srcCid ≠ w.vq.guestCid
  · rw [if_pos hsrc]
  · exact absurd ⟨not_lt.mp hheader, not_lt.mp hpayload, not_not.mp htype, not_not.mp hdst,
      not_not.mp hsrc⟩ h

/-- A packet goes to one of two handlers, with its header and the pieces of its payload. -/
theorem parse_of_packet (h : IsGuestPacket w.vq.guestCid iov.flatten) :
    virtioVsockParseGuestToHost api cb w iov =
      if (packetHeader iov.flatten).op ≠ VirtioVsockOp.rw.code then
        onPacketReceiveControl api cb w (packetHeader iov.flatten)
      else onPacketReceiveRwPacket api cb w (packetHeader iov.flatten)
        (payloadPieces iov (packetHeader iov.flatten).len.toNat hdrSize) := by
  unfold virtioVsockParseGuestToHost
  simp only [parseHeader_iovToBuf, iovSize_eq]
  rw [if_neg (not_lt.mpr h.header), if_neg (not_lt.mpr h.payload), if_neg (not_not.mpr h.type),
    if_neg (not_not.mpr h.dstCid), if_neg (not_not.mpr h.srcCid)]
  split
  · rfl
  · simp only [onPacketReceiveRwPacket, receiveIovec_eq]
    rcases onPacketReceiveRwStart w (packetHeader iov.flatten) with ⟨_ | ref, w₁⟩ <;> rfl

end Parse

/-! ### What is handed to the plug -/

section Handed

variable {σ : Type}

/-- The call of `onReceive` in an event. -/
def Event.hands : Event σ P → Option (Ref × List UInt8)
  | .onReceive s _ data => some (s, data)
  | _ => none

/-- The calls of `onReceive` so far: for which stream, and with which data. -/
def handed (log : List (Event σ P)) : List (Ref × List UInt8) := log.filterMap Event.hands

/-- The bytes the plugs of a stream have received. -/
def receivedBytes (ref : Ref) (log : List (Event σ P)) : List UInt8 :=
  (handed log).flatMap fun call => if call.1 = ref then call.2 else []

@[simp] theorem handed_append {log es : List (Event σ P)} :
    handed (log ++ es) = handed log ++ handed es := List.filterMap_append

theorem receivedBytes_of_handed {log log' : List (Event σ P)} {ref : Ref}
    {pieces : List (List UInt8)} (h : handed log' = handed log ++ pieces.map (ref, ·)) (ref' : Ref) :
    receivedBytes ref' log' =
      receivedBytes ref' log ++ if ref = ref' then pieces.flatten else [] := by
  rw [receivedBytes, h, List.flatMap_append, List.flatMap_map]
  by_cases href : ref = ref'
  · simp only [if_pos href]
    rw [List.flatMap_id']
    rfl
  · simp only [if_neg href]
    rw [List.flatMap_eq_nil_iff.mpr fun _ _ => rfl]
    rfl

theorem handed_of_silent {es : List (Event σ P)} (h : ∀ e ∈ es, e.isCallback = false) :
    handed es = [] := by
  refine List.filterMap_eq_nil_iff.mpr fun e he => ?_
  have := h e he
  cases e with
  | onReceive _ _ _ => simp [Event.isCallback] at this
  | _ => rfl

/-- The pieces of a packet up to the first that is refused. -/
def upToRefusal (accepts : Nat → Bool) : Nat → List (List UInt8) → List (List UInt8)
  | _, [] => []
  | i, data :: rest => data :: if accepts i then upToRefusal accepts (i + 1) rest else []

theorem upToRefusal_initial (accepts : Nat → Bool) :
    ∀ (i : Nat) (pieces : List (List UInt8)), upToRefusal accepts i pieces <+: pieces
  | _, [] => List.prefix_refl _
  | i, data :: rest => by
      unfold upToRefusal
      split
      · exact List.prefix_cons_inj data |>.mpr (upToRefusal_initial accepts (i + 1) rest)
      · exact ⟨rest, rfl⟩

theorem upToRefusal_of_accepts {accepts : Nat → Bool} (h : ∀ i, accepts i = true) :
    ∀ (i : Nat) (pieces : List (List UInt8)), upToRefusal accepts i pieces = pieces
  | _, [] => rfl
  | i, data :: rest => by rw [upToRefusal, if_pos (h i), upToRefusal_of_accepts h]

/-- What the calls of a callback leave behind: no further callback in the history, and no
stream disconnected. -/
structure Calls (w w' : World σ P) : Prop where
  wf : w'.Wf
  nextRef : w.nextRef ≤ w'.nextRef
  silent : handed w'.log = handed w.log
  connected : ∀ t ∈ w'.mStreams, t.ref < w.nextRef → ∃ s ∈ w.mStreams, s.ref = t.ref ∧
    (s.isConnected = true → t.isConnected = true)

variable {api : GoldfishVirtIOVSockDevAPI σ} {cb : Callbacks P} {w w' : World σ P}

theorem HostAtom.calls {mode : Mode} (h : HostAtom api mode w w') (hmode : mode.quiet = false)
    (hw : w.Wf) : Calls w w' := by
  obtain ⟨es, hlog, hsilent⟩ := h.silent
  obtain ⟨_, htouched⟩ := h.turn hw (by simp [hmode])
  refine ⟨h.wf hw, h.nextRef_le, ?_, fun t ht hold => ?_⟩
  · rw [hlog, handed_append, handed_of_silent hsilent, List.append_nil]
  · rcases htouched.streams t ht with ⟨ht, -⟩ | ⟨s, hs, href, hturn⟩ | ⟨hnew, -⟩
    · exact ⟨t, ht, rfl, id⟩
    · exact ⟨s, hs, href, hturn.isConnected⟩
    · exact absurd hold (hnew ▸ lt_irrefl _)

theorem Calls.trans {w₁ w₂ : World σ P} (h₁ : Calls w w₁) (h₂ : Calls w₁ w₂) : Calls w w₂ where
  wf := h₂.wf
  nextRef := h₁.nextRef.trans h₂.nextRef
  silent := h₂.silent.trans h₁.silent
  connected t ht hold := by
    obtain ⟨s, hs, href, hconn⟩ := h₂.connected t ht (hold.trans_le h₁.nextRef)
    obtain ⟨s', hs', href', hconn'⟩ := h₁.connected s hs (href ▸ hold)
    exact ⟨s', hs', href'.trans href, fun h => hconn (hconn' h)⟩

theorem hostOps_calls (hw : w.Wf) {ops : List (HostOp P)} (h : hostOps api w ops = .ok w') :
    Calls w w' := by
  have hatoms : HostAtoms api {} w w' := hostOps_atoms hw (by simp) (by simp) h
  refine star_invariant (I := Calls w) (fun v v' hatom hv => ?_) hatoms
    ⟨hw, le_rfl, rfl, fun t ht _ => ⟨t, ht, rfl, id⟩⟩
  exact hv.trans (hatom.calls rfl hv.wf)

/-- A stream that was connected before the calls, if it is still there. -/
theorem Calls.isConnected (h : Calls w w') (hw : w.Wf) {s t : VsockStream P} (hs : s ∈ w.mStreams)
    (hconn : s.isConnected = true) (ht : t ∈ w'.mStreams) (href : t.ref = s.ref) :
    t.isConnected = true := by
  obtain ⟨s', hs', href', hconn'⟩ := h.connected t ht (href ▸ hw.ref_lt s hs)
  exact hconn' (hw.ref_inj s' hs' s hs (href'.trans href) ▸ hconn)

theorem handed_updateGuestCounters (w : World σ P) (ref : Ref) (hdr : VirtioVsockHdr) :
    handed (updateGuestCounters w ref hdr).log = handed w.log := by
  rw [updateGuestCounters_log, handed_append]
  simp [handed, Event.hands]

/-- A stream that is taken down gets no more data. -/
theorem recycleStreamLocked_handed (hw : w.Wf) {ref : Ref} {op : VirtioVsockOp}
    (h : recycleStreamLocked api cb w ref op = .ok w') : handed w'.log = handed w.log := by
  simp only [recycleStreamLocked, bind_eq_ok, notNull_eq_ok, pure_eq_ok] at h
  obtain ⟨s, -, p, -, w₁, hops, t, -, w₂, hrecycle, rfl⟩ := h
  have hcalls := (hostOps_calls hw.emit hops).silent
  rw [erase_log, recycleStreamQuietly_log hrecycle, handed_append, handed_append, hcalls]
  split <;> simp [handed, Event.hands]

/-- One piece for a connected stream is handed over, and kept or refused. -/
theorem onPacketReceiveRw_handed (hw : w.Wf) {s : VsockStream P} (hs : s ∈ w.mStreams)
    (hconn : s.isConnected = true) {answer : List (HostOp P) × Bool} {data : List UInt8}
    {eraseStream : Bool}
    (h : onPacketReceiveRw api answer w s.ref data = .ok (eraseStream, w')) :
    eraseStream = !answer.2 ∧ handed w'.log = handed w.log ++ [(s.ref, data)] ∧ w'.Wf ∧
      (answer.2 = true → ∃ t ∈ w'.mStreams, t.ref = s.ref ∧ t.isConnected = true) := by
  simp only [onPacketReceiveRw, hw.deref_eq hs, ok_bind, hconn, if_true, bind_eq_ok,
    notNull_eq_ok] at h
  obtain ⟨p, -, w₁, hops, h⟩ := h
  have hsniff : (w.sniff s.dataSniffer (.toPlug · data)).Wf ∧
      handed (w.sniff s.dataSniffer (.toPlug · data)).log = handed w.log ∧
      (w.sniff s.dataSniffer (.toPlug · data)).mStreams = w.mStreams := by
    cases s.dataSniffer with
    | none => exact ⟨hw, rfl, rfl⟩
    | some i => exact ⟨hw.emit, by simp [World.sniff, handed, Event.hands], rfl⟩
  obtain ⟨hw₀, hlog₀, hstreams₀⟩ := hsniff
  have hcalls := hostOps_calls hw₀.emit hops
  have hlog₁ : handed w₁.log = handed w.log ++ [(s.ref, data)] := by
    rw [hcalls.silent, World.emit_log, handed_append, hlog₀]
    rfl
  cases hanswer : answer.2 with
  | true =>
      simp only [hanswer, if_true, bind_eq_ok, pure_eq_ok, Prod.mk.injEq] at h
      obtain ⟨t, ht, rfl, rfl⟩ := h
      obtain ⟨hmem, href⟩ := World.mem_of_deref ht
      have htconn : t.isConnected = true :=
        hcalls.isConnected hw₀.emit (by rw [World.emit_mStreams, hstreams₀]; exact hs) hconn hmem href
      refine ⟨rfl, ?_, hcalls.wf.modify.sendOp, fun _ => ?_⟩
      · rw [sendOp_log, handed_append, World.modify_log, hlog₁]
        simp [handed, Event.hands]
      · rw [← href]
        exact ⟨_, (updated_afterReceive hcalls.wf hmem data).mem, rfl, htconn⟩
  | false =>
      simp only [hanswer, Bool.false_eq_true, if_false, pure_eq_ok, Prod.mk.injEq] at h
      obtain ⟨rfl, rfl⟩ := h
      refine ⟨rfl, ?_, hcalls.wf.emit, by simp⟩
      rw [World.emit_log, handed_append, hlog₁]
      simp [handed, Event.hands]

/-- The loop hands over the pieces up to the first that is refused. -/
theorem receivePieces_handed :
    ∀ (pieces : List (List UInt8)) (i : Nat) {w w' : World σ P} {eraseStream : Bool}
      {s : VsockStream P}, w.Wf → s ∈ w.mStreams → s.isConnected = true →
      receivePieces api cb s.ref i pieces w = .ok (eraseStream, w') →
      w'.Wf ∧ handed w'.log = handed w.log ++
        (upToRefusal (fun i => (cb.onReceive i).2) i pieces).map (s.ref, ·)
  | [], i, w, w', _, s, hw, _, _, h => by
      simp only [receivePieces, pure_eq_ok, Prod.mk.injEq] at h
      obtain ⟨-, rfl⟩ := h
      exact ⟨hw, (List.append_nil _).symm⟩
  | data :: rest, i, w, w', _, s, hw, hs, hconn, h => by
      simp only [receivePieces, bind_eq_ok] at h
      obtain ⟨⟨eraseStream, w₁⟩, hone, h⟩ := h
      obtain ⟨rfl, hlog₁, hw₁, hlive⟩ := onPacketReceiveRw_handed hw hs hconn hone
      unfold upToRefusal
      cases hanswer : (cb.onReceive i).2 with
      | false =>
          simp only [hanswer, Bool.not_false, if_true, pure_eq_ok, Prod.mk.injEq] at h
          obtain ⟨-, rfl⟩ := h
          exact ⟨hw₁, hlog₁⟩
      | true =>
          simp only [hanswer, Bool.not_true, Bool.false_eq_true, if_false] at h
          obtain ⟨t, ht, href, htconn⟩ := hlive hanswer
          rw [← href] at h hlog₁ ⊢
          obtain ⟨hw', hlog'⟩ := receivePieces_handed rest (i + 1) hw₁ ht htconn h
          refine ⟨hw', ?_⟩
          rw [hlog', hlog₁, List.append_assoc]
          rfl

end Handed

/-! ### A plug that accepts everything -/

section Accept

variable {σ : Type}

/-- A device without its history. -/
def World.forget (w : World σ P) : World σ P := { w with log := [] }

/-- The device after a plug took `size` bytes. -/
def World.afterTake (w : World σ P) (ref : Ref) (size : Nat) : World σ P :=
  w.modify ref fun s =>
    { s with
      hostFwdCnt := s.hostFwdCnt + UInt32.ofNat size
      sendOpMask := s.sendOpMask ||| VirtioVsockOp.creditUpdate.bit }

theorem afterTake_afterTake {w : World σ P} {ref : Ref} {m n : Nat} :
    (w.afterTake ref m).afterTake ref n = w.afterTake ref (m + n) := by
  unfold World.afterTake
  rw [World.modify_modify]
  refine World.modify_congr fun s _ _ => ?_
  simp only [UInt32.ofNat_add, UInt32.add_assoc, UInt8.or_assoc, UInt8.or_self]

theorem mem_afterTake {w : World σ P} {s : VsockStream P} (hs : s ∈ w.mStreams) (n : Nat) :
    { s with
      hostFwdCnt := s.hostFwdCnt + UInt32.ofNat n
      sendOpMask := s.sendOpMask ||| VirtioVsockOp.creditUpdate.bit } ∈
        (w.afterTake s.ref n).mStreams :=
  World.mem_modify_iff.mpr (Or.inr ⟨s, hs, rfl, rfl⟩)

theorem forget_afterTake {w : World σ P} {ref : Ref} {n : Nat} :
    (w.afterTake ref n).forget = w.forget.afterTake ref n := rfl

theorem mStreams_eq_of_forget {w w' : World σ P} (h : w.forget = w'.forget) :
    w.mStreams = w'.mStreams := by
  have := congrArg World.mStreams h
  exact this

theorem World.Wf.of_forget {w w' : World σ P} (hw : w.Wf) (h : w'.forget = w.forget) : w'.Wf := by
  have hnext := congrArg World.nextRef h
  exact hw.congr (mStreams_eq_of_forget h) hnext

variable {api : GoldfishVirtIOVSockDevAPI σ} {cb : Callbacks P} {w : World σ P}
  {s : VsockStream P}

theorem onPacketReceiveRw_accept (hw : w.Wf) (hs : s ∈ w.mStreams) (hconn : s.isConnected = true)
    (hplug : s.plug.isSome = true) (data : List UInt8) :
    ∃ w', onPacketReceiveRw api ([], true) w s.ref data = .ok (false, w') ∧
      w'.forget = (w.afterTake s.ref data.length).forget := by
  obtain ⟨p, hp⟩ := Option.isSome_iff_exists.mp hplug
  have hsniff : (w.sniff s.dataSniffer (.toPlug · data)).forget = w.forget := by
    cases s.dataSniffer <;> rfl
  generalize hw₀ : w.sniff s.dataSniffer (.toPlug · data) = w₀ at hsniff
  have hstreams : w₀.mStreams = w.mStreams := mStreams_eq_of_forget hsniff
  have hderef : (w₀.emit (.onReceive s.ref p data)).deref s.ref = .ok s := by
    rw [← hw.deref_eq hs]
    simp only [World.deref, World.emit_mStreams, hstreams]
  refine ⟨(w₀.emit (.onReceive s.ref p data)).afterReceive s.ref data, ?_, ?_⟩
  · simp only [onPacketReceiveRw, hw.deref_eq hs, ok_bind, hconn, if_true, hw₀, hp, notNull, hostOps,
      List.foldlM_nil, pure_def, hderef]
    rfl
  · have hforget : ((w₀.emit (.onReceive s.ref p data)).afterReceive s.ref data).forget =
        (w₀.forget.afterTake s.ref data.length).forget := by
      unfold World.afterReceive World.sendOp World.afterTake
      rw [World.modify_modify]
      rfl
    rw [hforget, hsniff]
    rfl

/-- All pieces are taken, and only their total size shows in the device. -/
theorem receivePieces_accept (haccept : ∀ i, cb.onReceive i = ([], true)) :
    ∀ (pieces : List (List UInt8)) (i : Nat) {w : World σ P} {s : VsockStream P}, w.Wf →
      s ∈ w.mStreams → s.isConnected = true → s.plug.isSome = true → pieces ≠ [] →
      ∃ w', receivePieces api cb s.ref i pieces w = .ok (false, w') ∧
        w'.forget = (w.afterTake s.ref pieces.flatten.length).forget
  | [], _, _, _, _, _, _, _, hne => absurd rfl hne
  | data :: rest, i, w, s, hw, hs, hconn, hplug, _ => by
      obtain ⟨w₁, hone, hforget⟩ :
          ∃ w₁, onPacketReceiveRw api ([], true) w s.ref data = .ok (false, w₁) ∧ _ :=
        onPacketReceiveRw_accept hw hs hconn hplug data
      have hfirst : receivePieces api cb s.ref i (data :: rest) w =
          receivePieces api cb s.ref (i + 1) rest w₁ := by
        simp only [receivePieces, haccept i, hone, ok_bind]
        rfl
      by_cases hrest : rest = []
      · subst hrest
        refine ⟨w₁, hfirst, ?_⟩
        rw [hforget, List.flatten_cons, List.flatten_nil, List.append_nil]
      · have hw₁ : w₁.Wf := World.Wf.of_forget hw.modify hforget
        have hs₁ := mem_afterTake hs data.length
        rw [← mStreams_eq_of_forget hforget] at hs₁
        obtain ⟨w', hpieces, hforget'⟩ :=
          receivePieces_accept haccept rest (i + 1) hw₁ hs₁ hconn hplug hrest
        refine ⟨w', hfirst.trans hpieces, hforget'.trans ?_⟩
        rw [forget_afterTake, hforget, ← forget_afterTake, afterTake_afterTake, List.flatten_cons,
          List.length_append]

end Accept

/-! ### Splits of one packet -/

section Split

variable {api : GoldfishVirtIOVSockDevAPI VirtIOVSock} {cb : Callbacks P}
  {w : World VirtIOVSock P} {iov : List (List UInt8)} {s : VsockStream P}

/-- The pieces of a packet's data, as the segments have it. -/
def packetPieces (iov : List (List UInt8)) : List (List UInt8) :=
  payloadPieces iov (packetHeader iov.flatten).len.toNat hdrSize

theorem flatten_packetPieces : (packetPieces iov).flatten = packetPayload iov.flatten :=
  flatten_payloadPieces _ _ _

/-- There are pieces exactly if there is data. -/
theorem packetPieces_eq_nil : packetPieces iov = [] ↔ packetPayload iov.flatten = [] := by
  rw [← flatten_packetPieces]
  constructor
  · intro h
    rw [h]
    rfl
  · intro h
    cases hpieces : packetPieces iov with
    | nil => rfl
    | cons piece rest =>
        have hne := payloadPieces_ne_nil iov (packetHeader iov.flatten).len.toNat hdrSize piece
          (by change piece ∈ packetPieces iov; rw [hpieces]; exact List.mem_cons_self)
        rw [hpieces, List.flatten_cons, List.append_eq_nil_iff] at h
        exact absurd h.1 hne

/-- A RW packet for a stream that is there. -/
theorem parse_rw (hpacket : IsGuestPacket w.vq.guestCid iov.flatten)
    (hrw : (packetHeader iov.flatten).op = VirtioVsockOp.rw.code)
    (hfind : w.mStreams.find? ⟨(packetHeader iov.flatten).srcPort,
      (packetHeader iov.flatten).dstPort⟩ = some s) :
    virtioVsockParseGuestToHost api cb w iov = (do
      let (eraseStream, w) ← receivePieces api cb s.ref 0 (packetPieces iov)
        (updateGuestCounters w s.ref (packetHeader iov.flatten))
      onPacketReceiveRwEnd api cb w s.ref eraseStream) := by
  rw [parse_of_packet hpacket, if_neg (not_not.mpr hrw), onPacketReceiveRwPacket,
    onPacketReceiveRwStart, hfind]
  rfl

/-- The calls of `onReceive` for a packet. -/
theorem parse_handed (hw : w.Wf) (hpacket : IsGuestPacket w.vq.guestCid iov.flatten)
    (hrw : (packetHeader iov.flatten).op = VirtioVsockOp.rw.code)
    (hfind : w.mStreams.find? ⟨(packetHeader iov.flatten).srcPort,
      (packetHeader iov.flatten).dstPort⟩ = some s) (hconn : s.isConnected = true)
    {w' : World VirtIOVSock P} (h : virtioVsockParseGuestToHost api cb w iov = .ok w') :
    handed w'.log = handed w.log ++
      (upToRefusal (fun i => (cb.onReceive i).2) 0 (packetPieces iov)).map (s.ref, ·) := by
  rw [parse_rw hpacket hrw hfind, bind_eq_ok] at h
  obtain ⟨⟨eraseStream, w₁⟩, hpieces, hend⟩ := h
  have hs := (updated_updateGuestCounters hw (StdSet.mem_of_find? hfind).1
    (packetHeader iov.flatten)).mem
  obtain ⟨hw₁, hlog₁⟩ := receivePieces_handed (packetPieces iov) 0 hw.updateGuestCounters hs hconn
    hpieces
  rw [handed_updateGuestCounters] at hlog₁
  cases eraseStream with
  | false =>
      obtain rfl : w₁ = w' := by simpa [onPacketReceiveRwEnd] using hend
      exact hlog₁
  | true =>
      rw [recycleStreamLocked_handed hw₁ (by simpa [onPacketReceiveRwEnd] using hend)]
      exact hlog₁

/-- The device after a packet for a connected stream whose plug accepts everything. -/
def World.afterPacket (w : World VirtIOVSock P) (ref : Ref) (packet : List UInt8) :
    World VirtIOVSock P :=
  let w := updateGuestCounters w ref (packetHeader packet)
  if packetPayload packet = [] then w else w.afterTake ref (packetPayload packet).length

theorem exists_mem_afterPacket (hw : w.Wf) (hs : s ∈ w.mStreams) (packet : List UInt8) :
    ∃ s' ∈ (w.afterPacket s.ref packet).mStreams, s'.ref = s.ref ∧
      s'.hostFwdCnt = s.hostFwdCnt + UInt32.ofNat (packetPayload packet).length := by
  have hcounters := (updated_updateGuestCounters hw hs (packetHeader packet)).mem
  unfold World.afterPacket
  by_cases hnil : packetPayload packet = []
  · simp only [if_pos hnil]
    refine ⟨_, hcounters, rfl, ?_⟩
    rw [hnil]
    exact (UInt32.add_zero _).symm
  · simp only [if_neg hnil]
    exact ⟨_, mem_afterTake hcounters _, rfl, rfl⟩

theorem parse_accept (hw : w.Wf) (hplug : s.plug.isSome = true)
    (haccept : ∀ i, cb.onReceive i = ([], true))
    (hpacket : IsGuestPacket w.vq.guestCid iov.flatten)
    (hrw : (packetHeader iov.flatten).op = VirtioVsockOp.rw.code)
    (hfind : w.mStreams.find? ⟨(packetHeader iov.flatten).srcPort,
      (packetHeader iov.flatten).dstPort⟩ = some s) (hconn : s.isConnected = true) :
    ∃ w', virtioVsockParseGuestToHost api cb w iov = .ok w' ∧
      w'.forget = (w.afterPacket s.ref iov.flatten).forget := by
  have hs := (updated_updateGuestCounters hw (StdSet.mem_of_find? hfind).1
    (packetHeader iov.flatten)).mem
  rw [parse_rw hpacket hrw hfind]
  unfold World.afterPacket
  by_cases hnil : packetPayload iov.flatten = []
  · rw [packetPieces_eq_nil.mpr hnil, if_pos hnil]
    exact ⟨_, rfl, rfl⟩
  · rw [if_neg hnil, ← flatten_packetPieces]
    obtain ⟨w', hpieces, hforget⟩ := receivePieces_accept haccept (packetPieces iov) 0
      hw.updateGuestCounters hs hconn hplug (mt packetPieces_eq_nil.mp hnil)
    refine ⟨w', ?_, hforget⟩
    rw [hpieces]
    rfl

/-- A stream that is not connected takes no data and is shut down. -/
theorem parse_unconnected (hw : w.Wf) (hpacket : IsGuestPacket w.vq.guestCid iov.flatten)
    (hrw : (packetHeader iov.flatten).op = VirtioVsockOp.rw.code)
    (hfind : w.mStreams.find? ⟨(packetHeader iov.flatten).srcPort,
      (packetHeader iov.flatten).dstPort⟩ = some s) (hconn : s.isConnected = false) :
    virtioVsockParseGuestToHost api cb w iov =
      onPacketReceiveRwEnd api cb (updateGuestCounters w s.ref (packetHeader iov.flatten)) s.ref
        (!(packetPayload iov.flatten).isEmpty) := by
  have hs := (updated_updateGuestCounters hw (StdSet.mem_of_find? hfind).1
    (packetHeader iov.flatten)).mem
  rw [parse_rw hpacket hrw hfind]
  cases hpieces : packetPieces iov with
  | nil =>
      rw [packetPieces_eq_nil.mp hpieces]
      rfl
  | cons data rest =>
      have hne : packetPayload iov.flatten ≠ [] := by
        rw [Ne, ← packetPieces_eq_nil, hpieces]
        exact List.cons_ne_nil _ _
      have hderef := hw.updateGuestCounters.deref_eq hs
      rw [List.isEmpty_eq_false_iff.mpr hne]
      simp only [receivePieces, onPacketReceiveRw, hderef, ok_bind, hconn]
      rfl

/-- Where no data is handed over, the bytes decide what happens, whatever the plug does. -/
theorem parse_congr (hw : w.Wf) {iov' : List (List UInt8)} (hsame : iov'.flatten = iov.flatten)
    (hno : IsGuestPacket w.vq.guestCid iov.flatten →
      (packetHeader iov.flatten).op = VirtioVsockOp.rw.code →
      ∀ s, w.mStreams.find? ⟨(packetHeader iov.flatten).srcPort,
        (packetHeader iov.flatten).dstPort⟩ = some s → s.isConnected = false) :
    virtioVsockParseGuestToHost api cb w iov' = virtioVsockParseGuestToHost api cb w iov := by
  by_cases hpacket : IsGuestPacket w.vq.guestCid iov.flatten
  · by_cases hrw : (packetHeader iov.flatten).op = VirtioVsockOp.rw.code
    · cases hfind : w.mStreams.find? ⟨(packetHeader iov.flatten).srcPort,
          (packetHeader iov.flatten).dstPort⟩ with
      | none =>
          have hnone : ∀ iov'', iov''.flatten = iov.flatten →
              virtioVsockParseGuestToHost api cb w iov'' = .ok w := by
            intro iov'' heq
            rw [parse_of_packet (heq ▸ hpacket), heq, if_neg (not_not.mpr hrw),
              onPacketReceiveRwPacket, onPacketReceiveRwStart, hfind]
          rw [hnone iov' hsame, hnone iov rfl]
      | some s =>
          have hconn := hno hpacket hrw s hfind
          rw [parse_unconnected hw hpacket hrw hfind hconn]
          rw [← hsame] at hpacket hrw hfind ⊢
          exact parse_unconnected hw hpacket hrw hfind hconn
    · rw [parse_of_packet hpacket, if_pos hrw, parse_of_packet (hsame ▸ hpacket), hsame, if_pos hrw]
  · rw [parse_of_not_packet hpacket, parse_of_not_packet (hsame ▸ hpacket)]

/-- With a plug that accepts everything, the bytes decide what happens. -/
theorem parse_split (hw : w.Wf) (hplugged : ∀ s ∈ w.mStreams, s.plug.isSome = true)
    (haccept : ∀ i, cb.onReceive i = ([], true)) {iov' : List (List UInt8)}
    (hsame : iov'.flatten = iov.flatten) :
    (World.forget <$> virtioVsockParseGuestToHost api cb w iov' =
      World.forget <$> virtioVsockParseGuestToHost api cb w iov) ∧
    ∀ w₁ w₂, virtioVsockParseGuestToHost api cb w iov = .ok w₁ →
      virtioVsockParseGuestToHost api cb w iov' = .ok w₂ →
      ∀ ref, receivedBytes ref w₁.log = receivedBytes ref w₂.log := by
  by_cases hdata : IsGuestPacket w.vq.guestCid iov.flatten ∧
      (packetHeader iov.flatten).op = VirtioVsockOp.rw.code ∧
      ∃ s, w.mStreams.find? ⟨(packetHeader iov.flatten).srcPort,
        (packetHeader iov.flatten).dstPort⟩ = some s ∧ s.isConnected = true
  · obtain ⟨hpacket, hrw, s, hfind, hconn⟩ := hdata
    have hplug := hplugged s (StdSet.mem_of_find? hfind).1
    -- the bytes of the payload arrive, in whatever pieces
    have hbytes : ∀ iov'', iov''.flatten = iov.flatten → ∀ w',
        virtioVsockParseGuestToHost api cb w iov'' = .ok w' → ∀ ref, receivedBytes ref w'.log =
          receivedBytes ref w.log ++ if s.ref = ref then packetPayload iov.flatten else [] := by
      intro iov'' heq w' hparse ref
      rw [← heq] at hpacket hrw hfind ⊢
      have hlog := parse_handed hw hpacket hrw hfind hconn hparse
      rw [upToRefusal_of_accepts (fun i => by rw [haccept i])] at hlog
      rw [receivedBytes_of_handed hlog, flatten_packetPieces]
    have hstate : ∀ iov'', iov''.flatten = iov.flatten →
        World.forget <$> virtioVsockParseGuestToHost api cb w iov'' =
          .ok (w.afterPacket s.ref iov.flatten).forget := by
      intro iov'' heq
      rw [← heq] at hpacket hrw hfind ⊢
      obtain ⟨w', hparse, hforget⟩ : ∃ w', virtioVsockParseGuestToHost api cb w iov'' = .ok w' ∧ _ :=
        parse_accept hw hplug haccept hpacket hrw hfind hconn
      exact map_eq_ok.mpr ⟨w', hparse, hforget⟩
    refine ⟨by rw [hstate iov' hsame, hstate iov rfl], fun w₁ w₂ h₁ h₂ ref => ?_⟩
    rw [hbytes iov rfl w₁ h₁, hbytes iov' hsame w₂ h₂]
  · have heq : virtioVsockParseGuestToHost api cb w iov' = virtioVsockParseGuestToHost api cb w iov := by
      refine parse_congr hw hsame fun hpacket hrw s hfind => ?_
      by_contra hconn
      exact hdata ⟨hpacket, hrw, s, hfind, by simpa using hconn⟩
    refine ⟨by rw [heq], fun w₁ w₂ h₁ h₂ ref => ?_⟩
    rw [heq, h₁] at h₂
    rw [Except.ok.inj h₂]

end Split

/-- What `virtio_vsock_parse_guest_to_host` does with a packet in segments: nothing if it
is none; else it hands the payload over, in order, up to the first refusal (a stream that
is not connected takes none of it); with a plug that accepts everything it does the same
for every way of splitting the packet, and the host's counter moves by the size of the
payload. -/
theorem parse_gather {api : GoldfishVirtIOVSockDevAPI VirtIOVSock} {cb : Callbacks P}
    {w : World VirtIOVSock P} (hw : w.Wf) (hplugged : ∀ s ∈ w.mStreams, s.plug.isSome = true)
    (iov : List (List UInt8)) :
    (¬ IsGuestPacket w.vq.guestCid iov.flatten →
      virtioVsockParseGuestToHost api cb w iov = .ok w) ∧
    (∀ s, IsGuestPacket w.vq.guestCid iov.flatten →
      (packetHeader iov.flatten).op = VirtioVsockOp.rw.code →
      w.mStreams.find? ⟨(packetHeader iov.flatten).srcPort,
        (packetHeader iov.flatten).dstPort⟩ = some s →
      (packetPieces iov).flatten = (iov.flatten.drop hdrSize).take
        (packetHeader iov.flatten).len.toNat ∧
      (packetPieces iov).flatten.length = (packetHeader iov.flatten).len.toNat ∧
      (∀ w', virtioVsockParseGuestToHost api cb w iov = .ok w' → handed w'.log = handed w.log ++
        if s.isConnected then
          (upToRefusal (fun i => (cb.onReceive i).2) 0 (packetPieces iov)).map (s.ref, ·)
        else []) ∧
      (s.isConnected = true → (∀ i, cb.onReceive i = ([], true)) →
        ∃ w' s', virtioVsockParseGuestToHost api cb w iov = .ok w' ∧
          s' ∈ w'.mStreams ∧ s'.ref = s.ref ∧
          s'.hostFwdCnt = s.hostFwdCnt + UInt32.ofNat (packetHeader iov.flatten).len.toNat)) ∧
    ∀ iov', iov'.flatten = iov.flatten → (∀ i, cb.onReceive i = ([], true)) →
      (World.forget <$> virtioVsockParseGuestToHost api cb w iov' =
        World.forget <$> virtioVsockParseGuestToHost api cb w iov) ∧
      ∀ w₁ w₂, virtioVsockParseGuestToHost api cb w iov = .ok w₁ →
        virtioVsockParseGuestToHost api cb w iov' = .ok w₂ →
        ∀ ref, receivedBytes ref w₁.log = receivedBytes ref w₂.log := by
  refine ⟨parse_of_not_packet, fun s hpacket hrw hfind => ?_,
    fun iov' hsame haccept => parse_split hw hplugged haccept hsame⟩
  refine ⟨flatten_packetPieces, by rw [flatten_packetPieces, hpacket.payload_length],
    fun w' hparse => ?_, fun hconn haccept => ?_⟩
  · cases hconn : s.isConnected with
    | true => exact parse_handed hw hpacket hrw hfind hconn hparse
    | false =>
        rw [parse_unconnected hw hpacket hrw hfind hconn] at hparse
        have hstart := handed_updateGuestCounters w s.ref (packetHeader iov.flatten)
        rw [if_neg (by simp), List.append_nil, ← hstart]
        unfold onPacketReceiveRwEnd at hparse
        split at hparse
        · exact recycleStreamLocked_handed hw.updateGuestCounters hparse
        · rw [Except.ok.inj hparse]
  · have hs := (StdSet.mem_of_find? hfind).1
    obtain ⟨w', hparse, hforget⟩ : ∃ w', virtioVsockParseGuestToHost api cb w iov = .ok w' ∧ _ :=
      parse_accept hw (hplugged s hs) haccept hpacket hrw hfind hconn
    obtain ⟨s', hs', href, hcnt⟩ := exists_mem_afterPacket hw hs iov.flatten
    rw [hpacket.payload_length] at hcnt
    exact ⟨w', s', hparse, mStreams_eq_of_forget hforget ▸ hs', href, hcnt⟩

/-- A RW packet of three bytes from port 1000 of guest 3 to port 9, with the header cut in
the middle, an empty segment and a byte too many. -/
def threeBytes : List (List UInt8) :=
  [[3, 0, 0, 0, 0, 0, 0, 0, 2, 0, 0, 0, 0, 0, 0, 0, 0xe8, 3, 0, 0],
    [9, 0, 0, 0, 3, 0, 0, 0, 1, 0, 5, 0, 0, 0, 0, 0, 8, 0, 0, 0, 0, 0, 0, 0, 1], [], [2, 3, 4]]

/-- The device after a guest connected to a listener on port 9. -/
def acceptedNine : List (Action VirtIOVSock Unit) :=
  [.control (guestHeader 1000 9 .request 0 8 0) { listener := ([], some ()) }]

theorem parse_gather_threeBytes : ∃ w w' : World VirtIOVSock Unit,
    run devApi (World.realized {9} ⟨3, []⟩) acceptedNine = .ok w ∧
      virtioVsockParseGuestToHost devApi {} w threeBytes = .ok w' ∧
      handed w'.log = handed w.log ++ [(0, [1]), (0, [2, 3])] ∧
      World.forget <$> virtioVsockParseGuestToHost devApi {} w [threeBytes.flatten] =
        .ok w'.forget := by
  obtain ⟨w, hrun, hvq, s, helems, hfind, hs⟩ : ∃ w,
      run devApi (World.realized {9} ⟨3, []⟩) acceptedNine = .ok w ∧ w.vq = ⟨3, []⟩ ∧ ∃ s,
        w.mStreams.elems = [s] ∧ w.mStreams.find? ⟨1000, 9⟩ = some s ∧
        s.plug = some () ∧ s.isConnected = true ∧ s.ref = 0 :=
    ⟨_, rfl, rfl, _, rfl, rfl, rfl, rfl, rfl⟩
  have hw : w.Wf := (foldlM_invariant (I := World.Sane) (fun _ _ _ h => step_sane h)
    realized_sane hrun).wf
  have hplugged : ∀ s ∈ w.mStreams, s.plug.isSome = true := by
    intro t ht
    rw [StdSet.mem_def, helems, List.mem_singleton] at ht
    rw [ht, hs.1]
    rfl
  have hpacket : IsGuestPacket w.vq.guestCid threeBytes.flatten := by
    rw [hvq]
    exact ⟨by decide, by decide, by decide, by decide, by decide⟩
  obtain ⟨-, hdata, hsplit⟩ := @parse_gather Unit devApi {} w hw hplugged threeBytes
  obtain ⟨-, -, hhanded, haccept⟩ := hdata s hpacket (by decide) hfind
  obtain ⟨w', -, hparse, -⟩ := haccept hs.2.1 fun _ => rfl
  refine ⟨w, w', hrun, hparse, (hhanded w' hparse).trans ?_, ?_⟩
  · rw [hs.2.1, hs.2.2]
    rfl
  · rw [(hsplit [threeBytes.flatten] (by simp) fun _ => rfl).1, hparse]
    rfl

end Goldfish.Vsock
