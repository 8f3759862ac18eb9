import Goldfish.Vsock.Credit
import Goldfish.Vsock.NoLoss

/-!
# Goldfish.Vsock.Shrinking

**A window smaller than what is in flight.** A guest may lower its `buf_alloc` below the
number of bytes it has not consumed. It has no room then (`VsockStream.room` is `0`), but
`guestAvailSize` is a 32-bit difference and wraps around to almost `2 ^ 32`.

`WithinWindow` is what one call of `sendPacketsLocked` owes a stream, whatever the other
streams, the orphan packets and the queue are. It is kept exactly by the streams whose
window is not overdrawn and who have, or may send, less than `2 ^ 30` bytes, and by the
overdrawn ones that have nothing to send and are about to ask for credit anyway
(`withinWindow_iff`).
-/

namespace Goldfish.Vsock

open Goldfish.Lib

variable {P : Type}

/-! ### The window -/

/-- The bytes that were sent and are not consumed, as far as the guest has told. -/
def VsockStream.inFlight (s : VsockStream P) : Nat := (s.hostSentCnt - s.guestFwdCnt).toNat

/-- The room the guest has left: none if more is in flight than it has buffers. -/
def VsockStream.room (s : VsockStream P) : Nat := s.guestBufAlloc.toNat - s.inFlight

/-- The stream's guest is asked for credit. -/
def AsksCredit (ref : Ref) (es : List (Event VirtIOVSock P)) : Prop :=
  ∃ vq hdr, .call (some ref) vq hdr [] ∈ es ∧ hdr.op = VirtioVsockOp.creditRequest.code

/-- What one call of `sendPacketsLocked` owes a stream: no more payload than there is
room for, and a request for credit if the window is overdrawn, unless the queue was full. -/
structure WithinWindow (s : VsockStream P) (es : List (Event VirtIOVSock P)) : Prop where
  bytes : (delivered devApi s.ref es).length ≤ s.room
  asks : s.guestBufAlloc.toNat < s.inFlight → AsksCredit s.ref es ∨ CutShort devApi es

theorem guestAvailSize_of_le {s : VsockStream P} (h : s.inFlight ≤ s.guestBufAlloc.toNat) :
    s.guestAvailSize = s.room := by
  unfold VsockStream.guestAvailSize VsockStream.room VsockStream.inFlight at *
  exact UInt32.toNat_sub_of_le _ _ (UInt32.le_iff_toNat_le.mpr h)

/-- The difference wraps around: the device sees free space where there is none. -/
theorem guestAvailSize_of_overdrawn {s : VsockStream P} (h : s.guestBufAlloc.toNat < s.inFlight) :
    0 < s.guestAvailSize ∧ s.room = 0 := by
  unfold VsockStream.guestAvailSize VsockStream.room VsockStream.inFlight at *
  have hlt := UInt32.toNat_lt (s.hostSentCnt - s.guestFwdCnt)
  rw [UInt32.toNat_sub]
  omega

/-! ### What is sent is not sent again -/

/-- How a stream, `s` in the beginning, stands after the events `es` of a call. -/
structure Spent (s : VsockStream P) (es : List (Event VirtIOVSock P)) (t : VsockStream P) :
    Prop where
  ref : t.ref = s.ref
  pending : delivered devApi s.ref es ++ t.hostToGuestBuf.pending = s.hostToGuestBuf.pending
  avail : (delivered devApi s.ref es).length + t.guestAvailSize = s.guestAvailSize
  asks : s.hasOp .creditRequest = true → t.hasOp .creditRequest = true ∨ AsksCredit s.ref es

section Spent

variable {s t t' : VsockStream P} {es es' : List (Event VirtIOVSock P)}

theorem AsksCredit.append_left {ref : Ref} (h : AsksCredit ref es) : AsksCredit ref (es ++ es') := by
  obtain ⟨vq, hdr, hmem, hop⟩ := h
  exact ⟨vq, hdr, List.mem_append_left _ hmem, hop⟩

theorem spent_self : Spent s [] s :=
  ⟨rfl, rfl, Nat.zero_add _, Or.inl⟩

/-- Events that deliver nothing for the stream, and an update that touches neither its buffer
nor its counters. -/
theorem Spent.quiet (h : Spent s es t) (href : t'.ref = t.ref)
    (hbuf : t'.hostToGuestBuf = t.hostToGuestBuf) (havail : t'.guestAvailSize = t.guestAvailSize)
    (hdel : delivered devApi t.ref es' = [])
    (hasks : t.hasOp .creditRequest = true →
      t'.hasOp .creditRequest = true ∨ AsksCredit t.ref es') :
    Spent s (es ++ es') t' := by
  have hsame : delivered devApi s.ref (es ++ es') = delivered devApi s.ref es := by
    rw [delivered_append, ← h.ref, hdel, List.append_nil]
  refine ⟨href.trans h.ref, ?_, ?_, fun hop => ?_⟩
  · rw [hsame, hbuf]
    exact h.pending
  · rw [hsame, havail]
    exact h.avail
  · rcases h.asks hop with hop | hasked
    · rcases hasks hop with hop | ⟨vq, hdr, hmem, hop⟩
      · exact Or.inl hop
      · exact Or.inr ⟨vq, hdr, List.mem_append_right _ (h.ref ▸ hmem), hop⟩
    · exact Or.inr hasked.append_left

/-- One packet with data. As long as its size fits the answer, what was delivered left the
buffer and the free space. -/
theorem Spent.sent (h : Spent s es t)
    (hshort : min s.hostToGuestBuf.pending.length s.guestAvailSize < 2 ^ 30) {vq : VirtIOVSock}
    {hdr : VirtioVsockHdr} {buf : SocketBuffer} (hhdr : hdr = t.preparePacketHeader .rw
      (UInt32.ofNat (min t.hostToGuestBuf.pending.length t.guestAvailSize)))
    (hbuf : t.hostToGuestBuf.consume (virtIOVSockSentSize
      (devApi.sendPacketHostToGuest vq hdr t.hostToGuestBuf.pending).result) = .ok buf) :
    Spent s (es ++ [.call (some t.ref) vq hdr t.hostToGuestBuf.pending])
      { t with
        hostToGuestBuf := buf
        hostSentCnt := t.hostSentCnt + UInt32.ofNat (virtIOVSockSentSize
          (devApi.sendPacketHostToGuest vq hdr t.hostToGuestBuf.pending).result) } := by
  have hlen : hdr.len.toNat = min t.hostToGuestBuf.pending.length t.guestAvailSize := by
    have hlt := guestAvailSize_lt t
    rw [hhdr]
    exact UInt32.toNat_ofNat_of_lt' (by unfold UInt32.size; omega)
  have hpending := congrArg List.length h.pending
  rw [List.length_append] at hpending
  have havail := h.avail
  have hexact := @devApi_answersExactly vq hdr t.hostToGuestBuf.pending (by omega)
  have hfront := hexact.payload_eq
  have hsize := hexact.size
  rw [devApi_payload, List.length_take, List.length_take] at hsize
  generalize virtIOVSockSentSize
    (devApi.sendPacketHostToGuest vq hdr t.hostToGuestBuf.pending).result = size
      at hfront hsize hbuf ⊢
  have hdelivered : delivered devApi s.ref
      (es ++ [.call (some t.ref) vq hdr t.hostToGuestBuf.pending]) =
        delivered devApi s.ref es ++ t.hostToGuestBuf.pending.take size := by
    rw [delivered_append, ← hfront]
    simp [delivered, Event.delivers, h.ref]
  have hroom : size ≤ t.guestAvailSize := by omega
  obtain ⟨-, hrest, hle⟩ := SocketBuffer.consume_spec hbuf
  refine ⟨h.ref, ?_, ?_, fun hop => (h.asks hop).imp_right AsksCredit.append_left⟩
  · rw [hdelivered, hrest, List.append_assoc, List.take_append_drop]
    exact h.pending
  · rw [hdelivered, guestAvailSize_afterSend hroom, List.length_append, List.length_take]
    omega

/-- A turn of the stream inside `sendPacketsLocked`. -/
theorem Turn.spent {mode : Mode} {log : List (Event VirtIOVSock P)}
    (hturn : Turn devApi mode log t es' t') (h : Spent s es t)
    (hshort : min s.hostToGuestBuf.pending.length s.guestAvailSize < 2 ^ 30)
    (hsends : ∀ e ∈ es', e.isSending = true) : Spent s (es ++ es') t' := by
  cases hturn with
  | needCredit _ _ => exact h.quiet rfl rfl rfl rfl fun _ => Or.inl (hasOp_asked rfl)
  | @opSent vq op _ _ _ =>
      refine h.quiet rfl rfl rfl delivered_devApi_control fun hop => ?_
      by_cases heq : VirtioVsockOp.creditRequest = op
      · exact Or.inr ⟨vq, _, List.mem_cons_self, congrArg VirtioVsockOp.code heq.symm⟩
      · exact Or.inl (hasOp_clear heq hop)
  | opKept _ _ _ => exact h.quiet rfl rfl rfl delivered_devApi_control Or.inl
  | maskCleared _ hnone =>
      refine h.quiet rfl rfl rfl rfl fun hop => ?_
      rw [hnone _ (by decide)] at hop
      exact absurd hop Bool.false_ne_true
  | dataSent _ _ _ _ _ havail hhdr hbuf =>
      rw [havail devApi_lawful.bounded] at hhdr
      exact h.sent hshort hhdr hbuf
  | plugSwitched _ => exact h.quiet rfl rfl rfl rfl Or.inl
  | snifferSet _ => exact h.quiet rfl rfl rfl rfl Or.inl
  | creditAsked _ =>
      exact h.quiet rfl rfl rfl rfl fun hop => Or.inl (by rw [hasOp_of_mask_or rfl, hop]; rfl)
  | taken _ =>
      exact h.quiet rfl rfl rfl rfl fun hop => Or.inl (by rw [hasOp_of_mask_or rfl, hop]; rfl)
  | _ => simp [Event.isSending] at hsends

end Spent

/-! ### One call -/

/-- A stream on the way through a call of `sendPacketsLocked`: `es` is what was recorded since
the call began. -/
def OnTheWay (s : VsockStream P) (w v : World VirtIOVSock P) : Prop :=
  v.Wf ∧ w.nextRef ≤ v.nextRef ∧ ∃ es, v.log = w.log ++ es ∧
    ((∀ e ∈ es, e.isSending = true) → ∀ t ∈ v.mStreams, t.ref = s.ref → Spent s es t)

theorem HostAtom.onTheWay {mode : Mode} {s : VsockStream P} {w v v' : World VirtIOVSock P}
    (hquiet : mode.quiet = false) (hold : s.ref < w.nextRef)
    (hshort : min s.hostToGuestBuf.pending.length s.guestAvailSize < 2 ^ 30)
    (h : HostAtom devApi mode v v') (hv : OnTheWay s w v) : OnTheWay s w v' := by
  obtain ⟨hwf, hnext, es, hlog, hspent⟩ := hv
  obtain ⟨es', htouched⟩ := h.turn hwf (by simp [hquiet])
  refine ⟨h.wf hwf, hnext.trans htouched.nextRef, es ++ es',
    by rw [htouched.log, hlog, List.append_assoc], fun hsends t ht href => ?_⟩
  have hbefore : ∀ e ∈ es, e.isSending = true := fun e he => hsends e (List.mem_append_left _ he)
  rcases htouched.streams t ht with ⟨ht, hother⟩ | ⟨r, hr, hsame, hturn⟩ | ⟨hnew, -⟩
  · exact (hspent hbefore t ht href).quiet rfl rfl rfl (delivered_of_ref_ne hother) Or.inl
  · exact hturn.spent (hspent hbefore r hr (hsame.trans href)) hshort
      fun e he => hsends e (List.mem_append_right _ he)
  · exact absurd (href.symm.trans hnew) (hold.trans_le hnext).ne

theorem HostAtoms.onTheWay {s : VsockStream P} {w v v' : World VirtIOVSock P}
    (hold : s.ref < w.nextRef)
    (hshort : min s.hostToGuestBuf.pending.length s.guestAvailSize < 2 ^ 30)
    (h : HostAtoms devApi {} v v') (hv : OnTheWay s w v) : OnTheWay s w v' :=
  star_invariant (I := OnTheWay s w) (fun _ _ hab => hab.onTheWay rfl hold hshort) h hv

theorem onTheWay_self {s : VsockStream P} {w : World VirtIOVSock P} (hw : w.Wf)
    (hs : s ∈ w.mStreams) : OnTheWay s w w := by
  refine ⟨hw, le_rfl, [], (List.append_nil _).symm, fun _ t ht href => ?_⟩
  rw [hw.ref_inj t ht s hs href]
  exact spent_self

/-- What the stream is after some sending that was recorded as `es`. -/
theorem OnTheWay.spent {s t : VsockStream P} {w v : World VirtIOVSock P} (h : OnTheWay s w v)
    {es : List (Event VirtIOVSock P)} (hlog : v.log = w.log ++ es)
    (hsends : ∀ e ∈ es, e.isSending = true) (ht : t ∈ v.mStreams) (href : t.ref = s.ref) :
    Spent s es t := by
  obtain ⟨-, -, es', hlog', hspent⟩ := h
  obtain rfl := List.append_cancel_left (hlog.symm.trans hlog')
  exact hspent hsends t ht href

section Asks

variable {σ : Type} {api : GoldfishVirtIOVSockDevAPI σ}

/-- The loop over the operations offers each one in the mask, unless it ends early. -/
theorem sendOps_offers {s : VsockStream P} :
    ∀ (ops : List VirtioVsockOp) (mask : UInt8) (w : World σ P) (needNotify : Bool),
      ops.Nodup → (sendOps api s ops mask w needNotify).2.full = false →
      ∀ op ∈ ops, mask &&& op.bit ≠ 0 → ∃ es,
        (sendOps api s ops mask w needNotify).2.world.log = w.log ++ es ∧
        ∃ vq, .call (some s.ref) vq (s.preparePacketHeader op 0) [] ∈ es
  | [], _, _, _, _, _, _, hmem, _ => absurd hmem List.not_mem_nil
  | op₀ :: ops, mask, w, needNotify, hnodup, hfull, op, hmem, hbit => by
      obtain ⟨hnot, hnodup⟩ := List.nodup_cons.mp hnodup
      unfold sendOps at hfull ⊢
      by_cases hbit₀ : mask &&& op₀.bit ≠ 0
      · simp only [if_pos hbit₀] at hfull ⊢
        cases hone : virtIOVSockSendIsVqFull (w.sendPacketHostToGuest api (some s.ref)
            (s.preparePacketHeader op₀ 0) []).1 with
        | true => simp [hone] at hfull
        | false =>
            simp only [hone, Bool.false_eq_true, if_false] at hfull ⊢
            obtain ⟨es, hlog, -⟩ := @sendOps_onlySends _ _ api s ops (mask &&& ~~~op₀.bit)
              (w.sendPacketHostToGuest api (some s.ref) (s.preparePacketHeader op₀ 0) []).2
              (needNotify || virtIOVSockSendNeedNotify
                (w.sendPacketHostToGuest api (some s.ref) (s.preparePacketHeader op₀ 0) []).1)
            rcases List.mem_cons.mp hmem with rfl | hmem
            · refine ⟨.call (some s.ref) w.vq (s.preparePacketHeader op 0) [] :: es, ?_, w.vq,
                List.mem_cons_self⟩
              rw [hlog, sendPacketHostToGuest_log, List.append_assoc]
              rfl
            · -- the other operations keep their bits
              have hne : op ≠ op₀ := fun heq => hnot (heq ▸ hmem)
              have hkept : mask &&& ~~~op₀.bit &&& op.bit ≠ 0 := by
                have := hasOp_clear (s := { s with sendOpMask := mask }) hne
                  (by simpa [VsockStream.hasOp] using hbit)
                simpa [VsockStream.hasOp] using this
              obtain ⟨es', hlog', vq, hcall⟩ := sendOps_offers ops _ _ _ hnodup hfull op hmem hkept
              obtain rfl := List.append_cancel_left (hlog'.symm.trans hlog)
              refine ⟨.call (some s.ref) w.vq (s.preparePacketHeader op₀ 0) [] :: es', ?_, vq,
                List.mem_cons_of_mem _ hcall⟩
              rw [hlog', sendPacketHostToGuest_log, List.append_assoc]
              rfl
      · simp only [if_neg hbit₀] at hfull ⊢
        rcases List.mem_cons.mp hmem with rfl | hmem
        · exact absurd hbit hbit₀
        · exact sendOps_offers ops _ _ _ hnodup hfull op hmem hbit

/-- So each operation that a stream has waiting is offered. -/
theorem sendStreamOps_offers {s : VsockStream P} {w : World σ P} {needNotify : Bool}
    (hfull : (sendStreamOps api s w needNotify).full = false) {op : VirtioVsockOp}
    (hop : op ∈ maskOps) (hhas : s.hasOp op = true) : ∃ es,
      (sendStreamOps api s w needNotify).world.log = w.log ++ es ∧
      ∃ vq, .call (some s.ref) vq (s.preparePacketHeader op 0) [] ∈ es := by
  obtain ⟨w₁, mask, hw₁, hmask⟩ : ∃ (w₁ : World σ P) (mask : UInt8),
      w₁ = (if s.guestAvailSize = 0 then w.emit (.opQueued s.ref .creditRequest) else w) ∧
      mask = (s.sendOpMask ||| if s.guestAvailSize = 0 then VirtioVsockOp.creditRequest.bit else 0) :=
    ⟨_, _, rfl, rfl⟩
  have hbit : mask &&& op.bit ≠ 0 := by
    have hwith := @hasOp_of_mask_or _ s { s with sendOpMask := mask } _ hmask op
    rw [hhas, Bool.true_or] at hwith
    simpa [VsockStream.hasOp] using hwith
  have hne : mask ≠ 0 := by
    intro heq
    subst heq
    exact hbit (UInt8.zero_and)
  obtain ⟨es₁, hlog₁⟩ : ∃ es₁, w₁.log = w.log ++ es₁ := by
    rw [hw₁]
    split
    · exact ⟨_, rfl⟩
    · exact ⟨[], (List.append_nil _).symm⟩
  simp only [sendStreamOps, ← hw₁, ← hmask, if_pos hne] at hfull ⊢
  obtain ⟨es, hlog, vq, hcall⟩ := sendOps_offers maskOps mask w₁ needNotify (by decide) hfull op hop hbit
  refine ⟨es₁ ++ es, ?_, vq, List.mem_append_right _ hcall⟩
  rw [← List.append_assoc, ← hlog₁]
  exact hlog

theorem sendStream_offers {w : World σ P} (hw : w.Wf) {s : VsockStream P} (hs : s ∈ w.mStreams)
    {needNotify : Bool} {out : Swept σ P} (h : sendStream api s.ref w needNotify = .ok out)
    {op : VirtioVsockOp} (hop : op ∈ maskOps) (hhas : s.hasOp op = true) : ∃ es,
      out.world.log = w.log ++ es ∧
      ((∃ vq, .call (some s.ref) vq (s.preparePacketHeader op 0) [] ∈ es) ∨ CutShort api es) := by
  simp only [sendStream, hw.deref_eq hs, ok_bind] at h
  cases hfull : (sendStreamOps api s w needNotify).full with
  | true =>
      simp only [hfull, if_true, pure_eq_ok] at h
      subst h
      obtain ⟨es, hlog, -, hcut⟩ := @sendStreamOps_onlySends _ _ api s w needNotify
      exact ⟨es, hlog, Or.inr (hcut hfull)⟩
  | false =>
      simp only [hfull, Bool.false_eq_true, if_false] at h
      obtain ⟨es, hlog, vq, hcall⟩ := sendStreamOps_offers hfull hop hhas
      obtain ⟨es', hlog', -⟩ := sendData_onlySends _ _ _ _ out h
      refine ⟨es ++ es', by rw [hlog', hlog, List.append_assoc], Or.inl ⟨vq, ?_⟩⟩
      exact List.mem_append_left _ hcall

/-- The loop over the streams comes to each of them, unless it ends early. -/
theorem sendStreams_visits :
    ∀ (refs : List Ref) (w : World σ P) (needNotify : Bool) (out : Swept σ P), w.Wf →
      w.mOrphanPackets = [] → sendStreams api refs w needNotify = .ok out → ∀ ref ∈ refs,
      out.full = true ∨ ∃ v needNotify mid, HostAtoms api {} w v ∧ OnlySends api w v false ∧
        sendStream api ref v needNotify = .ok mid ∧ OnlySends api mid.world out.world false
  | [], _, _, _, _, _, _, _, hmem => absurd hmem List.not_mem_nil
  | ref₀ :: refs, w, needNotify, out, hw, horph, h, ref, hmem => by
      rw [sendStreams, bind_eq_ok] at h
      obtain ⟨mid, hmid, h⟩ := h
      obtain ⟨hfirst, horph'⟩ : HostAtoms api {} w mid.world ∧ _ := sendStream_atoms hw horph hmid
      have hsends := sendStream_onlySends hmid
      cases hfull : mid.full with
      | true =>
          rw [hfull, if_pos rfl, pure_eq_ok] at h
          exact Or.inl (h ▸ hfull)
      | false =>
          rw [hfull, if_neg Bool.false_ne_true] at h
          rw [hfull] at hsends
          rcases List.mem_cons.mp hmem with rfl | hmem
          · refine Or.inr ⟨w, needNotify, mid, .refl, .of_log_eq rfl, hmid, ?_⟩
            exact (sendStreams_onlySends refs _ _ out h).trans (.of_log_eq rfl)
          · rcases sendStreams_visits refs _ _ out (hfirst.wf hw) horph' h ref hmem with hcut | hvisit
            · exact Or.inl hcut
            · obtain ⟨v, nn, mid', hatoms, hbefore, hthis, hafter⟩ := hvisit
              exact Or.inr ⟨v, nn, mid', hfirst.trans hatoms, hsends.trans hbefore, hthis, hafter⟩

end Asks

theorem CutShort.append {σ : Type} {api : GoldfishVirtIOVSockDevAPI σ} {es : List (Event σ P)}
    (h : CutShort api es) (before after : List (Event σ P)) :
    CutShort api (before ++ es ++ after) := by
  obtain ⟨source, vq, hdr, data, hmem, hcut⟩ := h
  exact ⟨source, vq, hdr, data, List.mem_append_left _ (List.mem_append_right _ hmem), hcut⟩

/-- A stream that is about to ask for credit does so in the next call. -/
theorem sendPacketsLocked_asks {w w' : World VirtIOVSock P} {needNotify : Bool} (hw : w.Sane)
    {s : VsockStream P} (hs : s ∈ w.mStreams)
    (hshort : min s.hostToGuestBuf.pending.length s.guestAvailSize < 2 ^ 30)
    (hhas : s.hasOp .creditRequest = true)
    (h : sendPacketsLocked devApi w = .ok (needNotify, w')) {es : List (Event VirtIOVSock P)}
    (hlog : w'.log = w.log ++ es) : AsksCredit s.ref es ∨ CutShort devApi es := by
  have hold := hw.wf.ref_lt s hs
  obtain ⟨horphans, hempty⟩ :
      HostAtoms devApi {} w (sendOrphanPackets devApi w.mOrphanPackets w false).world ∧ _ :=
    sendOrphanPackets_atoms w.mOrphanPackets w false rfl
  obtain ⟨es₀, hlog₀, hsends₀, hcut₀⟩ := @sendOrphanPackets_onlySends _ _ devApi
    w.mOrphanPackets w false
  have hrefs := @sendOrphanPackets_refs _ _ devApi w.mOrphanPackets w false
  unfold sendPacketsLocked at h
  dsimp only at h
  generalize sendOrphanPackets devApi w.mOrphanPackets w false = first at *
  cases hfull : first.full with
  | true =>
      simp only [hfull, if_true, pure_eq_ok, Prod.mk.injEq] at h
      rw [← h.2, hlog₀] at hlog
      exact Or.inr (List.append_cancel_left hlog ▸ hcut₀ hfull)
  | false =>
      simp only [hfull, Bool.false_eq_true, if_false, bind_eq_ok, pure_eq_ok, Prod.mk.injEq] at h
      obtain ⟨out, hout, -, rfl⟩ := h
      have hwf := horphans.wf hw.wf
      obtain ⟨es₁, hlog₁, -, hcut₁⟩ := sendStreams_onlySends _ _ _ out hout
      have hes : es = es₀ ++ es₁ := by
        rw [hlog₁, hlog₀, List.append_assoc] at hlog
        exact (List.append_cancel_left hlog).symm
      have hmem : s.ref ∈ first.world.mStreams.elems.map (·.ref) := by
        change s.ref ∈ first.world.refs
        rw [hrefs]
        exact mem_refs.mpr ⟨s, hs, rfl⟩
      rcases sendStreams_visits _ _ _ out hwf (hempty hfull) hout s.ref hmem with hcut | hvisit
      · have := (hcut₁ hcut).append es₀ []
        rw [List.append_nil, ← hes] at this
        exact Or.inr this
      · obtain ⟨v, nn, mid, hatoms, ⟨es₂, hlog₂, hsends₂, -⟩, hmid, es₄, hlog₄, -, -⟩ := hvisit
        -- the stream as the loop finds it
        have hway := HostAtoms.onTheWay hold hshort (horphans.trans hatoms) (onTheWay_self hw.wf hs)
        have hderef := hmid
        simp only [sendStream, bind_eq_ok] at hderef
        obtain ⟨t, ht, -⟩ := hderef
        obtain ⟨ht, href⟩ := World.mem_of_deref ht
        have hspent := hway.spent (by rw [hlog₂, hlog₀, List.append_assoc])
          (fun e he => (List.mem_append.mp he).elim (hsends₀ e) (hsends₂ e)) ht href
        have hall : ∀ es₃, mid.world.log = v.log ++ es₃ → es = es₀ ++ es₂ ++ es₃ ++ es₄ := by
          intro es₃ hlog₃
          rw [hlog₄, hlog₃, hlog₂, hlog₀] at hlog
          simp only [List.append_assoc] at hlog ⊢
          exact (List.append_cancel_left hlog).symm
        rcases hspent.asks hhas with hop | hasked
        · obtain ⟨es₃, hlog₃, hoffered⟩ := sendStream_offers hway.1 ht (href ▸ hmid)
            (by decide) hop
          rw [hall es₃ hlog₃]
          rcases hoffered with ⟨vq, hcall⟩ | hcut
          · rw [href] at hcall
            exact Or.inl ⟨vq, _, List.mem_append_left _ (List.mem_append_right _ hcall), rfl⟩
          · exact Or.inr (hcut.append _ _)
        · obtain ⟨es₃, hlog₃, -⟩ := sendStream_onlySends hmid
          rw [hall es₃ hlog₃]
          exact Or.inl hasked.append_left.append_left

/-- The streams that stay within their window: those that are not overdrawn and have, or may
send, less than `2 ^ 30` bytes, and those that are overdrawn, have nothing to send and are
about to ask for credit. -/
def VsockStream.Restrained (s : VsockStream P) : Prop :=
  (s.inFlight ≤ s.guestBufAlloc.toNat ∧ min s.hostToGuestBuf.pending.length s.room < 2 ^ 30) ∨
  (s.guestBufAlloc.toNat < s.inFlight ∧ s.hostToGuestBuf.pending = [] ∧
    s.hasOp .creditRequest = true)

theorem VsockStream.Restrained.withinWindow {w : World VirtIOVSock P} (hw : w.Sane)
    {s : VsockStream P} (hs : s ∈ w.mStreams) (h : s.Restrained) : ∃ needNotify w' es,
      sendPacketsLocked devApi w = .ok (needNotify, w') ∧ w'.log = w.log ++ es ∧
        WithinWindow s es := by
  obtain ⟨⟨needNotify, w'⟩, hsend⟩ := sendPacketsLocked_ok devApi_lawful hw
  obtain ⟨es, hlog, hsends, -⟩ := sendPacketsLocked_onlySends hsend
  refine ⟨needNotify, w', es, hsend, hlog, ?_⟩
  have hshort : min s.hostToGuestBuf.pending.length s.guestAvailSize < 2 ^ 30 := by
    rcases h with ⟨hle, hless⟩ | ⟨-, hnil, -⟩
    · rw [guestAvailSize_of_le hle]
      exact hless
    · rw [hnil]
      exact lt_of_le_of_lt (Nat.min_le_left _ _) (by decide)
  obtain ⟨t, ht, href⟩ : ∃ t ∈ w'.mStreams, t.ref = s.ref := by
    refine mem_refs.mp ?_
    rw [sendPacketsLocked_refs hsend]
    exact mem_refs.mpr ⟨s, hs, rfl⟩
  have hspent := (HostAtoms.onTheWay (hw.wf.ref_lt s hs) hshort
    (sendPacketsLocked_atoms hw.wf hsend) (onTheWay_self hw.wf hs)).spent hlog hsends ht href
  rcases h with ⟨hle, -⟩ | ⟨hover, hnil, hhas⟩
  · refine ⟨?_, fun hover => absurd hle (not_le.mpr hover)⟩
    have := hspent.avail
    rw [guestAvailSize_of_le hle] at this
    omega
  · refine ⟨?_, fun _ => sendPacketsLocked_asks hw hs hshort hhas hsend hlog⟩
    have := hspent.pending
    rw [hnil, List.append_eq_nil_iff] at this
    rw [this.1]
    exact Nat.zero_le _

/-! ### A stream of its own -/

/-- A guest that offers `n` large buffers. -/
def wide (n : Nat) : VirtIOVSock := ⟨3, List.replicate n (2 ^ 32 + hdrSize)⟩

/-- A device with one stream and such a guest. -/
def loneWorld (s : VsockStream P) (n : Nat) : World VirtIOVSock P where
  mStreams := ⟨[s], List.pairwise_singleton _ _⟩
  vq := wide n
  nextRef := s.ref + 1

section Lone

variable {s : VsockStream P}

theorem mem_loneWorld {n : Nat} : s ∈ (loneWorld s n).mStreams := List.mem_cons_self

theorem loneWorld_sane {n : Nat} (hok : s.hostToGuestBuf.Ok) : (loneWorld s n).Sane where
  wf :=
    { ref_lt := fun t ht => by
        obtain rfl := List.mem_singleton.mp ht
        exact Nat.lt_succ_self _
      ref_inj := fun t ht r hr _ => (List.mem_singleton.mp ht).trans (List.mem_singleton.mp hr).symm }
  bufsOk t ht := by
    obtain rfl := List.mem_singleton.mp ht
    exact hok

/-- A large buffer takes all of a packet. -/
theorem devApi_wide (n : Nat) (hdr : VirtioVsockHdr) (data : List UInt8) : ∃ written,
    devApi.sendPacketHostToGuest (wide (n + 1)) hdr data =
      ⟨wide n, makeVirtIOVSockSendResult false true (data.take hdr.len.toNat).length, [written]⟩ ∧
      written.2 = data.take hdr.len.toNat := by
  have hlt := UInt32.toNat_lt hdr.len
  have hlen := List.length_take_le hdr.len.toNat data
  have hsend := @devApi_send_whole 3 (2 ^ 32 + hdrSize) (List.replicate n (2 ^ 32 + hdrSize)) hdr
    (data.take hdr.len.toNat) (by omega) hlen
  have hsame : devApi.sendPacketHostToGuest (wide (n + 1)) hdr data =
      devApi.sendPacketHostToGuest (wide (n + 1)) hdr (data.take hdr.len.toNat) := by
    simp only [devApi, virtioVsockSendPacketHostToGuest, List.take_take, Nat.min_self]
  exact ⟨_, hsame.trans hsend, rfl⟩

/-- The loop over the operations with enough large buffers. -/
theorem sendOps_wide :
    ∀ (ops : List VirtioVsockOp) (n : Nat) (mask : UInt8) (w : World VirtIOVSock P)
      (needNotify : Bool), w.vq = wide (n + ops.length) →
      let out := (sendOps devApi s ops mask w needNotify).2
      out.full = false ∧ (∃ m, n ≤ m ∧ out.world.vq = wide m) ∧
        out.world.mStreams = w.mStreams ∧ ∃ es, out.world.log = w.log ++ es ∧
          ∀ e ∈ es, ∃ vq, ∃ op ∈ ops, mask &&& op.bit ≠ 0 ∧
            e = .call (some s.ref) vq (s.preparePacketHeader op 0) [] ∧
            virtIOVSockSendIsVqFull (devApi.sendPacketHostToGuest vq
              (s.preparePacketHeader op 0) []).result = false
  | [], n, _, w, _, hvq => ⟨rfl, ⟨n, le_rfl, hvq⟩, rfl, [], (List.append_nil _).symm, by simp⟩
  | op :: ops, n, mask, w, needNotify, hvq => by
      unfold sendOps
      by_cases hbit : mask &&& op.bit ≠ 0
      · have hwide : w.vq = wide (n + ops.length + 1) := hvq
        obtain ⟨written, hout, -⟩ := devApi_wide (n + ops.length) (s.preparePacketHeader op 0) []
        have hone : virtIOVSockSendIsVqFull (devApi.sendPacketHostToGuest (wide (n + ops.length + 1))
            (s.preparePacketHeader op 0) []).result = false := by
          rw [hout, virtIOVSockSendIsVqFull_make]
        simp only [if_pos hbit, World.sendPacketHostToGuest, hwide, hone]
        rw [hout]
        obtain ⟨hfull, hm, hstreams, es, hlog, hes⟩ := sendOps_wide ops n (mask &&& ~~~op.bit)
          { w.emit (.call (some s.ref) (wide (n + ops.length + 1)) (s.preparePacketHeader op 0) [])
            with vq := wide (n + ops.length) } (needNotify || virtIOVSockSendNeedNotify
              (makeVirtIOVSockSendResult false true
                (([] : List UInt8).take (s.preparePacketHeader op 0).len.toNat).length)) rfl
        refine ⟨hfull, hm, hstreams, .call (some s.ref) (wide (n + ops.length + 1))
          (s.preparePacketHeader op 0) [] :: es, ?_, fun e he => ?_⟩
        · exact hlog.trans (by simp)
        · rcases List.mem_cons.mp he with rfl | he
          · exact ⟨_, op, List.mem_cons_self, hbit, rfl, hone⟩
          · obtain ⟨vq, op', hop', hbit', rfl, hnot⟩ := hes e he
            refine ⟨vq, op', List.mem_cons_of_mem _ hop', fun hzero => hbit' ?_, rfl, hnot⟩
            exact and_clear_of_zero op hzero
      · simp only [if_neg hbit]
        have hwide : w.vq = wide (n + 1 + ops.length) := by
          rw [hvq, List.length_cons]
          congr 1
          omega
        obtain ⟨hfull, ⟨m, hm, hvq'⟩, hstreams, es, hlog, hes⟩ := sendOps_wide ops (n + 1) mask w
          needNotify hwide
        refine ⟨hfull, ⟨m, by omega, hvq'⟩, hstreams, es, hlog, fun e he => ?_⟩
        obtain ⟨vq, op', hop', hrest⟩ := hes e he
        exact ⟨vq, op', List.mem_cons_of_mem _ hop', hrest⟩

/-- The control packets of a stream of its own that is not out of credit. -/
theorem sendStreamOps_lone {n : Nat} {needNotify : Bool} (havail : s.guestAvailSize ≠ 0) :
    let out := sendStreamOps devApi s (loneWorld s (n + 4)) needNotify
    out.full = false ∧ (∃ m, n ≤ m ∧ out.world.vq = wide m) ∧
      out.world.mStreams.elems = [{ s with sendOpMask := 0 }] ∧
      ∀ e ∈ out.world.log, ∃ vq op, s.hasOp op = true ∧
        e = .call (some s.ref) vq (s.preparePacketHeader op 0) [] ∧
        virtIOVSockSendIsVqFull (devApi.sendPacketHostToGuest vq
          (s.preparePacketHeader op 0) []).result = false := by
  unfold sendStreamOps
  simp only [if_neg havail, UInt8.or_zero]
  by_cases hmask : s.sendOpMask ≠ 0
  · rw [if_pos hmask]
    obtain ⟨hfull, hm, hstreams, es, hlog, hes⟩ := sendOps_wide (s := s) maskOps n s.sendOpMask
      (loneWorld s (n + 4)) needNotify rfl
    generalize sendOps devApi s maskOps s.sendOpMask (loneWorld s (n + 4)) needNotify = swept at *
    have helems : swept.2.world.mStreams.elems = [s] := congrArg StdSet.elems hstreams
    refine ⟨hfull, hm, ?_, fun e he => ?_⟩
    · simp only [hfull, World.setMask, World.modify_elems, helems]
      simp
    · have hmem : e ∈ es := by
        change e ∈ swept.2.world.log at he
        rw [hlog] at he
        exact he
      obtain ⟨vq, op, -, hbit, heq, hnot⟩ := hes e hmem
      exact ⟨vq, op, by simpa [VsockStream.hasOp] using hbit, heq, hnot⟩
  · rw [if_neg hmask]
    refine ⟨rfl, ⟨n + 4, by omega, rfl⟩, ?_, fun e he => absurd he List.not_mem_nil⟩
    rw [← not_not.mp hmask]
    rfl

/-- What one round of the loop over the data sends into a large buffer, and what it takes for
sent. -/
theorem sendData_wide_round {w : World VirtIOVSock P} {k fuel : Nat} {needNotify : Bool}
    {out : Swept VirtIOVSock P} (hw : w.Wf) (hs : s ∈ w.mStreams) (hok : s.hostToGuestBuf.Ok)
    (hpos : 0 < min s.hostToGuestBuf.pending.length s.guestAvailSize) (hvq : w.vq = wide (k + 1))
    (h : sendData devApi s.ref fuel s.guestAvailSize w needNotify = .ok out) :
    ∃ fuel' needNotify' w₁ s₁ e, World.Wf w₁ ∧ s₁ ∈ w₁.mStreams ∧ s₁.ref = s.ref ∧
      s₁.hostToGuestBuf.Ok ∧ w₁.vq = wide k ∧ w₁.log = w.log ++ [e] ∧
      (e.delivers devApi s.ref).length = min s.hostToGuestBuf.pending.length s.guestAvailSize ∧
      min s₁.hostToGuestBuf.pending.length s₁.guestAvailSize =
        min s.hostToGuestBuf.pending.length s.guestAvailSize -
          min s.hostToGuestBuf.pending.length s.guestAvailSize % 2 ^ 30 ∧
      sendData devApi s.ref fuel' s₁.guestAvailSize w₁ needNotify' = .ok out := by
  cases fuel with
  | zero => simp [sendData] at h
  | succ fuel =>
      have hlt := guestAvailSize_lt s
      generalize hn : min s.hostToGuestBuf.pending.length s.guestAvailSize = n at hpos ⊢
      generalize hhdr : s.preparePacketHeader .rw (UInt32.ofNat n) = hdr
      have hlen : hdr.len.toNat = n := by
        rw [← hhdr]
        exact UInt32.toNat_ofNat_of_lt' (by unfold UInt32.size; omega)
      obtain ⟨written, hout, hwritten⟩ := devApi_wide k hdr s.hostToGuestBuf.pending
      have htaken : (s.hostToGuestBuf.pending.take hdr.len.toNat).length = n := by
        rw [List.length_take]
        omega
      rw [htaken] at hout
      have hmod := Nat.mod_le n (2 ^ 30)
      have hsize : virtIOVSockSentSize (makeVirtIOVSockSendResult false true n) = n % 2 ^ 30 :=
        virtIOVSockSentSize_make _ _ _
      have hless : n % 2 ^ 30 ≤ s.hostToGuestBuf.pending.length := by omega
      obtain ⟨buf, hbuf⟩ := SocketBuffer.consume_of_le hok hless
      obtain ⟨hok', hpend, -⟩ := SocketBuffer.consume_spec hbuf
      have havail : s.guestAvailSize ≠ 0 := by omega
      rw [sendData_round havail (hw.deref_eq hs) (SocketBuffer.peek_eq_ok.mpr ⟨hok, rfl⟩) (by omega)
        (by rw [hn]; exact hhdr) (hvq ▸ hout) (by rw [hsize]; exact hbuf)] at h
      simp only [hsize, virtIOVSockSendIsVqFull_make, Bool.false_eq_true, if_false] at h
      rw [sizeSub_eq (by omega) (by omega), ← @guestAvailSize_afterSend P s buf _ (by omega)] at h
      refine ⟨fuel, _, _, _, .call (some s.ref) w.vq hdr s.hostToGuestBuf.pending, ?_,
        mem_afterSend (w := { w.emit (.call (some s.ref) w.vq hdr s.hostToGuestBuf.pending) with
          vq := wide k }) hs, rfl, hok', rfl, rfl, ?_, ?_, h⟩
      · have hcalled : World.Wf { w.emit (.call (some s.ref) w.vq hdr s.hostToGuestBuf.pending) with
            vq := wide k } := hw.congr rfl rfl
        exact hcalled.modify
      · simp only [Event.delivers, if_true, hvq, hout]
        simp [SendOutcome.payload, hwritten, hlen]
        omega
      · rw [guestAvailSize_afterSend (by omega), hpend, List.length_drop]
        omega

/-- With something to send and a buffer to put it in, something is delivered. -/
theorem sendData_wide_pos {w : World VirtIOVSock P} {k fuel : Nat} {needNotify : Bool}
    {out : Swept VirtIOVSock P} (hw : w.Wf) (hs : s ∈ w.mStreams) (hok : s.hostToGuestBuf.Ok)
    (hpos : 0 < min s.hostToGuestBuf.pending.length s.guestAvailSize) (hvq : w.vq = wide (k + 1))
    (h : sendData devApi s.ref fuel s.guestAvailSize w needNotify = .ok out) :
    ∃ es, out.world.log = w.log ++ es ∧ 0 < (delivered devApi s.ref es).length := by
  obtain ⟨fuel', _, w₁, s₁, e, -, -, -, -, -, hlog, hone, -, hrest⟩ :=
    sendData_wide_round hw hs hok hpos hvq h
  obtain ⟨es, hlog', -⟩ := sendData_onlySends _ _ _ _ out hrest
  refine ⟨e :: es, by rw [hlog', hlog, List.append_assoc]; rfl, ?_⟩
  rw [delivered, List.flatMap_cons, List.length_append, hone]
  omega

/-- Where `2 ^ 30` bytes or more are to be sent, each buffer takes as many: what the answer
loses of the size is sent again. -/
theorem sendData_wide_many :
    ∀ (k fuel : Nat) (w : World VirtIOVSock P) (s : VsockStream P) (needNotify : Bool)
      (out : Swept VirtIOVSock P), w.Wf → s ∈ w.mStreams → s.hostToGuestBuf.Ok →
      2 ^ 30 ≤ min s.hostToGuestBuf.pending.length s.guestAvailSize → w.vq = wide k →
      sendData devApi s.ref fuel s.guestAvailSize w needNotify = .ok out →
      ∃ es, out.world.log = w.log ++ es ∧ k * 2 ^ 30 ≤ (delivered devApi s.ref es).length
  | 0, fuel, w, s, needNotify, out, _, _, _, _, _, h => by
      obtain ⟨es, hlog, -⟩ := sendData_onlySends _ _ _ _ out h
      exact ⟨es, hlog, by omega⟩
  | k + 1, fuel, w, s, needNotify, out, hw, hs, hok, hlarge, hvq, h => by
      obtain ⟨fuel', _, w₁, s₁, e, hw₁, hs₁, href, hok₁, hvq₁, hlog, hone, hleft, hrest⟩ :=
        sendData_wide_round hw hs hok (by omega) hvq h
      rw [← href] at hrest
      obtain ⟨es, hlog', hmany⟩ := sendData_wide_many k fuel' w₁ s₁ _ out hw₁ hs₁ hok₁ (by omega)
        hvq₁ hrest
      refine ⟨e :: es, by rw [hlog', hlog, List.append_assoc]; rfl, ?_⟩
      rw [href] at hmany
      have hstep : (k + 1) * 2 ^ 30 = 2 ^ 30 + k * 2 ^ 30 := by rw [Nat.succ_mul, Nat.add_comm]
      have hsplit : delivered devApi s.ref (e :: es) =
          e.delivers devApi s.ref ++ delivered devApi s.ref es := List.flatMap_cons
      rw [hsplit, List.length_append, hone, hstep]
      exact Nat.add_le_add hlarge hmany

/-- What `sendPacketsLocked` does for a stream of its own that is not out of credit: the
operations in its mask, then the loop over the data. -/
theorem sendPacketsLocked_lone {n : Nat} {needNotify : Bool} {w' : World VirtIOVSock P}
    (hok : s.hostToGuestBuf.Ok) (havail : s.guestAvailSize ≠ 0)
    (h : sendPacketsLocked devApi (loneWorld s (n + 4)) = .ok (needNotify, w')) :
    ∃ fuel needNotify' w₁ s₁ m out, n ≤ m ∧ World.Wf w₁ ∧ s₁ ∈ w₁.mStreams ∧ s₁.ref = s.ref ∧
      s₁.hostToGuestBuf = s.hostToGuestBuf ∧ s₁.guestAvailSize = s.guestAvailSize ∧
      w₁.vq = wide m ∧
      sendData devApi s₁.ref fuel s₁.guestAvailSize w₁ needNotify' = .ok out ∧ w' = out.world ∧
      ∀ e ∈ w₁.log, ∃ vq op, s.hasOp op = true ∧
        e = .call (some s.ref) vq (s.preparePacketHeader op 0) [] ∧
        virtIOVSockSendIsVqFull (devApi.sendPacketHostToGuest vq
          (s.preparePacketHeader op 0) []).result = false := by
  have hsane : (loneWorld s (n + 4)).Sane := loneWorld_sane hok
  have hderef : (loneWorld s (n + 4)).deref s.ref = .ok s := hsane.wf.deref_eq mem_loneWorld
  have horph : (loneWorld s (n + 4)).mOrphanPackets = [] := rfl
  have hone : (loneWorld s (n + 4)).mStreams.elems = [s] := rfl
  have hops := @sendStreamOps_lone P s n false havail
  have hatoms := (@sendStreamOps_atoms _ _ devApi {} _ hsane.wf s mem_loneWorld rfl false).1
  simp only [sendPacketsLocked, horph, sendOrphanPackets, Bool.false_eq_true, if_false, hone,
    List.map_cons, List.map_nil, sendStreams, sendStream, hderef, ok_bind] at h
  generalize sendStreamOps devApi s (loneWorld s (n + 4)) false = swept at *
  obtain ⟨hfull, ⟨m, hm, hvq⟩, helems, hlog⟩ := hops
  simp only [hfull, Bool.false_eq_true, if_false, bind_eq_ok] at h
  obtain ⟨out', ⟨out, hout, hlast⟩, hpair⟩ := h
  have hworld : out'.world = out.world := by
    split at hlast
    · rw [Except.ok.inj hlast]
    · rw [← Except.ok.inj hlast]
  simp only [pure_eq_ok, Prod.mk.injEq] at hpair
  refine ⟨_, _, swept.world, { s with sendOpMask := 0 }, m, out, hm, hatoms.wf hsane.wf, ?_, rfl, rfl,
    rfl, hvq, hout, hpair.2.symm.trans hworld, hlog⟩
  rw [StdSet.mem_def, helems]
  exact List.mem_cons_self

end Lone

/-- Without anything to send, the loop over the data does nothing. -/
theorem sendData_empty {w : World VirtIOVSock P} {s : VsockStream P} {fuel : Nat}
    {needNotify : Bool} {out : Swept VirtIOVSock P} (hw : w.Wf) (hs : s ∈ w.mStreams)
    (hempty : s.hostToGuestBuf.pending = [])
    (h : sendData devApi s.ref fuel s.guestAvailSize w needNotify = .ok out) : out.world = w := by
  cases fuel with
  | zero => simp [sendData] at h
  | succ fuel =>
      unfold sendData at h
      by_cases hzero : s.guestAvailSize = 0
      · rw [if_pos hzero, pure_eq_ok] at h
        rw [← h]
      · rw [if_neg hzero, hw.deref_eq hs, ok_bind, bind_eq_ok] at h
        obtain ⟨data, hpeek, h⟩ := h
        obtain ⟨-, rfl⟩ := SocketBuffer.peek_eq_ok.mp hpeek
        rw [hempty, List.length_nil, if_pos rfl, pure_eq_ok] at h
        rw [← h]

/-- One call of `sendPacketsLocked` keeps a stream within its window, whatever else there is
on the device, exactly if the stream is restrained. -/
theorem withinWindow_iff {s : VsockStream P} (hok : s.hostToGuestBuf.Ok) :
    (∀ w : World VirtIOVSock P, w.Sane → s ∈ w.mStreams → ∃ needNotify w' es,
      sendPacketsLocked devApi w = .ok (needNotify, w') ∧ w'.log = w.log ++ es ∧
        WithinWindow s es) ↔ s.Restrained := by
  refine ⟨fun h => ?_, fun h w hw hs => h.withinWindow hw hs⟩
  -- alone on the device, with more large buffers than there are operations
  obtain ⟨needNotify, w', es, hsend, hlog, hwithin⟩ := h (loneWorld s (4 + 4)) (loneWorld_sane hok)
    mem_loneWorld
  rw [show (loneWorld s (4 + 4)).log = [] from rfl, List.nil_append] at hlog
  have hbytes := hwithin.bytes
  by_cases hover : s.guestBufAlloc.toNat < s.inFlight
  · obtain ⟨hfree, hroom⟩ := guestAvailSize_of_overdrawn hover
    obtain ⟨fuel, _, w₁, s₁, m, out, hm, hw₁, hs₁, href, hbuf, havail, hvq, hdata, rfl, hops⟩ :=
      sendPacketsLocked_lone hok hfree.ne' hsend
    have hempty : s.hostToGuestBuf.pending = [] := by
      by_contra hne
      have hpos := List.length_pos_iff.mpr hne
      obtain ⟨k, rfl⟩ : ∃ k, m = k + 1 := ⟨m - 1, by omega⟩
      obtain ⟨es₂, hlog₂, hsome⟩ := sendData_wide_pos hw₁ hs₁ (hbuf ▸ hok)
        (by rw [hbuf, havail]; omega) hvq hdata
      rw [← hlog, hlog₂, delivered_append, List.length_append, ← href] at hbytes
      rw [hroom] at hbytes
      omega
    refine Or.inr ⟨hover, hempty, ?_⟩
    rw [sendData_empty hw₁ hs₁ (hbuf ▸ hempty) hdata] at hlog
    rcases hwithin.asks hover with ⟨vq, hdr, hmem, hop⟩ | ⟨source, vq, hdr, data, hmem, hcut⟩
    · obtain ⟨_, op, hhas, heq, -⟩ := hops _ (hlog ▸ hmem)
      obtain ⟨-, -, rfl, -⟩ := Event.call.inj heq
      have hcode : ∀ op : VirtioVsockOp, op.code = VirtioVsockOp.creditRequest.code →
          op = .creditRequest := by
        intro op
        cases op <;> decide
      exact hcode op hop ▸ hhas
    · obtain ⟨_, op, -, heq, hnot⟩ := hops _ (hlog ▸ hmem)
      obtain ⟨-, rfl, rfl, rfl⟩ := Event.call.inj heq
      rw [hnot] at hcut
      exact absurd hcut Bool.false_ne_true
  · have hle := not_lt.mp hover
    refine Or.inl ⟨hle, ?_⟩
    by_contra hlarge
    have hroom := guestAvailSize_of_le hle
    obtain ⟨fuel, _, w₁, s₁, m, out, hm, hw₁, hs₁, href, hbuf, havail, hvq, hdata, rfl, -⟩ :=
      sendPacketsLocked_lone hok (by omega) hsend
    obtain ⟨es₂, hlog₂, hmany⟩ := sendData_wide_many m fuel w₁ s₁ _ out hw₁ hs₁ (hbuf ▸ hok)
      (by rw [hbuf, havail]; omega) hvq hdata
    rw [← hlog, hlog₂, delivered_append, List.length_append, ← href] at hbytes
    have hlt := guestAvailSize_lt s
    omega

/-- Six bytes for a guest with room for eight, and buffers for five of them. -/
def sendSix : List (Action VirtIOVSock Unit) :=
  [.host (.connect 1000 ()), .control (guestHeader 1000 2147483649 .response 0 8 0) {},
    .host (.sendAsync 0 [1, 2, 3, 4, 5, 6]), .guestRx ⟨3, [45]⟩]

/-- The stream of `sendSix` with five bytes sent, for a guest that announced `window`. -/
def sixStream (window : UInt32) : VsockStream Unit :=
  { ref := 0, guestPort := 1000, hostPort := 2147483649, plug := some (),
    hostToGuestBuf := ⟨[1, 2, 3, 4, 5, 6], 5⟩, guestBufAlloc := window, hostSentCnt := 5,
    isConnected := true }

theorem withinWindow_sendSix : ∃ w,
    run devApi (World.realized ∅ ⟨3, [44, 44, 49]⟩) sendSix = .ok w ∧ sixStream 8 ∈ w.mStreams ∧
      (sixStream 8).room = 3 ∧ ∃ needNotify w' es,
        sendPacketsLocked devApi w = .ok (needNotify, w') ∧ w'.log = w.log ++ es ∧
          WithinWindow (sixStream 8) es := by
  obtain ⟨w, hrun, hs⟩ : ∃ w, run devApi (World.realized ∅ ⟨3, [44, 44, 49]⟩) sendSix = .ok w ∧
      sixStream 8 ∈ w.mStreams := ⟨_, rfl, List.mem_cons_self⟩
  have hsane : w.Sane := foldlM_invariant (I := World.Sane) (fun _ _ _ h => step_sane h)
    realized_sane hrun
  have hok : (sixStream 8).hostToGuestBuf.Ok := Nat.le_succ 5
  refine ⟨w, hrun, hs, by decide, (withinWindow_iff hok).mpr (Or.inl ⟨by decide, ?_⟩) w hsane hs⟩
  exact lt_of_le_of_lt (Nat.min_le_left _ _) (by decide)

/-- The guest of `sendSix` lowers its window below the five bytes in flight. -/
def shrinkWindow : List (Action VirtIOVSock Unit) :=
  sendSix ++ [.control (guestHeader 1000 2147483649 .creditUpdate 0 4 0) {}]

/-- There is no room, and the sixth byte is delivered. -/
theorem shrinkWindow_overrun : ∃ w,
    run devApi (World.realized ∅ ⟨3, [44, 44, 49]⟩) shrinkWindow = .ok w ∧
      sixStream 4 ∈ w.mStreams ∧ (sixStream 4).guestBufAlloc.toNat < (sixStream 4).inFlight ∧
        ∃ needNotify w' es, sendPacketsLocked devApi w = .ok (needNotify, w') ∧
          w'.log = w.log ++ es ∧ ¬ WithinWindow (sixStream 4) es := by
  obtain ⟨w, w', hrun, hs, hsend, hlog⟩ : ∃ w w',
      run devApi (World.realized ∅ ⟨3, [44, 44, 49]⟩) shrinkWindow = .ok w ∧
        sixStream 4 ∈ w.mStreams ∧ sendPacketsLocked devApi w = .ok (true, w') ∧ w'.log = w.log ++
          [.call (some 0) ⟨3, [45]⟩ (preparePacketHeader 2147483649 1000 .rw 0 1) [6]] :=
    ⟨_, _, rfl, List.mem_cons_self, rfl, rfl⟩
  refine ⟨w, hrun, hs, by decide, true, w', _, hsend, hlog, fun h => ?_⟩
  have hroom : (sixStream 4).room = 0 := by decide
  have hbytes := h.bytes
  rw [hroom] at hbytes
  exact absurd hbytes (by decide)

end Goldfish.Vsock
