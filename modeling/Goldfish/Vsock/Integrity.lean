import Goldfish.Vsock.Life

/-!
# Goldfish.Vsock.Integrity

**Host-to-guest stream integrity.** Behind a virtqueue side that tells the truth about
what it delivered (`Exact`), the bytes delivered for a stream followed by the bytes
still in its buffer are the bytes `sendAsync` stored, in order, without loss or
duplication, and `hostSentCnt` counts the delivered bytes modulo `2 ^ 32`
(`StreamIntact`). The asserts of `SocketBuffer` never fail, and the send loop always
ends.
-/

namespace Goldfish.Vsock

open Goldfish.Lib

variable {σ P : Type} {api : GoldfishVirtIOVSockDevAPI σ} {mode : Mode}

/-- `sendPacketHostToGuest` delivers a prefix of the `hdr.len` payload bytes, returns its
exact length, and reports a full queue unless everything was delivered. -/
structure GoldfishVirtIOVSockDevAPI.Exact (api : GoldfishVirtIOVSockDevAPI σ) : Prop where
  isPrefix : ∀ vq hdr data,
    (api.sendPacketHostToGuest vq hdr data).payload <+: data.take hdr.len.toNat
  size : ∀ vq hdr data, virtIOVSockSentSize (api.sendPacketHostToGuest vq hdr data).result =
    (api.sendPacketHostToGuest vq hdr data).payload.length
  whole : ∀ vq hdr data,
    virtIOVSockSendIsVqFull (api.sendPacketHostToGuest vq hdr data).result = false →
    (api.sendPacketHostToGuest vq hdr data).payload = data.take hdr.len.toNat

theorem GoldfishVirtIOVSockDevAPI.Exact.lawful (h : api.Exact) : api.Lawful where
  bounded vq hdr data := by
    rw [h.size]
    exact (h.isPrefix vq hdr data).length_le.trans (List.length_take_le _ _)
  advances vq hdr data _ hlen hfull := by
    refine Or.inl ?_
    rw [h.size, h.whole vq hdr data hfull, List.length_take]
    omega

/-- A call delivers a part of the data that it is given, and says how much. -/
structure AnswersExactly (api : GoldfishVirtIOVSockDevAPI σ) (vq : σ) (hdr : VirtioVsockHdr)
    (data : List UInt8) : Prop where
  payload : (api.sendPacketHostToGuest vq hdr data).payload <+: data
  size : virtIOVSockSentSize (api.sendPacketHostToGuest vq hdr data).result =
    (api.sendPacketHostToGuest vq hdr data).payload.length

/-- The delivered bytes, as a prefix of the data that was offered. -/
theorem AnswersExactly.payload_eq {vq : σ} {hdr : VirtioVsockHdr} {data : List UInt8}
    (h : AnswersExactly api vq hdr data) : (api.sendPacketHostToGuest vq hdr data).payload =
      data.take (virtIOVSockSentSize (api.sendPacketHostToGuest vq hdr data).result) := by
  rw [h.size]
  exact List.prefix_iff_eq_take.mp h.payload

theorem GoldfishVirtIOVSockDevAPI.Exact.answersExactly (h : api.Exact) (vq : σ)
    (hdr : VirtioVsockHdr) (data : List UInt8) : AnswersExactly api vq hdr data where
  payload := (h.isPrefix vq hdr data).trans (List.take_prefix _ _)
  size := h.size vq hdr data

theorem devApi_answersExactly {vq : VirtIOVSock} {hdr : VirtioVsockHdr} (data : List UInt8)
    (hfits : min hdr.len.toNat vq.room < 2 ^ 30) : AnswersExactly devApi vq hdr data where
  payload := (devApi_payload_front vq hdr data).trans (List.take_prefix _ _)
  size := devApi_sentSize_of_fits data hfits

/-! ### What was delivered and what was stored -/

/-- The payload bytes an event delivers for a stream. -/
def Event.delivers (api : GoldfishVirtIOVSockDevAPI σ) (ref : Ref) : Event σ P → List UInt8
  | .call source vq hdr data =>
      if source = some ref then (api.sendPacketHostToGuest vq hdr data).payload else []
  | _ => []

/-- The bytes an event stores for a stream. -/
def Event.stores (ref : Ref) : Event σ P → List UInt8
  | .buffered s data => if s = ref then data else []
  | _ => []

/-- The payload bytes delivered for a stream. -/
def delivered (api : GoldfishVirtIOVSockDevAPI σ) (ref : Ref) (log : List (Event σ P)) :
    List UInt8 :=
  log.flatMap (Event.delivers api ref)

/-- The bytes passed to `sendAsync` while the stream was connected. -/
def stored (ref : Ref) (log : List (Event σ P)) : List UInt8 := log.flatMap (Event.stores ref)

theorem delivers_of_ref_ne {ref : Ref} {e : Event σ P} (h : e.ref? ≠ some ref) :
    e.delivers api ref = [] := by
  cases e with
  | call source vq hdr data => exact if_neg h
  | _ => rfl

theorem stores_of_ref_ne {ref : Ref} {e : Event σ P} (h : e.ref? ≠ some ref) :
    e.stores ref = [] := by
  cases e with
  | buffered s data => exact if_neg fun hs => h (congrArg some hs)
  | _ => rfl

@[simp] theorem delivered_append {ref : Ref} {log es : List (Event σ P)} :
    delivered api ref (log ++ es) = delivered api ref log ++ delivered api ref es :=
  List.flatMap_append

@[simp] theorem stored_append {ref : Ref} {log es : List (Event σ P)} :
    stored ref (log ++ es) = stored ref log ++ stored ref es := List.flatMap_append

theorem delivered_of_ref_ne {ref : Ref} {es : List (Event σ P)}
    (h : ∀ e ∈ es, e.ref? ≠ some ref) : delivered api ref es = [] :=
  List.flatMap_eq_nil_iff.mpr fun e he => delivers_of_ref_ne (h e he)

theorem stored_of_ref_ne {ref : Ref} {es : List (Event σ P)}
    (h : ∀ e ∈ es, e.ref? ≠ some ref) : stored ref es = [] :=
  List.flatMap_eq_nil_iff.mpr fun e he => stores_of_ref_ne (h e he)

/-! ### The invariant of a stream -/

/-- Nothing is lost, nothing is sent twice, and the counter counts. -/
structure StreamIntact (api : GoldfishVirtIOVSockDevAPI σ) (log : List (Event σ P))
    (s : VsockStream P) : Prop where
  bytes : delivered api s.ref log ++ s.hostToGuestBuf.pending = stored s.ref log
  sentCnt : s.hostSentCnt = UInt32.ofNat (delivered api s.ref log).length
  ok : s.hostToGuestBuf.Ok

/-- Events that neither deliver nor store anything for the stream, and an update that
touches neither its buffer nor its counter. -/
theorem StreamIntact.quiet {log es : List (Event σ P)} {s s' : VsockStream P}
    (h : StreamIntact api log s) (href : s'.ref = s.ref)
    (hbuf : s'.hostToGuestBuf = s.hostToGuestBuf) (hcnt : s'.hostSentCnt = s.hostSentCnt)
    (hdel : delivered api s.ref es = []) (hst : stored s.ref es = []) :
    StreamIntact api (log ++ es) s' where
  bytes := by
    rw [href, hbuf, delivered_append, stored_append, hdel, hst, List.append_nil, List.append_nil]
    exact h.bytes
  sentCnt := by
    rw [href, hcnt, delivered_append, hdel, List.append_nil]
    exact h.sentCnt
  ok := hbuf ▸ h.ok

/-- A control packet has no payload. -/
theorem delivered_control {ref : Ref} {source : Option Ref} {vq : σ} {hdr : VirtioVsockHdr}
    (hpayload : (api.sendPacketHostToGuest vq hdr []).payload <+: []) :
    delivered api ref [(.call source vq hdr [] : Event σ P)] = [] := by
  simp [delivered, Event.delivers, List.prefix_nil.mp hpayload]

theorem delivered_devApi_control {ref : Ref} {source : Option Ref} {vq : VirtIOVSock}
    {hdr : VirtioVsockHdr} :
    delivered devApi ref [(.call source vq hdr [] : Event VirtIOVSock P)] = [] :=
  delivered_control ((devApi_payload_front vq hdr []).trans (List.take_prefix _ _))

/-- A reset only tells plugs. -/
theorem quiet_of_unplugs {ref : Ref} {es : List (Event σ P)}
    (hes : ∀ e ∈ es, ∃ ref p, e = .onUnplug ref p) :
    delivered api ref es = [] ∧ stored ref es = [] := by
  refine ⟨List.flatMap_eq_nil_iff.mpr fun e he => ?_, List.flatMap_eq_nil_iff.mpr fun e he => ?_⟩
  · obtain ⟨ref', p, rfl⟩ := hes e he
    rfl
  · obtain ⟨ref', p, rfl⟩ := hes e he
    rfl

/-- Sending a part of the buffer moves it from pending to delivered, if the answer is exact. -/
theorem StreamIntact.sent {log : List (Event σ P)} {s : VsockStream P} {vq : σ}
    {hdr : VirtioVsockHdr} {buf : SocketBuffer} (h : StreamIntact api log s)
    (hexact : AnswersExactly api vq hdr s.hostToGuestBuf.pending)
    (hbuf : s.hostToGuestBuf.consume (virtIOVSockSentSize
      (api.sendPacketHostToGuest vq hdr s.hostToGuestBuf.pending).result) = .ok buf) :
    StreamIntact api (log ++ [.call (some s.ref) vq hdr s.hostToGuestBuf.pending])
      { s with
        hostToGuestBuf := buf
        hostSentCnt := s.hostSentCnt + UInt32.ofNat (virtIOVSockSentSize
          (api.sendPacketHostToGuest vq hdr s.hostToGuestBuf.pending).result) } := by
  obtain ⟨hok, hpend, -⟩ := SocketBuffer.consume_spec hbuf
  have hone : delivered api s.ref
      [(.call (some s.ref) vq hdr s.hostToGuestBuf.pending : Event σ P)] =
        (api.sendPacketHostToGuest vq hdr s.hostToGuestBuf.pending).payload := by
    simp [delivered, Event.delivers]
  refine ⟨?_, ?_, hok⟩
  · rw [delivered_append, stored_append, hone, hpend, hexact.size, List.append_assoc]
    have hwhole := List.prefix_iff_eq_append.mp hexact.payload
    rw [hwhole]
    simpa [stored, Event.stores] using h.bytes
  · rw [delivered_append, hone, List.length_append, UInt32.ofNat_add, ← hexact.size, ← h.sentCnt]

/-- `sendAsync` adds at the end. -/
theorem StreamIntact.buffered {log : List (Event σ P)} {s : VsockStream P} {data : List UInt8}
    (h : StreamIntact api log s) : StreamIntact api (log ++ [.buffered s.ref data])
      { s with hostToGuestBuf := s.hostToGuestBuf.append data } := by
  refine ⟨?_, ?_, SocketBuffer.append_ok _ _⟩
  · rw [delivered_append, stored_append, SocketBuffer.pending_append, ← h.bytes]
    simp [delivered, stored, Event.delivers, Event.stores]
  · rw [delivered_append, h.sentCnt]
    simp [delivered, Event.delivers]

/-- A turn keeps the stream intact if its calls are answered exactly. -/
theorem StreamIntact.turn {log es : List (Event σ P)} {s s' : VsockStream P}
    (hturn : Turn api mode log s es s') (h : StreamIntact api log s)
    (hexact : ∀ vq hdr data, .call (some s.ref) vq hdr data ∈ es → AnswersExactly api vq hdr data) :
    StreamIntact api (log ++ es) s' := by
  cases hturn with
  | opSent _ _ _ =>
      have hcall := hexact _ _ _ List.mem_cons_self
      exact h.quiet rfl rfl rfl (delivered_control hcall.payload) rfl
  | opKept _ _ _ =>
      have hcall := hexact _ _ _ List.mem_cons_self
      exact h.quiet rfl rfl rfl (delivered_control hcall.payload) rfl
  | dataSent _ _ _ _ _ _ _ hbuf => exact h.sent (hexact _ _ _ List.mem_cons_self) hbuf
  | buffered _ _ => exact h.buffered
  | _ => exact h.quiet rfl rfl rfl rfl rfl

/-- A new stream is intact. -/
theorem streamIntact_born {log es : List (Event σ P)} {s : VsockStream P}
    (hnew : ∀ e ∈ log, e.ref? ≠ some s.ref) (hborn : Born es s) : StreamIntact api (log ++ es) s := by
  have hstart : s.hostToGuestBuf = {} → s.hostSentCnt = 0 → StreamIntact api log s := by
    intro hbuf hcnt
    refine ⟨?_, ?_, hbuf ▸ Nat.zero_le _⟩
    · rw [delivered_of_ref_ne hnew, stored_of_ref_ne hnew, hbuf]
      rfl
    · rw [delivered_of_ref_ne hnew, hcnt]
      rfl
  cases hborn with
  | connected => exact (hstart rfl rfl).quiet rfl rfl rfl rfl rfl
  | requested => exact (hstart rfl rfl).quiet rfl rfl rfl rfl rfl

/-- Every turn of a stream keeps it intact. -/
theorem streamIntact_lasting (hapi : api.Exact) : Lasting api mode (StreamIntact (P := P) api) where
  frame _ _ _ hother h :=
    h.quiet rfl rfl rfl (delivered_of_ref_ne hother) (stored_of_ref_ne hother)
  turn _ _ _ _ hturn h := h.turn hturn fun vq hdr data _ => hapi.answersExactly vq hdr data
  born _ _ _ hnew hborn := streamIntact_born hnew hborn

/-- In every run, every stream is intact in every state reached; and no run stops at an
assertion of `SocketBuffer` or inside the send loop. -/
theorem run_streamIntact (hapi : api.Exact) (listeners : Finset UInt32) (vq : σ)
    (acts : List (Action σ P)) :
    (∀ w, run api (World.realized listeners vq) acts = .ok w →
      ∀ s ∈ w.mStreams, StreamIntact api w.log s) ∧
    ∀ e, run api (World.realized listeners vq) acts = .error e →
      e ≠ .assertConsumed ∧ e ≠ .spin := by
  refine ⟨fun w hrun => ?_, fun e herr => run_error_ne hapi.lawful realized_sane herr⟩
  have hlasting : Lasting api {} (StreamIntact (P := P) api) := streamIntact_lasting hapi
  refine (run_living hlasting (fun log es s hes h => ?_)
    (along_of_forall fun w a => Mode.allows_default w a) living_realized hrun).each
  obtain ⟨hdel, hst⟩ := @quiet_of_unplugs _ _ api s.ref es hes
  exact h.quiet rfl rfl rfl hdel hst

/-- `dev_api` as far as its answers are exact; a call that does not fit is turned down. -/
def fittingApi : GoldfishVirtIOVSockDevAPI VirtIOVSock where
  sendPacketHostToGuest vq hdr data :=
    if min hdr.len.toNat vq.room < 2 ^ 30 then devApi.sendPacketHostToGuest vq hdr data
    else ⟨vq, makeVirtIOVSockSendResult true false 0, []⟩
  avail := devApi.avail

theorem fittingApi_exact : fittingApi.Exact := by
  refine ⟨fun vq hdr data => ?_, fun vq hdr data => ?_, fun vq hdr data hfull => ?_⟩ <;>
    by_cases hfits : min hdr.len.toNat vq.room < 2 ^ 30
  · simp only [fittingApi, if_pos hfits]
    exact devApi_payload_front vq hdr data
  · simp only [fittingApi, if_neg hfits]
    exact List.nil_prefix
  · simp only [fittingApi, if_pos hfits]
    exact devApi_sentSize_of_fits data hfits
  · simp only [fittingApi, if_neg hfits, virtIOVSockSentSize_make]
    rfl
  · simp only [fittingApi, if_pos hfits] at hfull ⊢
    exact devApi_payload_whole hfull
  · simp only [fittingApi, if_neg hfits, virtIOVSockSendIsVqFull_make] at hfull
    cases hfull

/-- The guest accepts a connection; its buffer takes two of the three bytes sent. -/
def sendThree : List (Action VirtIOVSock Unit) :=
  [.host (.connect 1000 ()),
    .control (guestHeader 1000 2147483649 .response 0 8 0) {},
    .host (.sendAsync 0 [1, 2, 3])]

theorem run_streamIntact_sendThree : ∃ w s,
    run fittingApi (World.realized ∅ ⟨3, [44, 44, 46]⟩) sendThree = .ok w ∧ s ∈ w.mStreams ∧
      StreamIntact fittingApi w.log s ∧ delivered fittingApi s.ref w.log = [1, 2] ∧
      s.hostToGuestBuf.pending = [3] := by
  refine ⟨_, _, rfl, List.mem_cons_self, ?_, rfl, rfl⟩
  exact (run_streamIntact fittingApi_exact ∅ ⟨3, [44, 44, 46]⟩ sendThree).1 _ rfl _
    List.mem_cons_self

end Goldfish.Vsock
