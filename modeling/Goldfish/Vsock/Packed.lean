import Goldfish.Vsock.Credit
import Goldfish.Vsock.Ordering

/-!
# Goldfish.Vsock.Packed

**The packed send result.** `VirtIOVSockSendResult` has 30 bits for the number of bytes
that were sent; the length in a header has 32, and neither the buffer of a stream nor the
window of its guest is capped.

What `sendPacketsLocked` offers is a function of the history (`Offered`): the bytes that
were stored and not reported as sent (`unsent`), cut to the free space that follows from
the guest's last header (`credit`). So a call is answered exactly, and gets the loop
further, as long as one of the two is below `2 ^ 30` (`run_packed_iff`).
-/

namespace Goldfish.Vsock

open Goldfish.Lib

variable {σ P : Type} {api : GoldfishVirtIOVSockDevAPI σ} {mode : Mode}

/-! ### What the device knows of a stream -/

/-- The bytes an answer reports as sent for a stream. -/
def Event.reports (api : GoldfishVirtIOVSockDevAPI σ) (ref : Ref) : Event σ P → Nat
  | .call source vq hdr data =>
      if source = some ref then virtIOVSockSentSize (api.sendPacketHostToGuest vq hdr data).result
      else 0
  | _ => 0

/-- The bytes reported as sent for a stream so far. -/
def reported (api : GoldfishVirtIOVSockDevAPI σ) (ref : Ref) (log : List (Event σ P)) : Nat :=
  (log.map (Event.reports api ref)).sum

/-- The bytes of a stream that are still to be sent, as far as the device knows. -/
def unsent (api : GoldfishVirtIOVSockDevAPI σ) (ref : Ref) (log : List (Event σ P)) :
    List UInt8 :=
  (stored ref log).drop (reported api ref log)

/-- The header that counts after an event. -/
def Event.announces (ref : Ref) (last : UInt32 × UInt32) : Event σ P → UInt32 × UInt32
  | .received s hdr => if s = ref then (hdr.bufAlloc, hdr.fwdCnt) else last
  | _ => last

/-- The buffer size and the counter in the guest's last header for a stream. -/
def announced (ref : Ref) (log : List (Event σ P)) : UInt32 × UInt32 :=
  log.foldl (Event.announces ref) (0, 0)

/-- The guest's free space that follows from its last header and the reports. -/
def credit (api : GoldfishVirtIOVSockDevAPI σ) (ref : Ref) (log : List (Event σ P)) : Nat :=
  ((announced ref log).1 - (UInt32.ofNat (reported api ref log) - (announced ref log).2)).toNat

theorem reports_of_ref_ne {ref : Ref} {e : Event σ P} (h : e.ref? ≠ some ref) :
    e.reports api ref = 0 := by
  cases e with
  | call source vq hdr data => exact if_neg h
  | _ => rfl

theorem announces_of_ref_ne {ref : Ref} {e : Event σ P} (h : e.ref? ≠ some ref)
    (last : UInt32 × UInt32) : e.announces ref last = last := by
  cases e with
  | received s hdr => exact if_neg fun hs => h (congrArg some hs)
  | _ => rfl

@[simp] theorem reported_append {ref : Ref} {log es : List (Event σ P)} :
    reported api ref (log ++ es) = reported api ref log + reported api ref es := by
  rw [reported, List.map_append, List.sum_append]
  rfl

theorem reported_of_ref_ne {ref : Ref} {es : List (Event σ P)}
    (h : ∀ e ∈ es, e.ref? ≠ some ref) : reported api ref es = 0 := by
  refine List.sum_eq_zero_iff_forall_eq_nat.mpr fun n hn => ?_
  obtain ⟨e, he, rfl⟩ := List.mem_map.mp hn
  exact reports_of_ref_ne (h e he)

theorem announced_append_of_quiet {ref : Ref} {log es : List (Event σ P)}
    (h : ∀ e ∈ es, ∀ last, e.announces ref last = last) :
    announced ref (log ++ es) = announced ref log := by
  rw [announced, List.foldl_append]
  generalize hlast : log.foldl (Event.announces ref) (0, 0) = last
  rw [announced, hlast]
  clear hlast
  induction es with
  | nil => rfl
  | cons e es ih =>
      rw [List.foldl_cons, h e List.mem_cons_self]
      exact ih fun e' he' => h e' (List.mem_cons_of_mem _ he')

theorem announced_received {ref : Ref} {log : List (Event σ P)} {hdr : VirtioVsockHdr} :
    announced ref (log ++ [.received ref hdr]) = (hdr.bufAlloc, hdr.fwdCnt) := by
  rw [announced, List.foldl_append, List.foldl_cons, List.foldl_nil]
  exact if_pos rfl

/-- The state of a stream is what its history says. -/
structure InBooks (api : GoldfishVirtIOVSockDevAPI σ) (log : List (Event σ P))
    (s : VsockStream P) : Prop where
  ok : s.hostToGuestBuf.Ok
  le : reported api s.ref log ≤ (stored s.ref log).length
  pending : s.hostToGuestBuf.pending = unsent api s.ref log
  sentCnt : s.hostSentCnt = UInt32.ofNat (reported api s.ref log)
  announced : (s.guestBufAlloc, s.guestFwdCnt) = announced s.ref log

section InBooks

variable {log es : List (Event σ P)} {s s' : VsockStream P}

theorem InBooks.guestAvailSize_eq (h : InBooks api log s) :
    s.guestAvailSize = credit api s.ref log := by
  unfold VsockStream.guestAvailSize credit
  rw [← h.announced, h.sentCnt]

/-- Nothing is stored or reported, and buffer and counter stay as they are. -/
theorem InBooks.carry (h : InBooks api log s) {log' : List (Event σ P)}
    (hbuf : s'.hostToGuestBuf = s.hostToGuestBuf) (hcnt : s'.hostSentCnt = s.hostSentCnt)
    (hstored : stored s'.ref log' = stored s.ref log)
    (hreported : reported api s'.ref log' = reported api s.ref log)
    (hannounced : (s'.guestBufAlloc, s'.guestFwdCnt) = Vsock.announced s'.ref log') :
    InBooks api log' s' := by
  refine ⟨hbuf ▸ h.ok, ?_, ?_, ?_, hannounced⟩
  · rw [hstored, hreported]
    exact h.le
  · rw [unsent, hstored, hreported, hbuf]
    exact h.pending
  · rw [hreported, hcnt]
    exact h.sentCnt

/-- Events that store, report and announce nothing for the stream. -/
theorem InBooks.quiet (h : InBooks api log s) (href : s'.ref = s.ref)
    (hbuf : s'.hostToGuestBuf = s.hostToGuestBuf) (hcnt : s'.hostSentCnt = s.hostSentCnt)
    (hhdr : (s'.guestBufAlloc, s'.guestFwdCnt) = (s.guestBufAlloc, s.guestFwdCnt))
    (hstored : stored s.ref es = []) (hreported : reported api s.ref es = 0)
    (hannounced : ∀ e ∈ es, ∀ last, e.announces s.ref last = last) :
    InBooks api (log ++ es) s' := by
  refine h.carry hbuf hcnt ?_ ?_ ?_
  · rw [href, stored_append, hstored, List.append_nil]
  · rw [href, reported_append, hreported, Nat.add_zero]
  · rw [href, announced_append_of_quiet hannounced, hhdr]
    exact h.announced

/-- A header from the guest. -/
theorem InBooks.header (h : InBooks api log s) {hdr : VirtioVsockHdr} (href : s'.ref = s.ref)
    (hbuf : s'.hostToGuestBuf = s.hostToGuestBuf) (hcnt : s'.hostSentCnt = s.hostSentCnt)
    (hhdr : (s'.guestBufAlloc, s'.guestFwdCnt) = (hdr.bufAlloc, hdr.fwdCnt)) :
    InBooks api (log ++ [.received s.ref hdr]) s' := by
  refine h.carry hbuf hcnt ?_ ?_ ?_
  · rw [href, stored_append]
    exact List.append_nil _
  · rw [href, reported_append]
    rfl
  · rw [href, announced_received, hhdr]

/-- A header from the guest that makes the stream connected. -/
theorem InBooks.header_quiet (h : InBooks api log s) {hdr : VirtioVsockHdr} (href : s'.ref = s.ref)
    (hbuf : s'.hostToGuestBuf = s.hostToGuestBuf) (hcnt : s'.hostSentCnt = s.hostSentCnt)
    (hhdr : (s'.guestBufAlloc, s'.guestFwdCnt) = (hdr.bufAlloc, hdr.fwdCnt))
    (hstored : stored s.ref es = []) (hreported : reported api s.ref es = 0)
    (hannounced : ∀ e ∈ es, ∀ last, e.announces s.ref last = last) :
    InBooks api (log ++ .received s.ref hdr :: es) s' := by
  rw [List.append_cons]
  rw [← href] at hstored hreported hannounced
  exact (h.header href hbuf hcnt hhdr).quiet rfl rfl rfl rfl hstored hreported hannounced

/-- Data is stored. -/
theorem InBooks.buffered (h : InBooks api log s) {data : List UInt8} :
    InBooks api (log ++ [.buffered s.ref data])
      { s with hostToGuestBuf := s.hostToGuestBuf.append data } := by
  have hstored : stored s.ref (log ++ [.buffered s.ref data]) = stored s.ref log ++ data := by
    rw [stored_append]
    simp [stored, Event.stores]
  have hreported : reported api s.ref (log ++ [.buffered s.ref data]) = reported api s.ref log := by
    rw [reported_append]
    rfl
  have hle := h.le
  refine ⟨SocketBuffer.append_ok _ _, ?_, ?_, ?_, ?_⟩
  · rw [hstored, hreported, List.length_append]
    omega
  · rw [SocketBuffer.pending_append, h.pending]
    show _ = unsent api s.ref _
    rw [unsent, unsent, hstored, hreported, List.drop_append_of_le_length hle]
  · rw [hreported]
    exact h.sentCnt
  · exact h.announced.trans (announced_append_of_quiet (by simp [Event.announces])).symm

/-- Data is offered, and what is reported as sent leaves the buffer. -/
theorem InBooks.sent (h : InBooks api log s) {vq : σ} {hdr : VirtioVsockHdr} {buf : SocketBuffer}
    (hbuf : s.hostToGuestBuf.consume (virtIOVSockSentSize
      (api.sendPacketHostToGuest vq hdr s.hostToGuestBuf.pending).result) = .ok buf) :
    InBooks api (log ++ [.call (some s.ref) vq hdr s.hostToGuestBuf.pending])
      { s with
        hostToGuestBuf := buf
        hostSentCnt := s.hostSentCnt + UInt32.ofNat (virtIOVSockSentSize
          (api.sendPacketHostToGuest vq hdr s.hostToGuestBuf.pending).result) } := by
  generalize hsize : virtIOVSockSentSize
    (api.sendPacketHostToGuest vq hdr s.hostToGuestBuf.pending).result = size at hbuf ⊢
  have hstored : stored s.ref (log ++ [.call (some s.ref) vq hdr s.hostToGuestBuf.pending]) =
      stored s.ref log := by
    rw [stored_append]
    exact List.append_nil _
  have hreported : reported api s.ref
      (log ++ [.call (some s.ref) vq hdr s.hostToGuestBuf.pending]) =
        reported api s.ref log + size := by
    rw [reported_append, ← hsize]
    simp [reported, Event.reports]
  obtain ⟨hok, hpend, hle⟩ := SocketBuffer.consume_spec hbuf
  have hlen := h.le
  rw [h.pending, unsent, List.length_drop] at hle
  refine ⟨hok, ?_, ?_, ?_, ?_⟩
  · rw [hstored, hreported]
    omega
  · show _ = unsent api s.ref _
    rw [unsent, hstored, hreported, hpend, h.pending, unsent, List.drop_drop]
  · rw [hreported, UInt32.ofNat_add, ← h.sentCnt]
  · exact h.announced.trans (announced_append_of_quiet (by simp [Event.announces])).symm

end InBooks

/-- Every turn of a stream keeps the books. -/
theorem inBooks_lasting (hbounded : api.Bounded) : Lasting api mode (InBooks (P := P) api) where
  frame log es s hother h :=
    h.quiet rfl rfl rfl rfl (stored_of_ref_ne hother) (reported_of_ref_ne hother)
      fun e he last => announces_of_ref_ne (hother e he) last
  turn log es s s' hturn h := by
    have hcontrol : ∀ (vq : σ) (op : VirtioVsockOp), reported api s.ref
        [(.call (some s.ref) vq (s.preparePacketHeader op 0) [] : Event σ P)] = 0 := by
      intro vq op
      have hzero := Nat.le_zero.mp (hbounded vq (s.preparePacketHeader op 0) [])
      simp [reported, Event.reports, hzero]
    cases hturn with
    | opSent _ _ _ =>
        exact h.quiet rfl rfl rfl rfl rfl (hcontrol _ _) (by simp [Event.announces])
    | opKept _ _ _ =>
        exact h.quiet rfl rfl rfl rfl rfl (hcontrol _ _) (by simp [Event.announces])
    | dataSent _ _ _ _ _ _ _ hbuf => exact h.sent hbuf
    | buffered _ _ => exact h.buffered
    | header _ => exact h.header rfl rfl rfl rfl
    | accepted _ => exact h.header_quiet rfl rfl rfl rfl rfl rfl (by simp [Event.announces])
    | responded _ _ _ => exact h.header_quiet rfl rfl rfl rfl rfl rfl (by simp [Event.announces])
    | _ => exact h.quiet rfl rfl rfl rfl rfl rfl (by simp [Event.announces])
  born log es s hnew hborn := by
    have hstart : s.hostToGuestBuf = {} → s.hostSentCnt = 0 →
        (s.guestBufAlloc, s.guestFwdCnt) = ((0, 0) : UInt32 × UInt32) → InBooks api log s := by
      intro hbuf hcnt hhdr
      have hnone : reported api s.ref log = 0 := reported_of_ref_ne hnew
      have hempty : stored s.ref log = [] := stored_of_ref_ne hnew
      refine ⟨hbuf ▸ Nat.zero_le _, by rw [hnone]; exact Nat.zero_le _, ?_, ?_, ?_⟩
      · rw [unsent, hempty, hbuf, List.drop_nil]
        rfl
      · rw [hnone, hcnt]
        rfl
      · rw [hhdr]
        exact (@announced_append_of_quiet _ _ s.ref [] log
          fun e he last => announces_of_ref_ne (hnew e he) last).symm
    cases hborn with
    | connected => exact (hstart rfl rfl rfl).quiet rfl rfl rfl rfl rfl rfl (by simp [Event.announces])
    | requested => exact (hstart rfl rfl rfl).quiet rfl rfl rfl rfl rfl rfl (by simp [Event.announces])

/-! ### What the device offers -/

/-- The data the device offers for a stream, and its length in the header. -/
def Offered (api : GoldfishVirtIOVSockDevAPI σ) (pre : List (Event σ P)) (e : Event σ P) : Prop :=
  ∀ ref vq hdr data, e = .call (some ref) vq hdr data → hdr.op = VirtioVsockOp.rw.code →
    data = unsent api ref pre ∧
      hdr.len.toNat = min (unsent api ref pre).length (credit api ref pre) ∧ 0 < hdr.len.toNat

theorem Turn.offered (hbounded : api.Bounded) {log : List (Event σ P)} {s s' : VsockStream P}
    {vq : σ} {hdr : VirtioVsockHdr} {data : List UInt8}
    (hturn : Turn api mode log s [.call (some s.ref) vq hdr data] s') (h : InBooks api log s)
    (hrw : hdr.op = VirtioVsockOp.rw.code) : data = unsent api s.ref log ∧
      hdr.len.toNat = min (unsent api s.ref log).length (credit api s.ref log) ∧
      0 < hdr.len.toNat := by
  cases hturn with
  | opSent _ hop _ => exact absurd hrw (code_ne_rw hop.mem_maskOps)
  | opKept _ hop _ => exact absurd hrw (code_ne_rw hop.mem_maskOps)
  | @dataSent _ avail _ _ _ _ _ hpend havail havail' hhdr _ =>
      have hlt := guestAvailSize_lt s
      rw [havail' hbounded] at havail hhdr
      have hlen : hdr.len.toNat = min s.hostToGuestBuf.pending.length s.guestAvailSize := by
        rw [hhdr]
        exact UInt32.toNat_ofNat_of_lt' (by unfold UInt32.size; omega)
      have hpos := List.length_pos_iff.mpr hpend
      rw [← h.pending, ← h.guestAvailSize_eq]
      exact ⟨rfl, hlen, by omega⟩

/-- What holds on every path: the books, and what was offered so far. -/
structure Metered (api : GoldfishVirtIOVSockDevAPI σ) (x : Ctl × World σ P) : Prop where
  living : Living (InBooks api) x
  offers : Hist (Offered api) x.2.log

theorem Atom.metered (hbounded : api.Bounded) {x y : Ctl × World σ P} (h : Atom api mode x y)
    (hx : Metered api x) : Metered api y := by
  refine ⟨h.living (inBooks_lasting hbounded) hx.living, ?_⟩
  obtain ⟨es, htouched⟩ := h.turn hx.living.wf hx.living.plugged hx.living.newborn
  rw [htouched.log]
  refine hist_append.mpr ⟨hx.offers, ?_⟩
  intro pre e post hes ref vq hdr data he hrw
  subst hes he
  cases h.orphanStep with
  | quiet es' hlog _ _ hsend =>
      obtain rfl := List.append_cancel_left (htouched.log.symm.trans hlog)
      obtain ⟨-, -, hone⟩ := hsend (some ref) vq hdr data (by simp)
      obtain ⟨rfl, rfl⟩ : pre = [] ∧ post = [] := by simpa [List.append_eq_singleton_iff] using hone
      obtain ⟨s, hs, rfl, s', hturn⟩ := Touched.sender hx.living.wf htouched
      rw [List.append_nil]
      exact hturn.offered hbounded (hx.living.each s hs) hrw
  | sent hdr' hlog _ _ =>
      have := List.append_cancel_left (htouched.log.symm.trans hlog)
      simp [List.append_eq_singleton_iff] at this
  | kept hdr' hlog _ _ _ =>
      have := List.append_cancel_left (htouched.log.symm.trans hlog)
      simp [List.append_eq_singleton_iff] at this

/-- In every run the books are kept, a reset included. -/
theorem run_metered (hbounded : api.Bounded) {listeners : Finset UInt32} {vq : σ}
    {acts : List (Action σ P)} {w : World σ P}
    (hrun : run api (World.realized listeners vq) acts = .ok w) : Metered api (.idle, w) := by
  have hstart : Metered api (.idle, (World.realized listeners vq : World σ P)) :=
    ⟨living_realized, hist_nil⟩
  refine foldlM_invariant (I := fun v => Metered api (.idle, v)) (fun v a v' hv hstep => ?_)
    hstart hrun
  by_cases hstatus : ∃ status, a = .setStatus status
  · obtain ⟨status, rfl⟩ := hstatus
    have hsilent : ∀ log es s, (∀ e ∈ es, ∃ ref p, e = Event.onUnplug ref p) →
        InBooks (P := P) api log s → InBooks api (log ++ es) s := by
      intro log es s hes h
      have hnot : ∀ e ∈ es, e.stores s.ref = [] ∧ e.reports api s.ref = 0 ∧
          ∀ last, e.announces s.ref last = last := by
        intro e he
        obtain ⟨ref, p, rfl⟩ := hes e he
        exact ⟨rfl, rfl, fun _ => rfl⟩
      refine h.quiet rfl rfl rfl rfl (List.flatMap_eq_nil_iff.mpr fun e he => (hnot e he).1) ?_
        fun e he => (hnot e he).2.2
      refine List.sum_eq_zero_iff_forall_eq_nat.mpr fun n hn => ?_
      obtain ⟨e, he, rfl⟩ := List.mem_map.mp hn
      exact (hnot e he).2.1
    refine ⟨setStatus_living hsilent hstep hv.living, ?_⟩
    rcases setStatus_cases hstep with ⟨-, rfl⟩ | ⟨-, rfl, -⟩
    · exact hv.offers
    · refine hist_append.mpr ⟨hv.offers, hist_of_forall fun pre e he ref vq hdr data hcall => ?_⟩
      obtain ⟨s, -, he⟩ := List.mem_filterMap.mp he
      obtain ⟨p, -, rfl⟩ := Option.map_eq_some_iff.mp he
      cases hcall
  · exact star_invariant (fun _ _ hab => hab.metered hbounded)
      (step_atoms hv.living.wf (Mode.allows_default v a) (fun status hs => hstatus ⟨status, hs⟩)
        hstep) hv

/-! ### Thirty bits -/

/-- The answer to a packet with data is exact, and the loop gets further: fewer bytes are
left, or the queue is full and the loop returns. -/
def PackedExactly (pre : List (Event VirtIOVSock P)) (e : Event VirtIOVSock P) : Prop :=
  ∀ ref vq hdr data, e = .call (some ref) vq hdr data → hdr.op = VirtioVsockOp.rw.code →
    hdr.len.toNat < 2 ^ 30 ∧
      virtIOVSockSentSize (devApi.sendPacketHostToGuest vq hdr data).result =
        (devApi.sendPacketHostToGuest vq hdr data).payload.length ∧
      (virtIOVSockSendIsVqFull (devApi.sendPacketHostToGuest vq hdr data).result = true ∨
        (unsent devApi ref (pre ++ [e])).length < (unsent devApi ref pre).length)

/-- When data is offered, the bytes that are waiting or the guest's free space are fewer
than `2 ^ 30`. -/
def Moderate (pre : List (Event VirtIOVSock P)) (e : Event VirtIOVSock P) : Prop :=
  ∀ ref vq hdr data, e = .call (some ref) vq hdr data → hdr.op = VirtioVsockOp.rw.code →
    min (unsent devApi ref pre).length (credit devApi ref pre) < 2 ^ 30

theorem packedExactly_iff {pre : List (Event VirtIOVSock P)} {e : Event VirtIOVSock P}
    (h : Offered devApi pre e) : PackedExactly pre e ↔ Moderate pre e := by
  constructor
  · intro hpacked ref vq hdr data he hrw
    rw [← (h ref vq hdr data he hrw).2.1]
    exact (hpacked ref vq hdr data he hrw).1
  · intro hmoderate ref vq hdr data he hrw
    obtain ⟨hdata, hlen, hpos⟩ := h ref vq hdr data he hrw
    have hshort : hdr.len.toNat < 2 ^ 30 := hlen ▸ hmoderate ref vq hdr data he hrw
    have hexact := @devApi_sentSize_of_fits vq hdr data
      (lt_of_le_of_lt (Nat.min_le_left _ _) hshort)
    refine ⟨hshort, hexact, ?_⟩
    cases hfull : virtIOVSockSendIsVqFull (devApi.sendPacketHostToGuest vq hdr data).result with
    | true => exact Or.inl rfl
    | false =>
        -- all of the `len` bytes went out
        have hsize : virtIOVSockSentSize (devApi.sendPacketHostToGuest vq hdr data).result =
            hdr.len.toNat := by
          rw [hexact, devApi_payload_whole hfull, List.length_take, hdata]
          omega
        have hstored : stored ref (pre ++ [e]) = stored ref pre := by
          rw [he, stored_append]
          exact List.append_nil _
        have hreported : reported devApi ref (pre ++ [e]) =
            reported devApi ref pre + hdr.len.toNat := by
          rw [he, reported_append, ← hsize]
          simp [reported, Event.reports]
        right
        rw [unsent, unsent, hstored, hreported, List.length_drop, List.length_drop]
        rw [unsent, List.length_drop] at hlen
        omega

/-- The send loop ends in every run. What it works with is what the history says of each
stream; and every packet with data is packed exactly as long as the bytes that wait or the
guest's free space stay below `2 ^ 30` when it is offered. -/
theorem run_packed_iff (listeners : Finset UInt32) (vq : VirtIOVSock)
    (acts : List (Action VirtIOVSock P)) :
    (∀ e, run devApi (World.realized listeners vq) acts = .error e → e ≠ .spin) ∧
    ∀ w, run devApi (World.realized listeners vq) acts = .ok w →
      (∀ s ∈ w.mStreams, s.hostToGuestBuf.pending = unsent devApi s.ref w.log ∧
        s.guestAvailSize = credit devApi s.ref w.log) ∧
      (Hist PackedExactly w.log ↔ Hist Moderate w.log) := by
  refine ⟨fun e herr => (run_error_ne devApi_lawful realized_sane herr).2, fun w hrun => ?_⟩
  have hmetered := run_metered devApi_lawful.bounded hrun
  refine ⟨fun s hs => ?_, ?_, ?_⟩
  · have hbooks := hmetered.living.each s hs
    exact ⟨hbooks.pending, hbooks.guestAvailSize_eq⟩
  · intro h pre e post hlog
    exact (packedExactly_iff (hmetered.offers pre e post hlog)).mp (h pre e post hlog)
  · intro h pre e post hlog
    exact (packedExactly_iff (hmetered.offers pre e post hlog)).mpr (h pre e post hlog)

/-- Three bytes are moderate. -/
theorem run_packed_sendThree : ∃ w,
    run devApi (World.realized ∅ ⟨3, [44, 44, 46]⟩) sendThree = .ok w ∧
      Hist PackedExactly w.log := by
  obtain ⟨w, hrun, hlog⟩ : ∃ w, run devApi (World.realized ∅ ⟨3, [44, 44, 46]⟩) sendThree = .ok w ∧
      w.log = sendThreeLog := ⟨_, rfl, rfl⟩
  refine ⟨w, hrun, ((run_packed_iff ∅ _ sendThree).2 w hrun).2.mpr ?_⟩
  intro pre e post hsplit ref vq hdr data _ _
  -- no more than three bytes are ever stored
  have hthree : (stored ref sendThreeLog).length ≤ 3 := by
    by_cases href : 0 = ref
    · subst href
      exact (by decide : (stored 0 sendThreeLog).length ≤ 3)
    · simp [stored, sendThreeLog, Event.stores, href]
  have hsome : (stored ref pre).length ≤ (stored ref sendThreeLog).length := by
    rw [← hlog, hsplit, stored_append, List.length_append]
    exact Nat.le_add_right _ _
  rw [unsent, List.length_drop]
  omega

/-- A window of `2 ^ 30` bytes and as many to send: the answer to the first packet says that
nothing was sent. -/
theorem fillWindow_not_packed : ¬ ∀ (listeners : Finset UInt32) (vq : VirtIOVSock)
    (acts : List (Action VirtIOVSock Unit)) (w : World VirtIOVSock Unit),
    run devApi (World.realized listeners vq) acts = .ok w → Hist PackedExactly w.log := by
  intro h
  have hdata : (List.replicate (2 ^ 30) (0 : UInt8)).length = (1073741824 : UInt32).toNat :=
    List.length_replicate
  generalize List.replicate (2 ^ 30) (0 : UInt8) = data at hdata
  have hpacked := h _ _ _ _ (run_fillWindow hdata (by decide) (by decide))
  have hlen : (1073741824 : UInt32).toNat < 2 ^ 30 := (hpacked (fillLog 1073741824 ++ [.buffered 0 data]) _
    [fillCall 1073741824 data [1073741824 + hdrSize], fillCall 1073741824 data [], .notify]
    (by simp [fillDone, fillWorld]; rfl) 0 _ _ _ rfl rfl).1
  exact absurd hlen (by decide)

end Goldfish.Vsock
