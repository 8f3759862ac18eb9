import Goldfish.Vsock.Integrity

/-!
# Goldfish.Vsock.Credit

**Credit-based flow control.** A guest that reports truthfully how much it has consumed
(`HonestGuest`), in a window that does not shrink, never has more bytes delivered and
not consumed than the window it announced last, however often the 32-bit counters
wrap around (`run_credit`).

The device relies on the size in the answer of `sendPacketHostToGuest`, and that has
only 30 bits. The law holds as long as no single call delivers `2 ^ 30` bytes or more
(`Fits`); `credit_exceeded` is what happens otherwise.
-/

namespace Goldfish.Vsock

open Goldfish.Lib

variable {P : Type} {mode : Mode}

/-! ### The guest -/

/-- The guest's side of a stream: `consumed n` is how many of the delivered bytes it has
consumed by the time the history has `n` events. Its headers carry that number and a
buffer size that never shrinks. -/
structure HonestGuest (ref : Ref) (log : List (Event VirtIOVSock P)) (consumed : Nat → Nat) :
    Prop where
  mono : Monotone consumed
  le : ∀ pre post, log = pre ++ post →
    consumed pre.length ≤ (delivered devApi ref pre).length
  fwdCnt : ∀ pre hdr post, log = pre ++ .received ref hdr :: post →
    hdr.fwdCnt = UInt32.ofNat (consumed pre.length)
  bufAlloc : ∀ pre hdr mid hdr' post,
    log = pre ++ .received ref hdr :: mid ++ .received ref hdr' :: post →
    hdr.bufAlloc ≤ hdr'.bufAlloc

/-- No call for the stream has `2 ^ 30` bytes to deliver and room for them. -/
def Fits (ref : Ref) (log : List (Event VirtIOVSock P)) : Prop :=
  ∀ vq hdr data, .call (some ref) vq hdr data ∈ log → min hdr.len.toNat vq.room < 2 ^ 30

section Prefix

variable {ref : Ref} {log es : List (Event VirtIOVSock P)} {consumed : Nat → Nat}

theorem HonestGuest.of_append (h : HonestGuest ref (log ++ es) consumed) :
    HonestGuest ref log consumed where
  mono := h.mono
  le pre post hlog := h.le pre (post ++ es) (by simp [hlog])
  fwdCnt pre hdr post hlog := h.fwdCnt pre hdr (post ++ es) (by simp [hlog])
  bufAlloc pre hdr mid hdr' post hlog :=
    h.bufAlloc pre hdr mid hdr' (post ++ es) (by simp [hlog])

theorem Fits.of_append (h : Fits ref (log ++ es)) : Fits ref log :=
  fun vq hdr data hmem => h vq hdr data (List.mem_append_left _ hmem)

end Prefix

/-! ### The invariant of a stream -/

/-- How far the device and the guest are with a stream. -/
structure Account (log : List (Event VirtIOVSock P)) (s : VsockStream P) (reported : Nat) :
    Prop where
  sentCnt : s.hostSentCnt = UInt32.ofNat (delivered devApi s.ref log).length
  fwdCnt : s.guestFwdCnt = UInt32.ofNat reported
  le : reported ≤ (delivered devApi s.ref log).length
  /-- The law itself, for the number the guest reported last. -/
  window : (delivered devApi s.ref log).length ≤ reported + s.guestBufAlloc.toNat
  /-- The window is the one of the last header. -/
  last : s.guestBufAlloc = 0 ∨ ∃ pre hdr post, log = pre ++ .received s.ref hdr :: post ∧
    s.guestBufAlloc = hdr.bufAlloc

/-- With an honest guest and calls that fit, the books are in order. -/
def CreditOk (log : List (Event VirtIOVSock P)) (s : VsockStream P) : Prop :=
  Fits s.ref log → ∀ consumed, HonestGuest s.ref log consumed →
    ∃ reported ≤ consumed log.length, Account log s reported

/-- The free space the device computes is the free space there is: the counters may have
wrapped around, the difference has not. -/
theorem Account.guestAvailSize_eq {log : List (Event VirtIOVSock P)} {s : VsockStream P}
    {reported : Nat} (h : Account log s reported) : s.guestAvailSize =
      s.guestBufAlloc.toNat - ((delivered devApi s.ref log).length - reported) := by
  have hlt := UInt32.toNat_lt s.guestBufAlloc
  have hwindow := h.window
  have hused : (s.hostSentCnt - s.guestFwdCnt).toNat =
      (delivered devApi s.ref log).length - reported := by
    rw [h.sentCnt, h.fwdCnt, ← UInt32.ofNat_sub h.le]
    exact UInt32.toNat_ofNat_of_lt' (by unfold UInt32.size; omega)
  unfold VsockStream.guestAvailSize
  rw [UInt32.toNat_sub_of_le _ _ (by rw [UInt32.le_iff_toNat_le, hused]; omega), hused]

section CreditOk

variable {log es : List (Event VirtIOVSock P)} {s s' : VsockStream P}

/-- Events that deliver nothing and report nothing for the stream. -/
theorem CreditOk.quiet (h : CreditOk log s) (href : s'.ref = s.ref)
    (hsent : s'.hostSentCnt = s.hostSentCnt) (hfwd : s'.guestFwdCnt = s.guestFwdCnt)
    (hbuf : s'.guestBufAlloc = s.guestBufAlloc) (hdel : delivered devApi s.ref es = []) :
    CreditOk (log ++ es) s' := by
  intro hfits consumed hguest
  rw [href] at hfits hguest
  obtain ⟨reported, hle, hacc⟩ := h hfits.of_append consumed hguest.of_append
  have hsame : delivered devApi s'.ref (log ++ es) = delivered devApi s.ref log := by
    rw [href, delivered_append, hdel, List.append_nil]
  refine ⟨reported, hle.trans (hguest.mono (by simp)), ?_⟩
  refine ⟨?_, hfwd ▸ hacc.fwdCnt, ?_, ?_, ?_⟩
  · rw [hsame, hsent]
    exact hacc.sentCnt
  · rw [hsame]
    exact hacc.le
  · rw [hsame, hbuf]
    exact hacc.window
  · rw [href, hbuf]
    rcases hacc.last with hzero | ⟨pre, hdr, post, rfl, heq⟩
    · exact Or.inl hzero
    · exact Or.inr ⟨pre, hdr, post ++ es, by simp, heq⟩

/-- A header: more may have been consumed, and the window may have grown. -/
theorem CreditOk.report (h : CreditOk log s) {hdr : VirtioVsockHdr} (href : s'.ref = s.ref)
    (hsent : s'.hostSentCnt = s.hostSentCnt) (hfwd : s'.guestFwdCnt = hdr.fwdCnt)
    (hbuf : s'.guestBufAlloc = hdr.bufAlloc) :
    CreditOk (log ++ [.received s.ref hdr]) s' := by
  intro hfits consumed hguest
  rw [href] at hfits hguest
  obtain ⟨reported, hle, hacc⟩ := h hfits.of_append consumed hguest.of_append
  have hsame : delivered devApi s'.ref (log ++ [.received s.ref hdr]) =
      delivered devApi s.ref log := by
    rw [href, delivered_append]
    simp [delivered, Event.delivers]
  have hnow := hguest.le log [.received s.ref hdr] rfl
  have hgrows : s.guestBufAlloc.toNat ≤ hdr.bufAlloc.toNat := by
    rcases hacc.last with hzero | ⟨pre, hdr₀, post, rfl, heq⟩
    · rw [hzero]
      exact Nat.zero_le _
    · rw [heq]
      exact UInt32.le_iff_toNat_le.mp (hguest.bufAlloc pre hdr₀ post hdr [] (by simp))
  refine ⟨consumed log.length, hguest.mono (by simp), ?_⟩
  have hwindow := hacc.window
  refine ⟨?_, ?_, ?_, ?_, ?_⟩
  · rw [hsame, hsent]
    exact hacc.sentCnt
  · rw [hfwd]
    exact hguest.fwdCnt log hdr [] rfl
  · rw [hsame]
    exact hnow
  · rw [hsame, hbuf]
    omega
  · rw [href, hbuf]
    exact Or.inr ⟨log, hdr, [], rfl, rfl⟩

/-- A header, and what the device does about it. -/
theorem CreditOk.report_quiet (h : CreditOk log s) {hdr : VirtioVsockHdr} (href : s'.ref = s.ref)
    (hsent : s'.hostSentCnt = s.hostSentCnt) (hfwd : s'.guestFwdCnt = hdr.fwdCnt)
    (hbuf : s'.guestBufAlloc = hdr.bufAlloc) (hdel : delivered devApi s.ref es = []) :
    CreditOk (log ++ .received s.ref hdr :: es) s' := by
  rw [List.append_cons]
  exact (h.report href hsent hfwd hbuf).quiet rfl rfl rfl rfl (href ▸ hdel)

/-- Data: no more than the free space is offered, so no more is delivered. -/
theorem CreditOk.sent (h : CreditOk log s) {vq : VirtIOVSock} {hdr : VirtioVsockHdr}
    {buf : SocketBuffer} (hhdr : hdr = s.preparePacketHeader .rw
      (UInt32.ofNat (min s.hostToGuestBuf.pending.length s.guestAvailSize))) :
    CreditOk (log ++ [.call (some s.ref) vq hdr s.hostToGuestBuf.pending])
      { s with
        hostToGuestBuf := buf
        hostSentCnt := s.hostSentCnt + UInt32.ofNat (virtIOVSockSentSize
          (devApi.sendPacketHostToGuest vq hdr s.hostToGuestBuf.pending).result) } := by
  intro hfits consumed hguest
  obtain ⟨reported, hle, hacc⟩ := h hfits.of_append consumed hguest.of_append
  have hfit : min hdr.len.toNat vq.room < 2 ^ 30 :=
    hfits vq hdr s.hostToGuestBuf.pending (by simp)
  have hone : delivered devApi s.ref (log ++ [.call (some s.ref) vq hdr s.hostToGuestBuf.pending]) =
      delivered devApi s.ref log ++
        (devApi.sendPacketHostToGuest vq hdr s.hostToGuestBuf.pending).payload := by
    rw [delivered_append]
    simp [delivered, Event.delivers]
  have hlen : hdr.len.toNat = min s.hostToGuestBuf.pending.length s.guestAvailSize := by
    have hlt := guestAvailSize_lt s
    rw [hhdr]
    exact UInt32.toNat_ofNat_of_lt' (by unfold UInt32.size; omega)
  have hpayload : (devApi.sendPacketHostToGuest vq hdr s.hostToGuestBuf.pending).payload.length ≤
      s.guestAvailSize := by
    rw [devApi_payload, List.length_take, List.length_take]
    omega
  have havail := hacc.guestAvailSize_eq
  have hbelow := hacc.le
  have hwindow := hacc.window
  refine ⟨reported, hle.trans (hguest.mono (by simp)), ?_, hacc.fwdCnt, ?_, ?_, ?_⟩
  · rw [hone, List.length_append, UInt32.ofNat_add, ← hacc.sentCnt, devApi_sentSize_of_fits _ hfit]
  · rw [hone, List.length_append]
    omega
  · rw [hone, List.length_append]
    show _ ≤ reported + s.guestBufAlloc.toNat
    omega
  · rcases hacc.last with hzero | ⟨pre, hdr₀, post, rfl, heq⟩
    · exact Or.inl hzero
    · exact Or.inr ⟨pre, hdr₀, post ++ [.call (some s.ref) vq hdr s.hostToGuestBuf.pending],
        by simp, heq⟩

end CreditOk

/-- Every turn of a stream keeps the books in order. -/
theorem creditOk_lasting : Lasting devApi mode (CreditOk (P := P)) where
  frame log es s hother h := h.quiet rfl rfl rfl rfl (delivered_of_ref_ne hother)
  turn log es s s' hturn h := by
    cases hturn with
    | opSent _ _ _ => exact h.quiet rfl rfl rfl rfl delivered_devApi_control
    | opKept _ _ _ => exact h.quiet rfl rfl rfl rfl delivered_devApi_control
    | dataSent _ _ _ _ _ havail hhdr _ =>
        rw [havail devApi_lawful.bounded] at hhdr
        exact h.sent hhdr
    | header _ => exact h.report rfl rfl rfl rfl
    | accepted _ => exact h.report_quiet rfl rfl rfl rfl rfl
    | responded _ _ _ => exact h.report_quiet rfl rfl rfl rfl rfl
    | _ => exact h.quiet rfl rfl rfl rfl rfl
  born log es s hnew hborn := by
    have hstart : s.hostSentCnt = 0 → s.guestFwdCnt = 0 → s.guestBufAlloc = 0 →
        CreditOk log s := by
      intro hsent hfwd hbuf hfits consumed hguest
      have hnone : delivered devApi s.ref log = [] := delivered_of_ref_ne hnew
      refine ⟨0, Nat.zero_le _, ?_, hfwd, Nat.zero_le _, ?_, Or.inl hbuf⟩
      · rw [hnone, hsent]
        rfl
      · rw [hnone]
        exact Nat.zero_le _
    cases hborn with
    | connected => exact (hstart rfl rfl rfl).quiet rfl rfl rfl rfl rfl
    | requested => exact (hstart rfl rfl rfl).quiet rfl rfl rfl rfl rfl

/-- In every run whose calls fit, no honest guest has more unconsumed bytes than the
window it announced last. -/
theorem run_credit {listeners : Finset UInt32} {vq : VirtIOVSock}
    {acts : List (Action VirtIOVSock P)} {w : World VirtIOVSock P}
    (hrun : run devApi (World.realized listeners vq) acts = .ok w) {s : VsockStream P}
    (hs : s ∈ w.mStreams) (hfits : Fits s.ref w.log) {consumed : Nat → Nat}
    (hguest : HonestGuest s.ref w.log consumed) :
    (delivered devApi s.ref w.log).length ≤ consumed w.log.length + s.guestBufAlloc.toNat := by
  have hlasting : Lasting devApi {} (CreditOk (P := P)) := creditOk_lasting
  have hliving := run_living hlasting (fun log es s hes h => h.quiet rfl rfl rfl rfl ?_)
    (along_of_forall fun w a => Mode.allows_default w a) living_realized hrun
  · obtain ⟨reported, hle, hacc⟩ := hliving.each s hs hfits consumed hguest
    exact hacc.window.trans (Nat.add_le_add_right hle _)
  · exact (quiet_of_unplugs hes).1

/-- A guest that has consumed nothing and announces always the same window. -/
theorem honestGuest_zero {ref : Ref} {log : List (Event VirtIOVSock P)} (bufAlloc : UInt32)
    (h : ∀ hdr, .received ref hdr ∈ log → hdr.fwdCnt = 0 ∧ hdr.bufAlloc = bufAlloc) :
    HonestGuest ref log fun _ => 0 where
  mono _ _ _ := le_rfl
  le _ _ _ := Nat.zero_le _
  fwdCnt pre hdr post hlog := (h hdr (by simp [hlog])).1
  bufAlloc pre hdr mid hdr' post hlog := by
    rw [(h hdr (by simp [hlog])).2, (h hdr' (by simp [hlog])).2]
    exact UInt32.le_refl _

/-- The history of `sendThree` when the guest offers buffers of 44, 44 and 46 bytes. -/
def sendThreeLog : List (Event VirtIOVSock Unit) :=
  [.created 0 ⟨1000, 2147483649⟩ .connect, .opQueued 0 .request, .opQueued 0 .creditRequest,
    .call (some 0) ⟨3, [44, 44, 46]⟩ (preparePacketHeader 2147483649 1000 .request 0 0) [],
    .call (some 0) ⟨3, [44, 46]⟩ (preparePacketHeader 2147483649 1000 .creditRequest 0 0) [],
    .notify, .received 0 (guestHeader 1000 2147483649 .response 0 8 0), .onConnect 0 (),
    .buffered 0 [1, 2, 3],
    .call (some 0) ⟨3, [46]⟩ (preparePacketHeader 2147483649 1000 .rw 0 3) [1, 2, 3], .notify]

theorem sendThreeLog_fits : Fits 0 sendThreeLog := by
  intro vq hdr data hcall
  simp only [sendThreeLog, List.mem_cons, reduceCtorEq, false_or, Event.call.injEq, true_and,
    List.not_mem_nil, or_false] at hcall
  rcases hcall with ⟨rfl, rfl, -⟩ | ⟨rfl, rfl, -⟩ | ⟨rfl, rfl, -⟩ <;> decide

/-- Two of three bytes are delivered, and the guest has consumed none of them. -/
theorem run_credit_sendThree : ∃ w s,
    run devApi (World.realized ∅ ⟨3, [44, 44, 46]⟩) sendThree = .ok w ∧ s ∈ w.mStreams ∧
      Fits s.ref w.log ∧ HonestGuest s.ref w.log (fun _ => 0) ∧
      (delivered devApi s.ref w.log).length ≤ 0 + s.guestBufAlloc.toNat := by
  have hguest : HonestGuest 0 sendThreeLog fun _ => 0 := by
    refine honestGuest_zero 8 fun hdr h => ?_
    simp only [sendThreeLog, List.mem_cons, reduceCtorEq, false_or, or_false,
      Event.received.injEq, true_and, List.not_mem_nil] at h
    subst h
    exact ⟨rfl, rfl⟩
  have hrun : ∃ w, run devApi (World.realized ∅ ⟨3, [44, 44, 46]⟩) sendThree = .ok w ∧
      w.log = sendThreeLog ∧ ∃ s ∈ w.mStreams, s.ref = 0 :=
    ⟨_, rfl, rfl, _, List.mem_cons_self, rfl⟩
  obtain ⟨w, hrun, hlog, s, hs, href⟩ := hrun
  have hfits : Fits s.ref w.log := by
    rw [hlog, href]
    exact sendThreeLog_fits
  have hguest : HonestGuest s.ref w.log fun _ => 0 := by
    rw [hlog, href]
    exact hguest
  exact ⟨w, s, hrun, hs, hfits, hguest, run_credit hrun hs hfits hguest⟩

/-! ### A window of `2 ^ 30` bytes -/

section Round

variable {σ : Type}

/-- One round of the loop over the data of a stream. -/
theorem sendData_round {api : GoldfishVirtIOVSockDevAPI σ} {w : World σ P} {s : VsockStream P}
    {fuel avail : Nat} {needNotify : Bool} {hdr : VirtioVsockHdr} {data : List UInt8}
    {buf : SocketBuffer} {out : SendOutcome σ} (havail : avail ≠ 0)
    (hs : w.deref s.ref = .ok s) (hpeek : s.hostToGuestBuf.peek = .ok data) (hdata : data.length ≠ 0)
    (hhdr : s.preparePacketHeader .rw (UInt32.ofNat (min data.length avail)) = hdr)
    (hout : api.sendPacketHostToGuest w.vq hdr data = out)
    (hbuf : s.hostToGuestBuf.consume (virtIOVSockSentSize out.result) = .ok buf) :
    sendData api s.ref (fuel + 1) avail w needNotify =
      let w' := { w.emit (.call (some s.ref) w.vq hdr data) with vq := out.vq }.afterSend s.ref buf
        (virtIOVSockSentSize out.result)
      let needNotify := needNotify || virtIOVSockSendNeedNotify out.result
      if virtIOVSockSendIsVqFull out.result then .ok ⟨w', needNotify, true⟩
      else sendData api s.ref fuel (sizeSub avail (virtIOVSockSentSize out.result)) w'
        needNotify := by
  subst hhdr hout
  rw [sendData, if_neg havail, hs, ok_bind, hpeek, ok_bind, if_neg hdata]
  simp only [World.sendPacketHostToGuest, hbuf, ok_bind]
  rfl

/-- With one stream and nothing but data to send, all that happens is the loop over its
data. -/
theorem sendPacketsAndNotifyLocked_single {api : GoldfishVirtIOVSockDevAPI σ} {w : World σ P}
    {s : VsockStream P} {out : Swept σ P} (horph : w.mOrphanPackets = [])
    (hone : w.mStreams.elems = [s]) (hmask : s.sendOpMask = 0) (havail : s.guestAvailSize ≠ 0)
    (hdata : sendData api s.ref (api.avail w.vq + s.guestAvailSize + 1) s.guestAvailSize w false =
      .ok out) (hfull : out.full = true) :
    sendPacketsAndNotifyLocked api w =
      .ok (if out.needNotify then out.world.emit .notify else out.world) := by
  have hs : w.deref s.ref = .ok s := by simp [World.deref, hone]
  have hops : sendStreamOps api s w false = ⟨w, false, false⟩ := by
    simp [sendStreamOps, havail, hmask]
  have hstream : sendStream api s.ref w false = .ok out := by
    simp only [sendStream, hs, ok_bind, hops]
    exact hdata
  simp only [sendPacketsAndNotifyLocked, sendPacketsLocked, horph, sendOrphanPackets, hone,
    List.map_cons, List.map_nil, sendStreams, hstream, ok_bind, hfull, if_true]
  rfl

end Round

section Fill

variable (window : UInt32) (data : List UInt8)

/-- The guest announces a window and makes room for it twice; the host has as many bytes to
send. -/
def fillWindow : List (Action VirtIOVSock Unit) :=
  [.host (.connect 1000 ()), .control (guestHeader 1000 2147483649 .response 0 window 0) {},
    .guestRx ⟨3, [window.toNat + hdrSize, window.toNat + hdrSize]⟩, .host (.sendAsync 0 data)]

/-- The stream of `fillWindow`, with nothing sent as far as the device knows. -/
def fillStream : VsockStream Unit :=
  { ref := 0, guestPort := 1000, hostPort := 2147483649, plug := some (),
    hostToGuestBuf := ⟨data, 0⟩, guestBufAlloc := window, isConnected := true }

/-- The device of `fillWindow` while it sends. -/
def fillWorld (vq : List Nat) (log : List (Event VirtIOVSock Unit)) : World VirtIOVSock Unit where
  mSrcPortAllocator := { mLastId := 1 }
  mStreams := ⟨[fillStream window data], List.pairwise_singleton _ _⟩
  vq := ⟨3, vq⟩
  nextRef := 1
  log

/-- The call that offers all the data. -/
def fillCall (vq : List Nat) : Event VirtIOVSock Unit :=
  .call (some 0) ⟨3, vq⟩ ((fillStream window data).preparePacketHeader .rw window) data

/-- The history of `fillWindow` before the data is stored. -/
def fillLog : List (Event VirtIOVSock Unit) :=
  [.created 0 ⟨1000, 2147483649⟩ .connect, .opQueued 0 .request, .opQueued 0 .creditRequest,
    .call (some 0) ⟨3, [44, 44]⟩ (preparePacketHeader 2147483649 1000 .request 0 0) [],
    .call (some 0) ⟨3, [44]⟩ (preparePacketHeader 2147483649 1000 .creditRequest 0 0) [],
    .notify, .received 0 (guestHeader 1000 2147483649 .response 0 window 0), .onConnect 0 ()]

/-- The device of `fillWindow` in the end: the same bytes were sent twice, and the queue
is full. -/
def fillDone : World VirtIOVSock Unit :=
  fillWorld window data [] (fillLog window ++ [.buffered 0 data] ++
    [fillCall window data [window.toNat + hdrSize, window.toNat + hdrSize],
      fillCall window data [window.toNat + hdrSize], fillCall window data []])

variable {window data} (hdata : data.length = window.toNat)
include hdata

theorem fillCall_outcome (vq : List Nat) : ∃ written,
    devApi.sendPacketHostToGuest ⟨3, (window.toNat + hdrSize) :: vq⟩
      ((fillStream window data).preparePacketHeader .rw window) data =
        ⟨⟨3, vq⟩, makeVirtIOVSockSendResult false true window.toNat, [written]⟩ ∧ written.2 = data := by
  have hsend := @devApi_send_whole 3 (window.toNat + hdrSize) vq
    ((fillStream window data).preparePacketHeader .rw window) data (by omega) hdata.le
  rw [hsend, hdata]
  exact ⟨_, rfl, rfl⟩

theorem fillCall_delivers {vq : List Nat} :
    (fillCall window data ((window.toNat + hdrSize) :: vq)).delivers devApi 0 = data := by
  obtain ⟨written, hout, hwritten⟩ := fillCall_outcome hdata vq
  simp only [fillCall, Event.delivers, if_true, hout]
  simp [SendOutcome.payload, hwritten]

theorem fillWorld_round (hzero : window.toNat % 2 ^ 30 = 0) (hpos : window.toNat ≠ 0) {fuel : Nat}
    {vq : List Nat} {log : List (Event VirtIOVSock Unit)} {needNotify : Bool} :
    sendData devApi 0 (fuel + 1) window.toNat
        (fillWorld window data ((window.toNat + hdrSize) :: vq) log) needNotify =
      sendData devApi 0 fuel window.toNat
        (fillWorld window data vq (log ++ [fillCall window data ((window.toNat + hdrSize) :: vq)])) true := by
  have hpeek : (fillStream window data).hostToGuestBuf.peek = .ok data :=
    SocketBuffer.peek_eq_ok.mpr ⟨Nat.zero_le _, rfl⟩
  obtain ⟨written, hout, -⟩ := fillCall_outcome hdata vq
  have hsize : virtIOVSockSentSize (makeVirtIOVSockSendResult false true window.toNat) = 0 := by
    rw [virtIOVSockSentSize_make, hzero]
  have hsub : sizeSub window.toNat 0 = window.toNat := by
    have := window.toNat_lt
    unfold sizeSub
    omega
  have hbuf : (fillStream window data).hostToGuestBuf.consume 0 = .ok ⟨data, 0⟩ :=
    SocketBuffer.consume_eq_ok.mpr ⟨Nat.zero_le _, rfl⟩
  refine (sendData_round (s := fillStream window data) hpos rfl hpeek (by omega)
    (by rw [hdata, Nat.min_self, UInt32.ofNat_toNat]) hout (by rw [hsize]; exact hbuf)).trans ?_
  simp only [hsize, hsub, virtIOVSockSendNeedNotify_make, virtIOVSockSendIsVqFull_make, Bool.or_true]
  rfl

theorem fillWorld_full (hpos : window.toNat ≠ 0) {fuel : Nat}
    {log : List (Event VirtIOVSock Unit)} {needNotify : Bool} :
    sendData devApi 0 (fuel + 1) window.toNat (fillWorld window data [] log) needNotify =
      .ok ⟨fillWorld window data [] (log ++ [fillCall window data []]), needNotify, true⟩ := by
  have hpeek : (fillStream window data).hostToGuestBuf.peek = .ok data :=
    SocketBuffer.peek_eq_ok.mpr ⟨Nat.zero_le _, rfl⟩
  have hout : devApi.sendPacketHostToGuest ⟨3, []⟩
      ((fillStream window data).preparePacketHeader .rw window) data =
        ⟨⟨3, []⟩, makeVirtIOVSockSendResult true false 0, []⟩ := rfl
  have hsize : virtIOVSockSentSize (makeVirtIOVSockSendResult true false 0) = 0 := by
    rw [virtIOVSockSentSize_make]
    rfl
  have hbuf : (fillStream window data).hostToGuestBuf.consume 0 = .ok ⟨data, 0⟩ :=
    SocketBuffer.consume_eq_ok.mpr ⟨Nat.zero_le _, rfl⟩
  refine (sendData_round (s := fillStream window data) hpos rfl hpeek (by omega)
    (by rw [hdata, Nat.min_self, UInt32.ofNat_toNat]) hout (by rw [hsize]; exact hbuf)).trans ?_
  simp only [hsize, virtIOVSockSendNeedNotify_make, virtIOVSockSendIsVqFull_make, Bool.or_false]
  rfl

/-- A window that is a multiple of `2 ^ 30` is filled twice. -/
theorem run_fillWindow (hzero : window.toNat % 2 ^ 30 = 0) (hpos : window.toNat ≠ 0) :
    run devApi (World.realized ∅ ⟨3, [44, 44]⟩) (fillWindow window data) =
      .ok ((fillDone window data).emit .notify) := by
  have hopen : ∀ vq, run devApi (World.realized ∅ ⟨3, [44, 44]⟩)
      [.host (.connect 1000 ()), .control (guestHeader 1000 2147483649 .response 0 window 0) {},
        .guestRx ⟨3, vq⟩] = .ok (fillWorld window [] vq (fillLog window)) := fun _ => rfl
  have hstore : ∀ vq, step devApi (fillWorld window [] vq (fillLog window))
      (.host (.sendAsync 0 data)) = sendPacketsAndNotifyLocked devApi
        (fillWorld window data vq (fillLog window ++ [.buffered 0 data])) := by
    intro vq
    have hs : (fillWorld window [] vq (fillLog window)).deref 0 = .ok (fillStream window []) := rfl
    show sendAsyncImpl devApi _ 0 data = _
    rw [sendAsyncImpl, hs, ok_bind, if_pos (show (fillStream window []).isConnected = true from rfl)]
    exact congrArg (sendPacketsAndNotifyLocked devApi) rfl
  have havail : (fillStream window data).guestAvailSize = window.toNat := by
    simp [VsockStream.guestAvailSize, fillStream]
  have hdone : sendData devApi 0 (2 + window.toNat + 1) window.toNat
      (fillWorld window data [window.toNat + hdrSize, window.toNat + hdrSize]
        (fillLog window ++ [.buffered 0 data])) false =
        .ok ⟨fillDone window data, true, true⟩ := by
    rw [Nat.add_comm 2, fillWorld_round hdata hzero hpos, fillWorld_round hdata hzero hpos,
      fillWorld_full hdata hpos]
    simp only [fillDone, List.append_assoc, List.cons_append, List.nil_append]
  have hsend : sendPacketsAndNotifyLocked devApi (fillWorld window data
      [window.toNat + hdrSize, window.toNat + hdrSize] (fillLog window ++ [.buffered 0 data])) =
        .ok ((fillDone window data).emit .notify) :=
    sendPacketsAndNotifyLocked_single (s := fillStream window data) rfl rfl rfl (by rwa [havail])
      (by rw [havail]; exact hdone) rfl
  have hsplit : fillWindow window data = [.host (.connect 1000 ()),
      .control (guestHeader 1000 2147483649 .response 0 window 0) {},
      .guestRx ⟨3, [window.toNat + hdrSize, window.toNat + hdrSize]⟩] ++
        [.host (.sendAsync 0 data)] := rfl
  unfold run at hopen ⊢
  rw [hsplit, List.foldlM_append, hopen, ok_bind, List.foldlM_cons, hstore, hsend]
  rfl

theorem fillDone_delivered : 2 * window.toNat ≤
    (delivered devApi 0 ((fillDone window data).emit .notify).log).length := by
  have htwo : delivered devApi 0 [fillCall window data [window.toNat + hdrSize,
      window.toNat + hdrSize], fillCall window data [window.toNat + hdrSize],
        fillCall window data []] = data ++ (data ++ []) := by
    simp only [delivered, List.flatMap_cons, fillCall_delivers hdata]
    rfl
  simp only [fillDone, fillWorld, World.emit_log, delivered_append, htwo, List.length_append, hdata]
  omega

end Fill

/-- The bytes of one window are delivered twice: the packed answer has lost their number,
and the device believes that nothing was sent. -/
theorem credit_exceeded : ∃ (data : List UInt8) (w : World VirtIOVSock Unit)
    (s : VsockStream Unit),
    run devApi (World.realized ∅ ⟨3, [44, 44]⟩) (fillWindow 1073741824 data) = .ok w ∧
      s ∈ w.mStreams ∧ HonestGuest s.ref w.log (fun _ => 0) ∧
      s.guestBufAlloc.toNat < (delivered devApi s.ref w.log).length := by
  have hdata : (List.replicate (2 ^ 30) (0 : UInt8)).length = (1073741824 : UInt32).toNat :=
    List.length_replicate
  generalize List.replicate (2 ^ 30) (0 : UInt8) = data at hdata
  refine ⟨data, _, fillStream 1073741824 data, run_fillWindow hdata (by decide) (by decide),
    List.mem_cons_self, honestGuest_zero 1073741824 fun hdr h => ?_, ?_⟩
  · simp [fillDone, fillLog, fillWorld, fillStream, fillCall] at h
    subst h
    exact ⟨rfl, rfl⟩
  · have hwindow : (fillStream 1073741824 data).guestBufAlloc.toNat = 1073741824 := rfl
    exact lt_of_lt_of_le (by rw [hwindow]; decide) (fillDone_delivered hdata)

end Goldfish.Vsock
