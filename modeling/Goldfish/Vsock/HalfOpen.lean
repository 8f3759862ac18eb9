import Goldfish.Vsock.Gather

/-!
# Goldfish.Vsock.HalfOpen

**Packets for a connection the device does not have.** The guest keeps such a
connection open until somebody answers with a RST.

`onPacketReceiveControl` answers. What the answer is added to is the device as the
packet leaves it (`Declined`): the same device, or, when a listener was asked and
handed its socket back, the device after the listener's own calls, without the
stream.

`onPacketReceiveRwStart` looks the stream up on its own and says nothing when there
is none, so data for an unknown pair of ports is the one packet that stays
unanswered (`answered_iff`).
-/

namespace Goldfish.Vsock

open Goldfish.Lib

variable {σ P : Type}

/-! ### What a packet leaves behind -/

/-- The device a packet leaves behind that makes no stream, apart from the answer. -/
inductive Declined (api : GoldfishVirtIOVSockDevAPI σ) (cb : Callbacks P) (w : World σ P)
    (hdr : VirtioVsockHdr) : World σ P → Prop
  /-- No listener is asked. -/
  | unasked (h : ¬ (hdr.op = VirtioVsockOp.request.code ∧ hdr.dstPort ∈ w.mHostPortListeners)) :
      Declined api cb w hdr w
  /-- The listener hands the socket back; it may have called the device before. -/
  | refused {w₀ w₁ : World σ P} {s : VsockStream P}
      (hop : hdr.op = VirtioVsockOp.request.code) (hlistens : hdr.dstPort ∈ w.mHostPortListeners)
      (hemplace : w.emplace hdr.srcPort hdr.dstPort .listener = some w₀)
      (hcalls : hostOps api w₀ cb.listener.1 = .ok w₁) (hderef : w₁.deref w.nextRef = .ok s)
      (hnone : cb.listener.2 = none) : Declined api cb w hdr (w₁.erase s)

/-- The answer to a packet that finds no stream and makes none: a RST with the ports
swapped, unless it is a RST itself. -/
def resetFor (hdr : VirtioVsockHdr) : List VirtioVsockHdr :=
  if hdr.op = VirtioVsockOp.rst.code then []
  else [preparePacketHeader hdr.dstPort hdr.srcPort .rst 0 0]

/-- `w'` is `w` with the answer queued. -/
structure Answered (hdr : VirtioVsockHdr) (w w' : World σ P) : Prop where
  orphans : w'.mOrphanPackets = w.mOrphanPackets ++ resetFor hdr
  others : { w' with mOrphanPackets := w.mOrphanPackets, log := w.log } = w

section Declined

variable {api : GoldfishVirtIOVSockDevAPI σ} {cb : Callbacks P} {w w' : World σ P}
  {hdr : VirtioVsockHdr}

theorem answered_queueReset (h : hdr.op ≠ VirtioVsockOp.rst.code) :
    Answered hdr w (queueReset w hdr) where
  orphans := by
    rw [resetFor, if_neg h]
    rfl
  others := rfl

theorem answered_self (h : hdr.op = VirtioVsockOp.rst.code) : Answered hdr w w where
  orphans := by rw [resetFor, if_pos h, List.append_nil]
  others := rfl

/-- Nothing is queued for data that finds no stream. -/
theorem not_answered_self (h : hdr.op ≠ VirtioVsockOp.rst.code) : ¬ Answered hdr w w := by
  intro hanswered
  have hlen := congrArg List.length hanswered.orphans
  rw [resetFor, if_neg h, List.length_append, List.length_singleton] at hlen
  omega

/-- A listener that hands the socket back without a call of its own leaves nothing but a
used address. -/
theorem Declined.same (hw : w.Wf) (h : Declined api cb w hdr w') (hquiet : cb.listener.1 = []) :
    { w' with nextRef := w.nextRef, log := w.log } = w := by
  cases h with
  | unasked => rfl
  | @refused w₀ w₁ s _ _ hemplace hcalls hderef =>
      obtain rfl : w₀ = w₁ := by
        rw [hquiet] at hcalls
        exact Except.ok.inj hcalls
      obtain ⟨hmem, href⟩ := World.mem_of_deref hderef
      unfold World.emplace at hemplace
      split at hemplace
      · next streams hstreams =>
        obtain rfl := Option.some.inj hemplace
        -- the stream at the new address is the one just inserted
        have hnew : s = { ref := w.nextRef, guestPort := hdr.srcPort, hostPort := hdr.dstPort } := by
          rcases (StdSet.mem_emplace hstreams).mp hmem with hs | hs
          · exact hs
          · exact absurd href (hw.ref_lt s hs).ne
        have hback := StdSet.erase_emplace hstreams
        rw [← hnew] at hback
        change { w with mStreams := streams.erase s.key } = w
        rw [hback]
      · exact absurd hemplace (by simp)

end Declined

/-! ### The two paths -/

section Paths

variable {api : GoldfishVirtIOVSockDevAPI σ} {cb : Callbacks P} {w w₁ : World σ P}
  {hdr : VirtioVsockHdr}

/-- A request that makes no stream: `processPacketOpRequestLocked` says so, and leaves the
device as it was declined. -/
theorem processPacketOpRequestLocked_declined (hop : hdr.op = VirtioVsockOp.request.code)
    (h : Declined api cb w hdr w₁) :
    processPacketOpRequestLocked api cb w hdr = .ok (false, w₁) := by
  unfold processPacketOpRequestLocked
  cases h with
  | unasked hno =>
      rw [if_neg fun hlistens => hno ⟨hop, hlistens⟩]
      rfl
  | refused _ hlistens hemplace hcalls hderef hnone =>
      rw [if_pos hlistens]
      simp only [hemplace, hcalls, hderef, hnone, ok_bind]
      rfl

/-- The control path answers. -/
theorem onPacketReceiveControl_declined (hunknown : w.mStreams.find? ⟨hdr.srcPort, hdr.dstPort⟩ = none)
    (h : Declined api cb w hdr w₁) :
    ∃ w', onPacketReceiveControl api cb w hdr = .ok w' ∧ Answered hdr w₁ w' := by
  by_cases hop : hdr.op = VirtioVsockOp.request.code
  · have hrst : hdr.op ≠ VirtioVsockOp.rst.code := by
      rw [hop]
      decide
    refine ⟨_, ?_, answered_queueReset hrst⟩
    rw [onPacketReceiveControl, if_pos hop, processPacketOpRequestLocked_declined hop h, ok_bind]
    rfl
  · obtain rfl : w = w₁ := by
      cases h with
      | unasked => rfl
      | refused hop' => exact absurd hop' hop
    rw [onPacketReceiveControl, if_neg hop, hunknown]
    by_cases hrst : hdr.op = VirtioVsockOp.rst.code
    · exact ⟨w, by rw [if_neg (not_not.mpr hrst)], answered_self hrst⟩
    · exact ⟨_, by rw [if_pos hrst], answered_queueReset hrst⟩

/-- The path for data does not. -/
theorem onPacketReceiveRwPacket_unknown
    (hunknown : w.mStreams.find? ⟨hdr.srcPort, hdr.dstPort⟩ = none) (pieces : List (List UInt8)) :
    onPacketReceiveRwPacket api cb w hdr pieces = .ok w := by
  rw [onPacketReceiveRwPacket, onPacketReceiveRwStart, hunknown]

end Paths

/-! ### Half-open connections -/

/-- A packet of the guest for an unknown pair of ports that makes no stream is answered,
and changes nothing else, exactly if it carries no data. -/
theorem answered_iff {api : GoldfishVirtIOVSockDevAPI VirtIOVSock} {cb : Callbacks P}
    {w : World VirtIOVSock P} {iov : List (List UInt8)} (hw : w.Wf)
    (hpacket : IsGuestPacket w.vq.guestCid iov.flatten)
    (hunknown : w.mStreams.find? ⟨(packetHeader iov.flatten).srcPort,
      (packetHeader iov.flatten).dstPort⟩ = none) :
    (∀ w₁, Declined api cb w (packetHeader iov.flatten) w₁ →
      (∃ w', virtioVsockParseGuestToHost api cb w iov = .ok w' ∧
        Answered (packetHeader iov.flatten) w₁ w') ∧
      (cb.listener.1 = [] → { w₁ with nextRef := w.nextRef, log := w.log } = w)) ↔
    (packetHeader iov.flatten).op ≠ VirtioVsockOp.rw.code := by
  rw [parse_of_packet hpacket]
  constructor
  · intro h hrw
    have hother : (packetHeader iov.flatten).op ≠ VirtioVsockOp.request.code ∧
        (packetHeader iov.flatten).op ≠ VirtioVsockOp.rst.code := by
      rw [hrw]
      decide
    obtain ⟨⟨w', hparse, hanswered⟩, -⟩ := h w (.unasked fun hasked => hother.1 hasked.1)
    rw [if_neg (not_not.mpr hrw), onPacketReceiveRwPacket_unknown hunknown] at hparse
    obtain rfl := Except.ok.inj hparse
    exact not_answered_self hother.2 hanswered
  · intro hrw w₁ hdeclined
    rw [if_pos hrw]
    exact ⟨onPacketReceiveControl_declined hunknown hdeclined, hdeclined.same hw⟩

/-- A RESPONSE from port 1000 of guest 3 to port 9. -/
def strayResponse : List (List UInt8) :=
  [[3, 0, 0, 0, 0, 0, 0, 0, 2, 0, 0, 0, 0, 0, 0, 0, 0xe8, 3, 0, 0, 9, 0, 0, 0],
    [0, 0, 0, 0, 1, 0, 2, 0, 0, 0, 0, 0, 8, 0, 0, 0, 0, 0, 0, 0]]

theorem answered_strayResponse : ∃ w' : World VirtIOVSock Unit,
    virtioVsockParseGuestToHost devApi {} (World.realized {9} ⟨3, []⟩) strayResponse = .ok w' ∧
      w'.mOrphanPackets = [preparePacketHeader 9 1000 .rst 0 0] ∧
      w'.mStreams = ∅ := by
  have hpacket : IsGuestPacket (World.realized {9} ⟨3, []⟩ :
      World VirtIOVSock Unit).vq.guestCid strayResponse.flatten :=
    ⟨by decide, by decide, by decide, by decide, by decide⟩
  have hdeclined : Declined (P := Unit) devApi {} (World.realized {9} ⟨3, []⟩)
      (packetHeader strayResponse.flatten) (World.realized {9} ⟨3, []⟩) :=
    .unasked fun hasked => absurd hasked.1 (by decide)
  obtain ⟨⟨w', hparse, hanswered⟩, -⟩ :=
    (@answered_iff Unit devApi {} _ _ realized_sane.wf hpacket rfl).mpr (by decide) _ hdeclined
  refine ⟨w', hparse, hanswered.orphans, ?_⟩
  exact congrArg World.mStreams hanswered.others

/-- Three bytes for a port without a connection get no answer. -/
theorem threeBytes_unanswered : ¬ ∀ (w : World VirtIOVSock Unit) (cb : Callbacks Unit)
    (iov : List (List UInt8)), w.Wf → IsGuestPacket w.vq.guestCid iov.flatten →
      w.mStreams.find? ⟨(packetHeader iov.flatten).srcPort,
        (packetHeader iov.flatten).dstPort⟩ = none →
      ∀ w₁, Declined devApi cb w (packetHeader iov.flatten) w₁ →
        (∃ w', virtioVsockParseGuestToHost devApi cb w iov = .ok w' ∧
          Answered (packetHeader iov.flatten) w₁ w') ∧
        (cb.listener.1 = [] → { w₁ with nextRef := w.nextRef, log := w.log } = w) := by
  intro h
  have hpacket : IsGuestPacket 3 threeBytes.flatten :=
    ⟨by decide, by decide, by decide, by decide, by decide⟩
  obtain ⟨⟨w', hparse, hanswered⟩, -⟩ := h (World.realized ∅ ⟨3, []⟩) {} threeBytes realized_sane.wf
    hpacket rfl _ (.unasked fun hasked => absurd hasked.1 (by decide))
  rw [parse_of_packet hpacket, if_neg (by decide), onPacketReceiveRwPacket_unknown rfl] at hparse
  obtain rfl := Except.ok.inj hparse
  exact not_answered_self (by decide) hanswered

end Goldfish.Vsock
