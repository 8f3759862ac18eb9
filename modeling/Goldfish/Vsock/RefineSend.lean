import Goldfish.Vsock.Atom

/-!
# Goldfish.Vsock.RefineSend

`sendPacketsLocked` is a sequence of the effects of `Goldfish.Vsock.Atom`.

The loops of the code keep a local copy of a stream's mask and of the guest's free
space and write the mask back when they end. The abstract device has no such copies:
it takes each operation out of the mask when it is delivered, and computes the free
space anew for each packet. The two agree because nothing else runs in between
(`sendOps_atoms`) and because an answer never exceeds what was asked for
(`guestAvailSize_afterSend`).
-/

namespace Goldfish.Vsock

open Goldfish.Lib

variable {σ P : Type} {api : GoldfishVirtIOVSockDevAPI σ} {mode : Mode}

/-! ### Masks -/

theorem and_clear_self (m : UInt8) (op : VirtioVsockOp) : m &&& ~~~op.bit &&& op.bit = 0 := by
  rw [UInt8.and_assoc, UInt8.and_comm (~~~op.bit), UInt8.and_not_self, UInt8.and_zero]

theorem and_clear_of_zero {m b : UInt8} (op : VirtioVsockOp) (h : m &&& b = 0) :
    m &&& ~~~op.bit &&& b = 0 := by
  rw [UInt8.and_assoc, UInt8.and_comm (~~~op.bit), ← UInt8.and_assoc, h, UInt8.zero_and]

theorem bit_ne_zero (op : VirtioVsockOp) : op.bit ≠ 0 := by
  cases op <;> decide

theorem or_bit_ne_zero (m : UInt8) (op : VirtioVsockOp) : m ||| op.bit ≠ 0 := by
  intro h
  exact bit_ne_zero op (UInt8.or_eq_zero_iff.mp h).2

/-! ### Orphan packets -/

/-- The loop over the orphan packets; it ends early or with none left. -/
theorem sendOrphanPackets_atoms :
    ∀ (orphans : List VirtioVsockHdr) (w : World σ P) (needNotify : Bool),
      w.mOrphanPackets = orphans →
      HostAtoms api mode w (sendOrphanPackets api orphans w needNotify).world ∧
        ((sendOrphanPackets api orphans w needNotify).full = false →
          (sendOrphanPackets api orphans w needNotify).world.mOrphanPackets = [])
  | [], w, _, horph => ⟨.refl, fun _ => horph⟩
  | hdr :: rest, w, needNotify, horph => by
      unfold sendOrphanPackets
      cases hfull : virtIOVSockSendIsVqFull (w.sendPacketHostToGuest api none hdr []).1 with
      | true =>
          simp only [hfull, if_true]
          exact ⟨.single (.orphanKept horph hfull), by simp⟩
      | false =>
          simp only [hfull]
          obtain ⟨hatoms, hempty⟩ := sendOrphanPackets_atoms rest
            { (w.sendPacketHostToGuest api none hdr []).2 with mOrphanPackets := rest }
            (needNotify || virtIOVSockSendNeedNotify (w.sendPacketHostToGuest api none hdr []).1) rfl
          exact ⟨.head (.orphanSent horph hfull) hatoms, hempty⟩

/-! ### The operations of one stream -/

theorem mem_setMask {w : World σ P} {s : VsockStream P} (hs : s ∈ w.mStreams) (mask : UInt8) :
    { s with sendOpMask := mask } ∈ (w.setMask s.ref mask).mStreams :=
  World.mem_modify_iff.mpr (Or.inr ⟨s, hs, rfl, rfl⟩)

theorem setMask_setMask {w : World σ P} {ref : Ref} {m n : UInt8} :
    (w.setMask ref m).setMask ref n = w.setMask ref n := World.modify_modify

theorem setMask_clearOp {w : World σ P} {ref : Ref} {m : UInt8} {op : VirtioVsockOp} :
    (w.setMask ref m).clearOp ref op = w.setMask ref (m &&& ~~~op.bit) := World.modify_modify

theorem setMask_self {w : World σ P} (hw : w.Wf) {s : VsockStream P} (hs : s ∈ w.mStreams) :
    w.setMask s.ref s.sendOpMask = w :=
  World.modify_eq_self fun t ht href => by rw [hw.ref_inj t ht s hs href]

theorem sendOp_eq_setMask {w : World σ P} (hw : w.Wf) {s : VsockStream P} (hs : s ∈ w.mStreams)
    {op : VirtioVsockOp} : w.sendOp s.ref op =
      (w.emit (.opQueued s.ref op)).setMask s.ref (s.sendOpMask ||| op.bit) := by
  show (w.emit (.opQueued s.ref op)).modify s.ref _ = _
  refine World.modify_congr fun t ht href => ?_
  rw [hw.ref_inj t ht s hs href]

/-- The loop over the operations. The device's mask is `mask` as far as the abstract
device is concerned; the code still has the old one in the stream. -/
theorem sendOps_atoms {s : VsockStream P} :
    ∀ (before ops : List VirtioVsockOp), maskOps = before ++ ops →
      ∀ (mask : UInt8) (w : World σ P) (needNotify : Bool), s ∈ w.mStreams →
        w.mOrphanPackets = [] → (∀ op ∈ before, mask &&& op.bit = 0) →
        let out := sendOps api s ops mask w needNotify
        HostAtoms api mode (w.setMask s.ref mask) (out.2.world.setMask s.ref out.1) ∧
          out.2.world.mStreams = w.mStreams ∧ out.2.world.mOrphanPackets = [] ∧
          out.2.world.nextRef = w.nextRef ∧
          (out.2.full = false → ∀ op ∈ maskOps, out.1 &&& op.bit = 0)
  | before, [], hops, mask, w, needNotify, _, horph, hbefore => by
      rw [List.append_nil] at hops
      exact ⟨.refl, rfl, horph, rfl, fun _ => hops ▸ hbefore⟩
  | before, op :: ops, hops, mask, w, needNotify, hs, horph, hbefore => by
      have hops' : maskOps = (before ++ [op]) ++ ops := by simp [hops]
      unfold sendOps
      by_cases hbit : mask &&& op.bit ≠ 0
      · rw [if_pos hbit]
        have hfirst : ({ s with sendOpMask := mask } : VsockStream P).FirstOp op := by
          refine ⟨before, ops, hops, by simpa [VsockStream.hasOp] using hbit, ?_⟩
          intro op' hop'
          simpa [VsockStream.hasOp] using hbefore op' hop'
        cases hfull : virtIOVSockSendIsVqFull
            (w.sendPacketHostToGuest api (some s.ref) (s.preparePacketHeader op 0) []).1 with
        | true =>
            simp only [hfull, if_true]
            have hkept : HostAtom api mode (w.setMask s.ref mask)
                ((w.sendPacketHostToGuest api (some s.ref) (s.preparePacketHeader op 0) []).2.setMask
                  s.ref mask) :=
              HostAtom.opKept (s := { s with sendOpMask := mask }) (mem_setMask hs mask) horph hfirst
                hfull
            exact ⟨.single hkept, rfl, horph, rfl, by simp⟩
        | false =>
            simp only [hfull]
            have hsent : HostAtom api mode (w.setMask s.ref mask)
                ((w.sendPacketHostToGuest api (some s.ref) (s.preparePacketHeader op 0) []).2.setMask
                  s.ref (mask &&& ~~~op.bit)) := by
              rw [← setMask_clearOp]
              exact HostAtom.opSent (s := { s with sendOpMask := mask }) (mem_setMask hs mask) horph
                hfirst hfull
            have hbefore' : ∀ op' ∈ before ++ [op], mask &&& ~~~op.bit &&& op'.bit = 0 := by
              intro op' hop'
              rcases List.mem_append.mp hop' with hop' | hop'
              · exact and_clear_of_zero op (hbefore op' hop')
              · rw [List.mem_singleton.mp hop']
                exact and_clear_self mask op
            obtain ⟨hatoms, hrest⟩ := sendOps_atoms (before ++ [op]) ops hops'
              (mask &&& ~~~op.bit)
              (w.sendPacketHostToGuest api (some s.ref) (s.preparePacketHeader op 0) []).2
              (needNotify || virtIOVSockSendNeedNotify
                (w.sendPacketHostToGuest api (some s.ref) (s.preparePacketHeader op 0) []).1)
              hs horph hbefore'
            exact ⟨.head hsent hatoms, hrest⟩
      · rw [if_neg hbit]
        refine sendOps_atoms (before ++ [op]) ops hops' mask w needNotify hs horph ?_
        intro op' hop'
        rcases List.mem_append.mp hop' with hop' | hop'
        · exact hbefore op' hop'
        · rw [List.mem_singleton.mp hop']
          exact not_not.mp hbit

/-- The control packets of one stream. When they all went out, its mask is empty and
nothing else about it has changed. -/
theorem sendStreamOps_atoms {w : World σ P} (hw : w.Wf) {s : VsockStream P} (hs : s ∈ w.mStreams)
    (horph : w.mOrphanPackets = []) (needNotify : Bool) :
    let out := sendStreamOps api s w needNotify
    HostAtoms api mode w out.world ∧ out.world.mOrphanPackets = [] ∧
      (out.full = false → { s with sendOpMask := 0 } ∈ out.world.mStreams) := by
  -- the abstract device with the mask the loop starts from
  obtain ⟨w₁, mask, hw₁, hmask, hstart, hmem, horph₁⟩ : ∃ (w₁ : World σ P) (mask : UInt8),
      w₁ = (if s.guestAvailSize = 0 then w.emit (.opQueued s.ref .creditRequest) else w) ∧
      mask = (s.sendOpMask ||| if s.guestAvailSize = 0 then VirtioVsockOp.creditRequest.bit else 0) ∧
      HostAtoms api mode w (w₁.setMask s.ref mask) ∧ s ∈ w₁.mStreams ∧
      w₁.mOrphanPackets = [] := by
    refine ⟨_, _, rfl, rfl, ?_⟩
    by_cases hzero : s.guestAvailSize = 0
    · simp only [if_pos hzero]
      refine ⟨?_, hs, horph⟩
      have hcredit : HostAtom api mode w (w.sendOp s.ref .creditRequest) :=
        HostAtom.needCredit hs hzero
      rw [sendOp_eq_setMask hw hs] at hcredit
      exact .single hcredit
    · simp only [if_neg hzero, UInt8.or_zero]
      refine ⟨?_, hs, horph⟩
      rw [setMask_self hw hs]
  simp only [sendStreamOps, ← hw₁, ← hmask]
  by_cases hne : mask ≠ 0
  · rw [if_pos hne]
    obtain ⟨hops, hstreams, horph₂, -, hclear⟩ :
        HostAtoms api mode (w₁.setMask s.ref mask)
          ((sendOps api s maskOps mask w₁ needNotify).2.world.setMask s.ref
            (sendOps api s maskOps mask w₁ needNotify).1) ∧ _ :=
      sendOps_atoms [] maskOps rfl mask w₁ needNotify hmem horph₁ (by simp)
    have hmem₂ := hmem
    rw [← hstreams] at hmem₂
    refine ⟨?_, horph₂, fun hfull => ?_⟩
    · cases hfull : (sendOps api s maskOps mask w₁ needNotify).2.full with
      | true =>
          simp only [if_true]
          exact hstart.trans hops
      | false =>
          simp only
          refine (hstart.trans hops).tail ?_
          have hcleared : HostAtom api mode _ _ := HostAtom.maskCleared
            (mem_setMask hmem₂ (sendOps api s maskOps mask w₁ needNotify).1)
            (by simpa [VsockStream.hasOp] using hclear hfull)
          rw [setMask_setMask] at hcleared
          exact hcleared
    · have hfull : (sendOps api s maskOps mask w₁ needNotify).2.full = false := hfull
      simp only [hfull]
      exact mem_setMask hmem₂ 0
  · rw [if_neg hne]
    -- an empty mask: the guest has room, and the stream had nothing to send
    have hzero : s.guestAvailSize ≠ 0 := by
      intro hzero
      rw [if_pos hzero] at hmask
      exact hne (hmask ▸ or_bit_ne_zero _ _)
    rw [if_neg hzero, UInt8.or_zero] at hmask
    rw [if_neg hzero] at hw₁
    subst hw₁
    refine ⟨.refl, horph, fun _ => ?_⟩
    have : s.sendOpMask = 0 := hmask ▸ not_not.mp hne
    rw [← this]
    exact hs

/-! ### The data of one stream -/

theorem guestAvailSize_lt (s : VsockStream P) : s.guestAvailSize < 2 ^ 32 := UInt32.toNat_lt _

/-- After `n` more bytes the free space is `n` smaller: the wrapping 32-bit computation
and the `size_t` countdown of the loop agree. -/
theorem guestAvailSize_afterSend {s : VsockStream P} {buf : SocketBuffer} {n : Nat}
    (hn : n ≤ s.guestAvailSize) :
    ({ s with hostToGuestBuf := buf, hostSentCnt := s.hostSentCnt + UInt32.ofNat n } :
      VsockStream P).guestAvailSize = s.guestAvailSize - n := by
  have hlt := guestAvailSize_lt s
  unfold VsockStream.guestAvailSize at *
  have hwrap : s.guestBufAlloc - (s.hostSentCnt + UInt32.ofNat n - s.guestFwdCnt) =
      (s.guestBufAlloc - (s.hostSentCnt - s.guestFwdCnt)) - UInt32.ofNat n := by
    grind
  have hofNat : (UInt32.ofNat n).toNat = n :=
    UInt32.toNat_ofNat_of_lt' (by unfold UInt32.size; omega)
  simp only [hwrap]
  rw [UInt32.toNat_sub_of_le _ _ (by rw [UInt32.le_iff_toNat_le, hofNat]; exact hn), hofNat]

theorem sizeSub_eq {a b : Nat} (ha : a < 2 ^ 64) (hb : b ≤ a) : sizeSub a b = a - b := by
  unfold sizeSub
  omega

/-- The countdown of the loop after one packet, for an interface that does not claim more
than it was asked for. -/
theorem sizeSub_sentSize (hbounded : api.Bounded) {w : World σ P} {s : VsockStream P}
    {buf : SocketBuffer} {data : List UInt8} {avail : Nat} (havail : avail = s.guestAvailSize) :
    let sent := virtIOVSockSentSize (w.sendPacketHostToGuest api (some s.ref)
      (s.preparePacketHeader .rw (UInt32.ofNat (min data.length avail))) data).1
    sizeSub avail sent =
      ({ s with hostToGuestBuf := buf, hostSentCnt := s.hostSentCnt + UInt32.ofNat sent } :
        VsockStream P).guestAvailSize := by
  subst havail
  have hlt := guestAvailSize_lt s
  have hlen : (UInt32.ofNat (min data.length s.guestAvailSize)).toNat =
      min data.length s.guestAvailSize :=
    UInt32.toNat_ofNat_of_lt' (by unfold UInt32.size; omega)
  have hsent : virtIOVSockSentSize (w.sendPacketHostToGuest api (some s.ref)
      (s.preparePacketHeader .rw (UInt32.ofNat (min data.length s.guestAvailSize))) data).1 ≤
        s.guestAvailSize :=
    (hbounded w.vq _ data).trans (hlen.le.trans (Nat.min_le_right _ _))
  intro sent
  rw [guestAvailSize_afterSend hsent, sizeSub_eq (by omega) hsent]

theorem mem_afterSend {w : World σ P} {s : VsockStream P} (hs : s ∈ w.mStreams)
    {buf : SocketBuffer} {n : Nat} :
    { s with hostToGuestBuf := buf, hostSentCnt := s.hostSentCnt + UInt32.ofNat n } ∈
      (w.afterSend s.ref buf n).mStreams :=
  World.mem_modify_iff.mpr (Or.inr ⟨s, hs, rfl, rfl⟩)

/-- The loop over the data. -/
theorem sendData_atoms :
    ∀ (fuel avail : Nat) (w : World σ P) (needNotify : Bool) (out : Swept σ P)
      (s : VsockStream P), w.Wf → s ∈ w.mStreams → s.sendOpMask = 0 → w.mOrphanPackets = [] →
      (api.Bounded → avail = s.guestAvailSize) →
      sendData api s.ref fuel avail w needNotify = .ok out →
      HostAtoms api mode w out.world ∧ out.world.mOrphanPackets = []
  | 0, _, _, _, _, _, _, _, _, _, _, h => by simp [sendData] at h
  | fuel + 1, avail, w, needNotify, out, s, hw, hs, hmask, horph, havail, h => by
      unfold sendData at h
      by_cases hzero : avail = 0
      · rw [if_pos hzero, pure_eq_ok] at h
        subst h
        exact ⟨.refl, horph⟩
      · rw [if_neg hzero] at h
        simp only [hw.deref_eq hs, ok_bind, bind_eq_ok, SocketBuffer.peek_eq_ok] at h
        obtain ⟨data, ⟨hok, rfl⟩, h⟩ := h
        by_cases hempty : s.hostToGuestBuf.pending.length = 0
        · rw [if_pos hempty, pure_eq_ok] at h
          subst h
          exact ⟨.refl, horph⟩
        · rw [if_neg hempty, bind_eq_ok] at h
          obtain ⟨buf, hbuf, h⟩ := h
          have hpend : s.hostToGuestBuf.pending ≠ [] := fun hnil => hempty (by simp [hnil])
          have hatom : HostAtom api mode w _ := HostAtom.dataSent hs horph hmask hok hpend
            (Nat.pos_of_ne_zero hzero) havail rfl hbuf
          cases hfull : virtIOVSockSendIsVqFull (w.sendPacketHostToGuest api (some s.ref)
              (s.preparePacketHeader .rw (UInt32.ofNat (min s.hostToGuestBuf.pending.length avail)))
              s.hostToGuestBuf.pending).1 with
          | true =>
              rw [hfull, if_pos rfl, pure_eq_ok] at h
              subst h
              exact ⟨.single hatom, horph⟩
          | false =>
              rw [hfull, if_neg Bool.false_ne_true] at h
              obtain ⟨hatoms, horph'⟩ := sendData_atoms fuel _ _ _ out _ (hatom.wf hw)
                (mem_afterSend hs) hmask horph
                (fun hbounded => sizeSub_sentSize hbounded (havail hbounded)) h
              exact ⟨.head hatom hatoms, horph'⟩

/-! ### All streams -/

theorem sendStream_atoms {w : World σ P} (hw : w.Wf) (horph : w.mOrphanPackets = []) {ref : Ref}
    {needNotify : Bool} {out : Swept σ P} (h : sendStream api ref w needNotify = .ok out) :
    HostAtoms api mode w out.world ∧ out.world.mOrphanPackets = [] := by
  unfold sendStream at h
  rw [bind_eq_ok] at h
  obtain ⟨s, hs, h⟩ := h
  obtain ⟨hmem, rfl⟩ := World.mem_of_deref hs
  obtain ⟨hops, horph₁, hleft⟩ :
      HostAtoms api mode w (sendStreamOps api s w needNotify).world ∧ _ :=
    sendStreamOps_atoms hw hmem horph needNotify
  cases hfull : (sendStreamOps api s w needNotify).full with
  | true =>
      simp only [hfull, if_true, pure_eq_ok] at h
      subst h
      exact ⟨hops, horph₁⟩
  | false =>
      simp only [hfull, Bool.false_eq_true, if_false] at h
      obtain ⟨hdata, horph₂⟩ : HostAtoms api mode _ out.world ∧ _ :=
        sendData_atoms _ _ _ _ out { s with sendOpMask := 0 }
          (hops.wf hw) (hleft hfull) rfl horph₁ (fun _ => rfl) h
      exact ⟨hops.trans hdata, horph₂⟩

theorem sendStreams_atoms :
    ∀ (refs : List Ref) (w : World σ P) (needNotify : Bool) (out : Swept σ P), w.Wf →
      w.mOrphanPackets = [] → sendStreams api refs w needNotify = .ok out →
      HostAtoms api mode w out.world
  | [], w, needNotify, out, _, _, h => by
      rw [sendStreams, pure_eq_ok] at h
      subst h
      exact .refl
  | ref :: refs, w, needNotify, out, hw, horph, h => by
      rw [sendStreams, bind_eq_ok] at h
      obtain ⟨mid, hmid, h⟩ := h
      obtain ⟨hfirst, horph'⟩ : HostAtoms api mode w mid.world ∧ _ := sendStream_atoms hw horph hmid
      split at h
      · rw [pure_eq_ok] at h
        subst h
        exact hfirst
      · exact hfirst.trans (sendStreams_atoms refs _ _ _ (hfirst.wf hw) horph' h)

/-- `sendPacketsLocked` refines the abstract device. -/
theorem sendPacketsLocked_atoms {w w' : World σ P} {needNotify : Bool} (hw : w.Wf)
    (h : sendPacketsLocked api w = .ok (needNotify, w')) : HostAtoms api mode w w' := by
  unfold sendPacketsLocked at h
  obtain ⟨horphans, hempty⟩ :
      HostAtoms api mode w (sendOrphanPackets api w.mOrphanPackets w false).world ∧ _ :=
    sendOrphanPackets_atoms w.mOrphanPackets w false rfl
  cases hfull : (sendOrphanPackets api w.mOrphanPackets w false).full with
  | true =>
      simp only [hfull, if_true, pure_eq_ok, Prod.mk.injEq] at h
      rw [← h.2]
      exact horphans
  | false =>
      simp only [hfull, Bool.false_eq_true, if_false, bind_eq_ok, pure_eq_ok, Prod.mk.injEq] at h
      obtain ⟨out, hout, -, rfl⟩ := h
      exact horphans.trans (sendStreams_atoms _ _ _ _ (horphans.wf hw) (hempty hfull) hout)

theorem sendPacketsAndNotifyLocked_atoms {w w' : World σ P} (hw : w.Wf)
    (h : sendPacketsAndNotifyLocked api w = .ok w') : HostAtoms api mode w w' := by
  unfold sendPacketsAndNotifyLocked at h
  rw [bind_eq_ok] at h
  obtain ⟨⟨needNotify, w₁⟩, hsend, h⟩ := h
  rw [pure_eq_ok] at h
  subst h
  have hatoms : HostAtoms api mode w w₁ := sendPacketsLocked_atoms hw hsend
  cases needNotify with
  | true => exact hatoms.tail .notified
  | false => exact hatoms

/-! ### What sending leaves in the history -/

/-- A packet is offered to the queue, or an operation is put into a mask. -/
def Event.isSending : Event σ P → Bool
  | .call _ _ _ _ => true
  | .opQueued _ _ => true
  | _ => false

/-- The queue was full when one of the packets was offered. -/
def CutShort (api : GoldfishVirtIOVSockDevAPI σ) (es : List (Event σ P)) : Prop :=
  ∃ source vq hdr data, Event.call source vq hdr data ∈ es ∧
    virtIOVSockSendIsVqFull (api.sendPacketHostToGuest vq hdr data).result = true

/-- Nothing but packets and operations was recorded in between, and a loop that ends early
has met a full queue. -/
def OnlySends (api : GoldfishVirtIOVSockDevAPI σ) (w w' : World σ P) (full : Bool) : Prop :=
  ∃ es, w'.log = w.log ++ es ∧ (∀ e ∈ es, e.isSending = true) ∧ (full = true → CutShort api es)

section OnlySends

variable {w w₁ w₂ : World σ P} {full full' : Bool}

theorem OnlySends.of_log_eq (h : w₁.log = w.log) : OnlySends api w w₁ false :=
  ⟨[], by rw [h, List.append_nil], by simp, by simp⟩

theorem OnlySends.trans (h₁ : OnlySends api w w₁ full) (h₂ : OnlySends api w₁ w₂ full') :
    OnlySends api w w₂ full' := by
  obtain ⟨es₁, hlog₁, hes₁, -⟩ := h₁
  obtain ⟨es₂, hlog₂, hes₂, hfull⟩ := h₂
  refine ⟨es₁ ++ es₂, by rw [hlog₂, hlog₁, List.append_assoc], fun e he => ?_, fun h => ?_⟩
  · exact (List.mem_append.mp he).elim (hes₁ e) (hes₂ e)
  · obtain ⟨source, vq, hdr, data, hmem, hcut⟩ := hfull h
    exact ⟨source, vq, hdr, data, List.mem_append_right _ hmem, hcut⟩

theorem onlySends_call (w : World σ P) (source : Option Ref) (hdr : VirtioVsockHdr)
    (data : List UInt8) : OnlySends api w (w.sendPacketHostToGuest api source hdr data).2
      (virtIOVSockSendIsVqFull (w.sendPacketHostToGuest api source hdr data).1) :=
  ⟨[.call source w.vq hdr data], rfl, by simp [Event.isSending],
    fun h => ⟨source, w.vq, hdr, data, List.mem_cons_self, h⟩⟩

end OnlySends

theorem sendOrphanPackets_onlySends :
    ∀ (orphans : List VirtioVsockHdr) (w : World σ P) (needNotify : Bool),
      OnlySends api w (sendOrphanPackets api orphans w needNotify).world
        (sendOrphanPackets api orphans w needNotify).full
  | [], _, _ => .of_log_eq rfl
  | hdr :: rest, w, needNotify => by
      have hcall : OnlySends api _ _ _ := onlySends_call w none hdr []
      unfold sendOrphanPackets
      dsimp only
      split
      · next hfull => exact hfull ▸ hcall
      · exact hcall.trans (sendOrphanPackets_onlySends rest
          { (w.sendPacketHostToGuest api none hdr []).2 with mOrphanPackets := rest } _)

theorem sendOps_onlySends {s : VsockStream P} :
    ∀ (ops : List VirtioVsockOp) (mask : UInt8) (w : World σ P) (needNotify : Bool),
      OnlySends api w (sendOps api s ops mask w needNotify).2.world
        (sendOps api s ops mask w needNotify).2.full
  | [], _, _, _ => .of_log_eq rfl
  | op :: ops, mask, w, needNotify => by
      have hcall : OnlySends api _ _ _ :=
        onlySends_call w (some s.ref) (s.preparePacketHeader op 0) []
      unfold sendOps
      split
      · dsimp only
        split
        · next hfull => exact hfull ▸ hcall
        · exact hcall.trans (sendOps_onlySends ops _ _ _)
      · exact sendOps_onlySends ops _ _ _

theorem sendStreamOps_onlySends {s : VsockStream P} {w : World σ P} {needNotify : Bool} :
    OnlySends api w (sendStreamOps api s w needNotify).world
      (sendStreamOps api s w needNotify).full := by
  have hcredit : OnlySends api w (if s.guestAvailSize = 0 then
      w.emit (.opQueued s.ref .creditRequest) else w) false := by
    split
    · exact ⟨[.opQueued s.ref .creditRequest], rfl, by simp [Event.isSending], by simp⟩
    · exact .of_log_eq rfl
  unfold sendStreamOps
  dsimp only
  generalize (if s.guestAvailSize = 0 then w.emit (.opQueued s.ref .creditRequest) else w) = w₁
    at hcredit ⊢
  generalize (s.sendOpMask ||| if s.guestAvailSize = 0 then VirtioVsockOp.creditRequest.bit else 0)
    = mask
  have hops := hcredit.trans (sendOps_onlySends (s := s) maskOps mask w₁ needNotify)
  generalize sendOps api s maskOps mask w₁ needNotify = out at hops ⊢
  split
  · exact hops
  · exact hcredit

theorem sendData_onlySends {ref : Ref} :
    ∀ (fuel avail : Nat) (w : World σ P) (needNotify : Bool) (out : Swept σ P),
      sendData api ref fuel avail w needNotify = .ok out → OnlySends api w out.world out.full
  | 0, _, _, _, _, h => by simp [sendData] at h
  | fuel + 1, avail, w, needNotify, out, h => by
      unfold sendData at h
      split at h
      · rw [pure_eq_ok] at h
        exact h ▸ .of_log_eq rfl
      · simp only [bind_eq_ok] at h
        obtain ⟨s, -, data, -, h⟩ := h
        split at h
        · rw [pure_eq_ok] at h
          exact h ▸ .of_log_eq rfl
        · rw [bind_eq_ok] at h
          obtain ⟨buf, -, h⟩ := h
          have hcall : OnlySends api _ _ _ := onlySends_call w (some ref)
            (s.preparePacketHeader .rw (UInt32.ofNat (min data.length avail))) data
          split at h
          · next hfull =>
            rw [pure_eq_ok] at h
            rw [hfull] at hcall
            exact h ▸ hcall
          · obtain ⟨es, hlog, hes⟩ := sendData_onlySends fuel _ _ _ out h
            exact hcall.trans ⟨es, hlog, hes⟩

theorem sendStream_onlySends {w : World σ P} {ref : Ref} {needNotify : Bool} {out : Swept σ P}
    (h : sendStream api ref w needNotify = .ok out) : OnlySends api w out.world out.full := by
  simp only [sendStream, bind_eq_ok] at h
  obtain ⟨s, -, h⟩ := h
  split at h
  · rw [pure_eq_ok] at h
    exact h ▸ sendStreamOps_onlySends
  · exact sendStreamOps_onlySends.trans (sendData_onlySends _ _ _ _ out h)

theorem sendStreams_onlySends :
    ∀ (refs : List Ref) (w : World σ P) (needNotify : Bool) (out : Swept σ P),
      sendStreams api refs w needNotify = .ok out → OnlySends api w out.world out.full
  | [], w, needNotify, out, h => by
      rw [sendStreams, pure_eq_ok] at h
      exact h ▸ .of_log_eq rfl
  | ref :: refs, w, needNotify, out, h => by
      rw [sendStreams, bind_eq_ok] at h
      obtain ⟨mid, hmid, h⟩ := h
      split at h
      · rw [pure_eq_ok] at h
        exact h ▸ sendStream_onlySends hmid
      · exact (sendStream_onlySends hmid).trans (sendStreams_onlySends refs _ _ out h)

/-- `sendPacketsLocked` stores nothing, makes no callback and hears nothing from the guest. -/
theorem sendPacketsLocked_onlySends {w w' : World σ P} {needNotify : Bool}
    (h : sendPacketsLocked api w = .ok (needNotify, w')) : OnlySends api w w' false := by
  have horphans : OnlySends api _ _ _ := sendOrphanPackets_onlySends w.mOrphanPackets w false
  unfold sendPacketsLocked at h
  dsimp only at h
  split at h
  · simp only [pure_eq_ok, Prod.mk.injEq] at h
    exact h.2 ▸ horphans.trans (.of_log_eq rfl)
  · simp only [bind_eq_ok, pure_eq_ok, Prod.mk.injEq] at h
    obtain ⟨out, hout, -, rfl⟩ := h
    exact (horphans.trans (sendStreams_onlySends _ _ _ out hout)).trans (.of_log_eq rfl)

end Goldfish.Vsock
