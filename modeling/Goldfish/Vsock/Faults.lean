import Goldfish.Vsock.LowLevel
import Goldfish.Vsock.Refine

/-!
# Goldfish.Vsock.Faults

**Why the device can stop.** Sending never does (`sendPacketsLocked_ok`), provided
that the virtqueue side does not claim more than it was offered and that the send
loop advances (`Lawful`; `devApi_lawful` says that `vsock_low_level.c` is such a
side). What remains are four reasons, and each is a property of one state of the
abstract device (`Stops`): `step_error` finds that state inside the action that
faults. So a fault is excluded by an invariant of the abstract device, and the code
need not be looked at again.
-/

namespace Goldfish.Vsock

open Goldfish.Lib

variable {σ P : Type} {api : GoldfishVirtIOVSockDevAPI σ} {mode : Mode}

/-! ### The virtqueue side -/

/-- What the send loop relies on: an answer does not claim more than it was asked for,
and a packet with data that is not cut short by a full queue gets the loop further. -/
structure GoldfishVirtIOVSockDevAPI.Lawful (api : GoldfishVirtIOVSockDevAPI σ) : Prop where
  bounded : api.Bounded
  advances : ∀ vq hdr data, 0 < hdr.len.toNat → hdr.len.toNat ≤ data.length →
    virtIOVSockSendIsVqFull (api.sendPacketHostToGuest vq hdr data).result = false →
    virtIOVSockSentSize (api.sendPacketHostToGuest vq hdr data).result = hdr.len.toNat ∨
      api.avail (api.sendPacketHostToGuest vq hdr data).vq <
        api.avail vq + virtIOVSockSentSize (api.sendPacketHostToGuest vq hdr data).result

/-- `vsock_low_level.c` keeps what the send loop relies on. -/
theorem devApi_lawful : devApi.Lawful where
  bounded vq hdr data := by
    simp only [devApi, virtioVsockSendPacketHostToGuest, virtIOVSockSentSize_make]
    have hpayload := (sendLoop_payload (vq.fillHeader hdr) vq.hostToGuestVq
      (data.take hdr.len.toNat)).2.1
    have htake := List.length_take_le hdr.len.toNat data
    exact (Nat.mod_le _ _).trans (hpayload.trans htake)
  advances vq hdr data _ _ hfull := by
    refine Or.inr ?_
    simp only [devApi, virtioVsockSendPacketHostToGuest, virtIOVSockSendIsVqFull_make] at hfull ⊢
    exact Nat.lt_add_right _ (sendLoop_rest _ _ _ hfull)

/-! ### The buffers are well formed -/

/-- Every send buffer keeps the invariant its asserts check. -/
def World.BufsOk (w : World σ P) : Prop := ∀ s ∈ w.mStreams, s.hostToGuestBuf.Ok

theorem Effect.bufsOk {x y : Ctl × World σ P} (h : Effect mode x y) (hbufs : x.2.BufsOk) :
    y.2.BufsOk := by
  cases h with
  | same _ hstreams _ =>
      intro t ht
      rw [hstreams] at ht
      exact hbufs t ht
  | updated _ hs hupd hkept _ =>
      intro t ht
      rcases (hupd t).mp ht with rfl | ⟨hmem, -⟩
      · exact hkept.buf (hbufs _ hs)
      · exact hbufs t hmem
  | accepted _ _ hs hupd hkept _ _ =>
      intro t ht
      rcases (hupd t).mp ht with rfl | ⟨hmem, -⟩
      · exact hkept.buf (hbufs _ hs)
      · exact hbufs t hmem
  | requested _ _ hmem _ hbuf _ _ =>
      intro t ht
      rcases (hmem t).mp ht with rfl | hmem
      · exact hbuf
      · exact hbufs t hmem
  | connected _ hmem _ hbuf _ _ _ _ _ =>
      intro t ht
      rcases (hmem t).mp ht with rfl | hmem
      · exact hbuf
      · exact hbufs t hmem
  | declined _ _ _ hmem _ => exact fun t ht => hbufs t ((hmem t).mp ht).1
  | erased _ _ hmem _ => exact fun t ht => hbufs t ((hmem t).mp ht).1

/-- Every stream has a plug, but for the one whose listener is being asked. -/
def Plugged (x : Ctl × World σ P) : Prop :=
  ∀ s ∈ x.2.mStreams, x.1.newborn ≠ some s.ref → s.plug.isSome = true

theorem Effect.plugged {x y : Ctl × World σ P} (h : Effect mode x y) (hx : Plugged x) :
    Plugged y := by
  cases h with
  | same hc hstreams _ =>
      intro t ht hborn
      rw [hstreams] at ht
      exact hx t ht (hc ▸ hborn)
  | updated hc hs hupd hkept _ =>
      intro t ht hborn
      rcases (hupd t).mp ht with rfl | ⟨ht, -⟩
      · exact hkept.plug (hx _ hs (hc ▸ hkept.ref ▸ hborn))
      · exact hx t ht (hc ▸ hborn)
  | requested hc hc' hmem _ _ _ _ =>
      intro t ht hborn
      rcases (hmem t).mp ht with rfl | ht
      · exact absurd hc' hborn
      · exact hx t ht (by simp [hc])
  | accepted hc _ _ hupd _ hplug _ =>
      intro t ht _
      rcases (hupd t).mp ht with rfl | ⟨ht, hne⟩
      · exact hplug
      · exact hx t ht (by simpa [hc, eq_comm] using hne)
  | declined hc _ _ hmem _ =>
      intro t ht _
      obtain ⟨ht, hne⟩ := (hmem t).mp ht
      exact hx t ht (by simpa [hc, eq_comm] using hne)
  | connected hc hmem _ _ hplug _ _ _ _ =>
      intro t ht hborn
      rcases (hmem t).mp ht with rfl | ht
      · exact hplug
      · exact hx t ht (hc ▸ hborn)
  | erased hc _ hmem _ => exact fun t ht hborn => hx t ((hmem t).mp ht).1 (hc ▸ hborn)

/-- The facts about a state that hold on every path. -/
structure World.Sane (w : World σ P) : Prop where
  wf : w.Wf
  bufsOk : w.BufsOk

theorem Atoms.sane {x y : Ctl × World σ P} (h : Atoms api mode x y) (hx : x.2.Sane) :
    y.2.Sane :=
  star_invariant (I := fun v : Ctl × World σ P => v.2.Sane)
    (fun _ _ hab hI => ⟨hab.wf hI.wf, (hab.effect hI.wf).bufsOk hI.bufsOk⟩) h hx

theorem HostAtoms.sane {w w' : World σ P} (h : HostAtoms api mode w w') (hw : w.Sane) :
    w'.Sane :=
  star_invariant (I := World.Sane)
    (fun _ _ hab hI =>
      ⟨hab.wf hI.wf, (hab.effect (c := .idle) hI.wf fun _ => rfl).bufsOk hI.bufsOk⟩) h hw

/-! ### Sending does not fail -/

/-- The addresses of the streams, in the order of the set. -/
def World.refs (w : World σ P) : List Ref := w.mStreams.elems.map (·.ref)

theorem mem_refs {w : World σ P} {ref : Ref} : ref ∈ w.refs ↔ ∃ s ∈ w.mStreams, s.ref = ref :=
  List.mem_map

@[simp] theorem emit_refs {w : World σ P} {e : Event σ P} : (w.emit e).refs = w.refs := rfl

@[simp] theorem modify_refs {w : World σ P} {ref : Ref} {f : VsockStream P → VsockStream P}
    {hf : KeepsIdentity f} : (w.modify ref f hf).refs = w.refs := by
  simp only [World.refs, World.modify_elems, List.map_map]
  refine List.map_congr_left fun s _ => ?_
  by_cases h : s.ref = ref
  · simp [h, hf.ref s]
  · simp [h]

@[simp] theorem sendPacketHostToGuest_refs {w : World σ P} {source : Option Ref}
    {hdr : VirtioVsockHdr} {data : List UInt8} :
    (w.sendPacketHostToGuest api source hdr data).2.refs = w.refs := rfl

@[simp] theorem sendOps_refs {s : VsockStream P} :
    ∀ (ops : List VirtioVsockOp) (mask : UInt8) (w : World σ P) (needNotify : Bool),
      (sendOps api s ops mask w needNotify).2.world.refs = w.refs
  | [], _, _, _ => rfl
  | op :: ops, mask, w, needNotify => by
      unfold sendOps
      split
      · dsimp only
        split
        · rfl
        · exact sendOps_refs ops _ _ _
      · exact sendOps_refs ops _ _ _

theorem sendStreamOps_refs {w : World σ P} {s : VsockStream P} {needNotify : Bool} :
    (sendStreamOps api s w needNotify).world.refs = w.refs := by
  by_cases hzero : s.guestAvailSize = 0
  · simp only [sendStreamOps, hzero, if_true]
    split <;> simp [World.setMask]
  · simp only [sendStreamOps, hzero, if_false]
    split <;> simp [World.setMask]

theorem sendData_refs {ref : Ref} :
    ∀ (fuel avail : Nat) (w : World σ P) (needNotify : Bool) (out : Swept σ P),
      sendData api ref fuel avail w needNotify = .ok out → out.world.refs = w.refs
  | 0, _, _, _, _, h => by simp [sendData] at h
  | fuel + 1, avail, w, needNotify, out, h => by
      unfold sendData at h
      split at h
      · rw [pure_eq_ok] at h
        rw [← h]
      · simp only [bind_eq_ok] at h
        obtain ⟨s, -, data, -, h⟩ := h
        split at h
        · rw [pure_eq_ok] at h
          rw [← h]
        · rw [bind_eq_ok] at h
          obtain ⟨buf, -, h⟩ := h
          split at h
          · rw [pure_eq_ok] at h
            rw [← h, modify_refs, sendPacketHostToGuest_refs]
          · rw [sendData_refs fuel _ _ _ out h, modify_refs, sendPacketHostToGuest_refs]

theorem sendStream_refs {w : World σ P} {ref : Ref} {needNotify : Bool} {out : Swept σ P}
    (h : sendStream api ref w needNotify = .ok out) : out.world.refs = w.refs := by
  simp only [sendStream, bind_eq_ok] at h
  obtain ⟨s, -, h⟩ := h
  split at h
  · rw [pure_eq_ok] at h
    rw [← h, sendStreamOps_refs]
  · rw [sendData_refs _ _ _ _ out h, sendStreamOps_refs]

theorem sendOrphanPackets_refs :
    ∀ (orphans : List VirtioVsockHdr) (w : World σ P) (needNotify : Bool),
      (sendOrphanPackets api orphans w needNotify).world.refs = w.refs
  | [], _, _ => rfl
  | hdr :: rest, w, needNotify => by
      unfold sendOrphanPackets
      dsimp only
      split
      · rfl
      · exact sendOrphanPackets_refs rest _ _

theorem sendStreams_refs :
    ∀ (refs : List Ref) (w : World σ P) (needNotify : Bool) (out : Swept σ P),
      sendStreams api refs w needNotify = .ok out → out.world.refs = w.refs
  | [], w, needNotify, out, h => by
      rw [sendStreams, pure_eq_ok] at h
      rw [← h]
  | ref :: refs, w, needNotify, out, h => by
      rw [sendStreams, bind_eq_ok] at h
      obtain ⟨mid, hmid, h⟩ := h
      split at h
      · rw [pure_eq_ok] at h
        rw [← h, sendStream_refs hmid]
      · rw [sendStreams_refs refs _ _ out h, sendStream_refs hmid]

/-- The streams are the same ones after `sendPacketsLocked`. -/
theorem sendPacketsLocked_refs {w w' : World σ P} {needNotify : Bool}
    (h : sendPacketsLocked api w = .ok (needNotify, w')) : w'.refs = w.refs := by
  unfold sendPacketsLocked at h
  dsimp only at h
  split at h
  · simp only [pure_eq_ok, Prod.mk.injEq] at h
    rw [← h.2, sendOrphanPackets_refs]
  · simp only [bind_eq_ok, pure_eq_ok, Prod.mk.injEq] at h
    obtain ⟨out, hout, -, rfl⟩ := h
    rw [sendStreams_refs _ _ _ out hout, sendOrphanPackets_refs]

section Send

variable (hlaw : api.Lawful)
include hlaw

/-- The loop over the data has fuel enough: a round that is not the last one lowers the
guest's free space or the number of its buffers. -/
theorem sendData_ok : ∀ (fuel : Nat) (w : World σ P) (needNotify : Bool) (s : VsockStream P),
    w.Wf → s ∈ w.mStreams → s.hostToGuestBuf.Ok →
    (api.avail w.vq + s.guestAvailSize < fuel ∨
      (0 < fuel ∧ (s.guestAvailSize = 0 ∨ s.hostToGuestBuf.pending = []))) →
    ∃ out, sendData api s.ref fuel s.guestAvailSize w needNotify = .ok out
  | 0, _, _, _, _, _, _, hfuel => by omega
  | fuel + 1, w, needNotify, s, hw, hs, hok, hfuel => by
      unfold sendData
      by_cases hzero : s.guestAvailSize = 0
      · exact ⟨_, by rw [if_pos hzero, pure_def]⟩
      · rw [if_neg hzero]
        simp only [hw.deref_eq hs, ok_bind, SocketBuffer.peek_eq_ok.mpr ⟨hok, rfl⟩]
        by_cases hempty : s.hostToGuestBuf.pending.length = 0
        · exact ⟨_, by rw [if_pos hempty, pure_def]⟩
        · rw [if_neg hempty]
          have hfuel : api.avail w.vq + s.guestAvailSize < fuel + 1 := by
            rcases hfuel with h | ⟨-, h | h⟩
            · exact h
            · exact absurd h hzero
            · exact absurd (List.length_eq_zero_iff.mpr h) hempty
          -- the length fits the header's field
          have hlen : (UInt32.ofNat (min s.hostToGuestBuf.pending.length s.guestAvailSize)).toNat =
              min s.hostToGuestBuf.pending.length s.guestAvailSize :=
            UInt32.toNat_ofNat_of_lt' (by
              have := guestAvailSize_lt s
              unfold UInt32.size
              omega)
          generalize hhdr : s.preparePacketHeader .rw
            (UInt32.ofNat (min s.hostToGuestBuf.pending.length s.guestAvailSize)) = hdr
          have hhlen : hdr.len.toNat = min s.hostToGuestBuf.pending.length s.guestAvailSize := by
            rw [← hhdr]
            exact hlen
          have hbound : virtIOVSockSentSize (w.sendPacketHostToGuest api (some s.ref) hdr
              s.hostToGuestBuf.pending).1 ≤ hdr.len.toNat :=
            hlaw.bounded w.vq hdr s.hostToGuestBuf.pending
          obtain ⟨buf, hbuf⟩ := SocketBuffer.consume_of_le hok
            (hbound.trans (hhlen.le.trans (Nat.min_le_left _ _)))
          simp only [hbuf, ok_bind]
          cases hfull : virtIOVSockSendIsVqFull (w.sendPacketHostToGuest api (some s.ref) hdr
              s.hostToGuestBuf.pending).1 with
          | true => exact ⟨_, by rw [if_pos rfl, pure_def]⟩
          | false =>
              rw [if_neg Bool.false_ne_true]
              have hle : virtIOVSockSentSize (w.sendPacketHostToGuest api (some s.ref) hdr
                  s.hostToGuestBuf.pending).1 ≤ s.guestAvailSize :=
                hbound.trans (hhlen.le.trans (Nat.min_le_right _ _))
              have hlt := guestAvailSize_lt s
              rw [sizeSub_eq (by omega) hle, ← @guestAvailSize_afterSend P _ buf _ hle]
              refine sendData_ok fuel _ _ { s with
                hostToGuestBuf := buf
                hostSentCnt := s.hostSentCnt + UInt32.ofNat (virtIOVSockSentSize
                  (w.sendPacketHostToGuest api (some s.ref) hdr s.hostToGuestBuf.pending).1) }
                hw.sendPacketHostToGuest.modify (mem_afterSend hs)
                (SocketBuffer.consume_spec hbuf).1 ?_
              have hadv := hlaw.advances w.vq hdr s.hostToGuestBuf.pending (by omega) (by omega) hfull
              have hpend := (SocketBuffer.consume_spec hbuf).2.1
              rw [guestAvailSize_afterSend hle]
              rcases hadv with hall | hdrain
              · -- everything offered was sent: the next round is the last
                refine Or.inr ⟨by omega, ?_⟩
                rw [hpend, List.drop_eq_nil_iff]
                change virtIOVSockSentSize (w.sendPacketHostToGuest api (some s.ref) hdr
                  s.hostToGuestBuf.pending).1 = _ at hall
                omega
              · refine Or.inl ?_
                change api.avail (w.sendPacketHostToGuest api (some s.ref) hdr
                  s.hostToGuestBuf.pending).2.vq < api.avail w.vq + virtIOVSockSentSize
                    (w.sendPacketHostToGuest api (some s.ref) hdr s.hostToGuestBuf.pending).1 at hdrain
                change api.avail (w.sendPacketHostToGuest api (some s.ref) hdr
                  s.hostToGuestBuf.pending).2.vq + _ < fuel
                omega

theorem sendStream_ok {w : World σ P} (hw : w.Sane) (horph : w.mOrphanPackets = []) {ref : Ref}
    (href : ref ∈ w.refs) (needNotify : Bool) :
    ∃ out, sendStream api ref w needNotify = .ok out := by
  obtain ⟨s, hs, rfl⟩ := mem_refs.mp href
  unfold sendStream
  rw [hw.wf.deref_eq hs, ok_bind]
  obtain ⟨hops, -, hleft⟩ :
      HostAtoms api {} w (sendStreamOps api s w needNotify).world ∧ _ :=
    sendStreamOps_atoms hw.wf hs horph needNotify
  cases hfull : (sendStreamOps api s w needNotify).full with
  | true =>
      simp only [hfull, if_true, pure_def]
      exact ⟨_, rfl⟩
  | false =>
      simp only [hfull, Bool.false_eq_true, if_false]
      have hmem := hleft hfull
      exact sendData_ok hlaw _ _ _ { s with sendOpMask := 0 } (hops.wf hw.wf) hmem
        ((hops.sane hw).bufsOk _ hmem) (Or.inl (Nat.lt_succ_self _))

theorem sendStreams_ok : ∀ (refs : List Ref) (w : World σ P) (needNotify : Bool), w.Sane →
    w.mOrphanPackets = [] → (∀ ref ∈ refs, ref ∈ w.refs) →
    ∃ out, sendStreams api refs w needNotify = .ok out
  | [], _, _, _, _, _ => ⟨_, rfl⟩
  | ref :: refs, w, needNotify, hw, horph, hrefs => by
      obtain ⟨mid, hmid⟩ := sendStream_ok hlaw hw horph (hrefs ref List.mem_cons_self) needNotify
      unfold sendStreams
      rw [hmid, ok_bind]
      obtain ⟨hatoms, horph'⟩ : HostAtoms api {} w mid.world ∧ _ :=
        sendStream_atoms hw.wf horph hmid
      split
      · exact ⟨_, rfl⟩
      · refine sendStreams_ok refs _ _ (hatoms.sane hw) horph' fun r hr => ?_
        rw [sendStream_refs hmid]
        exact hrefs r (List.mem_cons_of_mem _ hr)

/-- `sendPacketsLocked` does not fail. -/
theorem sendPacketsLocked_ok {w : World σ P} (hw : w.Sane) :
    ∃ r, sendPacketsLocked api w = .ok r := by
  unfold sendPacketsLocked
  obtain ⟨horphans, hempty⟩ :
      HostAtoms api {} w (sendOrphanPackets api w.mOrphanPackets w false).world ∧ _ :=
    sendOrphanPackets_atoms w.mOrphanPackets w false rfl
  cases hfull : (sendOrphanPackets api w.mOrphanPackets w false).full with
  | true =>
      simp only [hfull, if_true, pure_def]
      exact ⟨_, rfl⟩
  | false =>
      simp only [hfull, Bool.false_eq_true, if_false]
      obtain ⟨out, hout⟩ := sendStreams_ok hlaw _ _
        (sendOrphanPackets api w.mOrphanPackets w false).needNotify (horphans.sane hw)
        (hempty hfull) (fun _ h => h)
      unfold World.refs at hout
      rw [hout, ok_bind]
      exact ⟨_, rfl⟩

theorem sendPacketsAndNotifyLocked_ok {w : World σ P} (hw : w.Sane) :
    ∃ w', sendPacketsAndNotifyLocked api w = .ok w' := by
  obtain ⟨r, hr⟩ := sendPacketsLocked_ok hlaw hw
  unfold sendPacketsAndNotifyLocked
  rw [hr, ok_bind]
  exact ⟨_, rfl⟩

end Send

/-! ### What can go wrong -/

/-- Why the device can stop in a state, `c` being the callback it is inside of. -/
inductive Stops (mode : Mode) (c : Ctl) (w : World σ P) : Fault → Prop
  /-- `connect` is about to use a port that is taken. -/
  | assertInserted {s : VsockStream P} (hs : s ∈ w.mStreams)
      (hport : s.hostPort = w.mSrcPortAllocator.get.1 + kDynamicPortsStart)
      (hbound : mode.bounded = true → w.dynamicCount < 2 ^ 31 - 1) :
      Stops mode c w .assertInserted
  /-- A port is given back that the allocator never handed out. -/
  | assertId {s : VsockStream P} (hs : s ∈ w.mStreams) (hdyn : s.isDynamic = true)
      (hput : w.mSrcPortAllocator.put s.dynamicId = .error .assertId) : Stops mode c w .assertId
  /-- A stream has no plug, and its listener is not being asked for one. -/
  | nullPlug {s : VsockStream P} (hs : s ∈ w.mStreams) (hplug : s.plug = none)
      (hc : mode.quiet = true → c.newborn = none) : Stops mode c w .nullPlug
  /-- A stream that is gone is used: by a caller from outside, or by the code around a
  callback that destroyed it. -/
  | dangling (h : mode.quiet = true → mode.live = false) : Stops mode c w .dangling

theorem deref_error {w : World σ P} {ref : Ref} {e : Fault} (h : w.deref ref = .error e) :
    e = .dangling ∧ ref ∉ w.refs := by
  unfold World.deref at h
  split at h
  · simp at h
  · next hnone =>
    obtain rfl : Fault.dangling = e := by simpa using h
    refine ⟨rfl, fun hmem => ?_⟩
    obtain ⟨s, hs, href⟩ := mem_refs.mp hmem
    simpa [href] using List.find?_eq_none.mp hnone s hs

theorem put_error {a : UniqueIdAllocator} {id : UInt32} {e : Fault} (h : a.put id = .error e) :
    e = .assertId := by
  unfold UniqueIdAllocator.put at h
  split at h
  · simp at h
  · split at h
    · simp at h
    · simpa [eq_comm] using h

/-- Recycling a stream only fails in the allocator. -/
theorem recycleStreamQuietly_error {w : World σ P} {s : VsockStream P} {op : VirtioVsockOp}
    {e : Fault} (h : recycleStreamQuietly w s op = .error e) :
    e = .assertId ∧ s.isDynamic = true ∧
      w.mSrcPortAllocator.put s.dynamicId = .error .assertId := by
  unfold recycleStreamQuietly at h
  have halloc : (if op ≠ .invalid then w.queueOrphanPacket (s.preparePacketHeader op 0)
      else w).mSrcPortAllocator = w.mSrcPortAllocator := by
    split <;> rfl
  by_cases hdyn : kDynamicPortsStart ≤ s.hostPort
  · simp only [if_pos hdyn, bind_eq_error, pure_ne_error, and_false, exists_false, or_false,
      halloc] at h
    obtain rfl := put_error h
    exact ⟨rfl, by simpa [VsockStream.isDynamic] using hdyn, h⟩
  · simp [if_neg hdyn] at h

section Faults

variable (hlaw : api.Lawful) {c : Ctl} {w : World σ P} {e : Fault} (hw : w.Sane)
include hlaw hw

theorem hostOp_error {op : HostOp P} (hlive : mode.quiet = true → mode.live = true → op.Live w)
    (hconnect : mode.bounded = true → w.dynamicCount < 2 ^ 31 - 1)
    (hc : mode.quiet = true → c.newborn = none) (h : hostOp api w op = .error e) :
    Stops mode c w e := by
  have hsend : ∀ {v : World σ P} {p : Prop}, HostAtoms api {} w v →
      sendPacketsAndNotifyLocked api v = .error e → p := by
    intro v p hv herr
    obtain ⟨w', hw'⟩ := sendPacketsAndNotifyLocked_ok hlaw (hv.sane hw)
    rw [hw'] at herr
    cases herr
  have hgone : ∀ {ref : Ref}, ref ∈ op.ref? → w.deref ref = .error e → Stops mode c w e := by
    intro ref href herr
    obtain ⟨rfl, hmem⟩ := deref_error herr
    refine .dangling fun hq => ?_
    by_contra hl
    exact hmem (mem_refs.mpr (hlive hq (by simpa using hl) ref href))
  cases op with
  | connect guestPort plug =>
      simp only [hostOp, connect, map_eq_error] at h
      split at h
      · next hnone =>
        obtain rfl : Fault.assertInserted = e := by simpa using h
        rw [World.emplace] at hnone
        split at hnone
        · simp at hnone
        · next hnone' =>
          obtain ⟨s, hfind⟩ := Option.ne_none_iff_exists'.mp (StdSet.emplace_eq_none.mp hnone')
          obtain ⟨hs, hkey⟩ := StdSet.mem_of_find? hfind
          exact .assertInserted hs (congrArg VsockStreamKey.hostPort hkey) hconnect
      · next w₁ hemplace =>
        simp only [bind_eq_error, pure_ne_error, and_false, exists_false, or_false] at h
        exact hsend (.single (HostAtom.connected hemplace (by simp))) h
  | listen hostPort => simp [hostOp] at h
  | sendAsync ref data =>
      simp only [hostOp, sendAsyncImpl, bind_eq_error] at h
      rcases h with h | ⟨t, ht, h⟩
      · exact hgone rfl h
      · obtain ⟨hmem, rfl⟩ := World.mem_of_deref ht
        cases hconn : t.isConnected with
        | false => simp [hconn] at h
        | true =>
            simp only [hconn, if_true] at h
            obtain ⟨hsee, hstreams⟩ : HostAtoms api {} _ _ ∧ _ :=
              sniff_toSocket_atoms w t.dataSniffer data
            rw [← hstreams] at hmem
            exact hsend (hsee.tail (.buffered hmem hconn)) h
  | switchPlug ref newPlug =>
      simp only [hostOp, switchPlug, map_eq_error, bind_eq_error, pure_ne_error, and_false,
        exists_false, or_false] at h
      exact hgone rfl h
  | setDataSniffer ref sniffer =>
      simp only [hostOp, setDataSniffer, bind_eq_error, pure_ne_error, and_false, exists_false,
        or_false] at h
      exact hgone rfl h
  | unplug ref =>
      simp only [hostOp, unplugImpl, map_eq_error, bind_eq_error, notNull_eq_ok, pure_ne_error,
        and_false, exists_false, or_false] at h
      rcases h with h | ⟨t, ht, h | ⟨p, hplug, h | ⟨w₁, hrecycle, h⟩⟩⟩
      · exact hgone rfl h
      · obtain ⟨rfl, hnone⟩ := notNull_error h
        exact .nullPlug (World.mem_of_deref ht).1 hnone hc
      · obtain ⟨rfl, hdyn, hput⟩ := recycleStreamQuietly_error h
        exact .assertId (World.mem_of_deref ht).1 hdyn hput
      · obtain ⟨hmem, rfl⟩ := World.mem_of_deref ht
        exact hsend (.single (HostAtom.unplugged hmem hplug hrecycle)) h

end Faults

/-- Some state inside the action explains the fault. -/
def Explains (api : GoldfishVirtIOVSockDevAPI σ) (mode : Mode) (x : Ctl × World σ P) (e : Fault) :
    Prop :=
  ∃ y, Atoms api mode x y ∧ Stops mode y.1 y.2 e

theorem Explains.of_atoms {x y : Ctl × World σ P} {e : Fault} (hxy : Atoms api mode x y)
    (h : Explains api mode y e) : Explains api mode x e := by
  obtain ⟨z, hyz, hz⟩ := h
  exact ⟨z, hxy.trans hyz, hz⟩

/-- The calls of a callback, made while the device is inside of it. -/
theorem hostOps_error (hlaw : api.Lawful) {c : Ctl} (hns : mode.noSwitch = false)
    (hbound : mode.bounded = true → mode.quiet = true) (hc : ∀ s, c ≠ .refused s) :
    ∀ {ops : List (HostOp P)} {w : World σ P} {e : Fault}, w.Sane →
      (mode.quiet = true → ops = []) → hostOps api w ops = .error e →
      Explains api mode (c, w) e
  | [], w, e, _, _, h => by simp [hostOps] at h
  | op :: ops, w, e, hw, hquiet, h => by
      have hloud : mode.quiet = false := by
        cases hq : mode.quiet with
        | false => rfl
        | true => exact absurd (hquiet hq) (List.cons_ne_nil _ _)
      have hunbounded : mode.bounded = true → ∀ {p : Prop}, p := fun hb =>
        absurd (hbound hb) (by simp [hloud])
      simp only [hostOps, List.foldlM_cons, bind_eq_error] at h
      rcases h with h | ⟨w₁, hfirst, h⟩
      · exact ⟨(c, w), .refl, hostOp_error hlaw hw (by simp [hloud]) (fun hb => hunbounded hb)
          (by simp [hloud]) h⟩
      · have hatoms : Atoms api mode (c, w) (c, w₁) := Atoms.ofHost (by simp [hloud]) hc
          (hostOp_atoms hw.wf (fun _ => hns) (fun hb => hunbounded hb)
            (fun hb => hunbounded hb) hfirst)
        exact .of_atoms hatoms (hostOps_error hlaw hns hbound hc (hatoms.sane hw)
          (by simp [hloud]) h)

/-- A quiet callback leaves the device as it was. -/
theorem hostOps_quiet {w w' : World σ P} {ops : List (HostOp P)} (hops : ops = [])
    (h : hostOps api w ops = .ok w') : w' = w := by
  subst hops
  simp only [hostOps, List.foldlM_nil, pure_eq_ok] at h
  exact h.symm

section Guest

variable (hlaw : api.Lawful) (hns : mode.noSwitch = false)
  (hbound : mode.bounded = true → mode.quiet = true) {cb : Callbacks P}
  (hquiet : mode.quiet = true → cb.Quiet) {w : World σ P} (hw : w.Sane) {e : Fault}
include hlaw hns hbound hquiet hw

theorem recycleStreamLocked_error {c : Ctl} {ref : Ref} {op : VirtioVsockOp}
    (hc : c = .idle ∨ c = .refused ref) (hlive : mode.quiet = true → ref ∈ w.refs)
    (h : recycleStreamLocked api cb w ref op = .error e) : Explains api mode (c, w) e := by
  have hnewborn : c.newborn = none := by
    rcases hc with rfl | rfl <;> rfl
  have hgone : ∀ {v : World σ P}, v.deref ref = .error e →
      (mode.quiet = true → ref ∈ v.refs) → ∀ c', Stops mode c' v e := by
    intro v herr hv c'
    obtain ⟨rfl, hmem⟩ := deref_error herr
    exact .dangling fun hq => absurd (hv hq) hmem
  simp only [recycleStreamLocked, bind_eq_error, notNull_eq_ok, pure_ne_error, and_false,
    exists_false, or_false] at h
  rcases h with h | ⟨s, hs, h | ⟨p, hplug, h⟩⟩
  · exact ⟨_, .refl, hgone h hlive c⟩
  · obtain ⟨rfl, hnone⟩ := notNull_error h
    exact ⟨_, .refl, .nullPlug (World.mem_of_deref hs).1 hnone fun _ => hnewborn⟩
  · obtain ⟨hmem, rfl⟩ := World.mem_of_deref hs
    have hstart : Atoms api mode (c, w) (.closing s.ref, w.emit (.onUnplug s.ref p)) :=
      .single (.unplugging hmem hplug hc)
    rcases h with h | ⟨w₁, hops, h⟩
    · exact .of_atoms hstart (hostOps_error hlaw hns hbound (by simp) (hstart.sane hw)
        (fun hq => (hquiet hq).onUnplug) h)
    · have hscript := hstart.trans (hostOps_ctl_atoms (hstart.wf hw.wf) hns
        (fun hq => (hquiet hq).onUnplug) hbound (by simp) hops)
      refine ⟨_, hscript, ?_⟩
      rcases h with h | ⟨t, ht, h⟩
      · refine hgone h (fun hq => ?_) _
        rw [hostOps_quiet (hquiet hq).onUnplug hops]
        exact hlive hq
      · obtain ⟨rfl, hdyn, hput⟩ := recycleStreamQuietly_error h
        exact .assertId (World.mem_of_deref ht).1 hdyn hput

theorem processPacketOpRequestLocked_error {hdr : VirtioVsockHdr}
    (h : processPacketOpRequestLocked api cb w hdr = .error e) :
    Explains api mode (.idle, w) e := by
  unfold processPacketOpRequestLocked at h
  by_cases hlisten : hdr.dstPort ∈ w.mHostPortListeners
  · rw [if_pos hlisten] at h
    split at h
    · next w₁ hemplace =>
      have hstart : Atoms api mode (.idle, w) (.accepting w.nextRef, w₁) :=
        .single (.requested hlisten hemplace)
      simp only [bind_eq_error] at h
      rcases h with h | ⟨w₂, hops, h⟩
      · exact .of_atoms hstart (hostOps_error hlaw hns hbound (by simp) (hstart.sane hw)
          (fun hq => (hquiet hq).listener) h)
      · have hscript := hstart.trans (hostOps_ctl_atoms (hstart.wf hw.wf) hns
          (fun hq => (hquiet hq).listener) hbound (by simp) hops)
        rcases h with h | ⟨s, hs, h⟩
        · obtain ⟨rfl, hmem⟩ := deref_error h
          refine ⟨_, hscript, .dangling fun hq => absurd ?_ hmem⟩
          rw [hostOps_quiet (hquiet hq).listener hops]
          exact mem_refs.mpr ⟨_, (mem_emplace hemplace).mpr (Or.inl rfl), rfl⟩
        · obtain ⟨hmem, href⟩ := World.mem_of_deref hs
          split at h
          · next plug _ =>
            simp only [bind_eq_error, pure_ne_error, and_false, exists_false, or_false] at h
            rw [← href] at h hscript
            have haccept : Atoms api mode (.idle, w) (.idle, w₂.afterAccept s.ref plug hdr) :=
              hscript.tail (.accepted hmem)
            exact .of_atoms haccept (hostOps_error hlaw hns hbound (by simp) (haccept.sane hw)
              (fun hq => (hquiet hq).onConnect) h)
          · simp at h
    · simp at h
  · simp [if_neg hlisten] at h

theorem onPacketReceiveControl_error {hdr : VirtioVsockHdr}
    (honce : mode.onceConnected = true → hdr.op = VirtioVsockOp.response.code →
      ∀ s ∈ w.mStreams, s.key = ⟨hdr.srcPort, hdr.dstPort⟩ → s.isConnected = false)
    (h : onPacketReceiveControl api cb w hdr = .error e) : Explains api mode (.idle, w) e := by
  unfold onPacketReceiveControl at h
  by_cases hreq : hdr.op = VirtioVsockOp.request.code
  · simp only [if_pos hreq, bind_eq_error, pure_ne_error, and_false, exists_false, or_false] at h
    exact processPacketOpRequestLocked_error hlaw hns hbound hquiet hw h
  · rw [if_neg hreq] at h
    split at h
    · next s hfind =>
      obtain ⟨hmem, hkey⟩ := StdSet.mem_of_find? hfind
      have hheader : Atoms api mode (.idle, w) (.idle, updateGuestCounters w s.ref hdr) :=
        .single (.header hmem)
      have hgone : ∀ op, recycleStreamLocked api cb (updateGuestCounters w s.ref hdr) s.ref op
          = .error e → Explains api mode (.idle, w) e := fun op hrec =>
        .of_atoms hheader (recycleStreamLocked_error hlaw hns hbound hquiet (hheader.sane hw)
          (Or.inl rfl)
          (fun _ => mem_refs.mpr ⟨_, (updated_updateGuestCounters hw.wf hmem hdr).mem, rfl⟩) hrec)
      split at h
      · next hop =>
        have hop := VirtioVsockOp.ofCode_eq_some hop
        simp only [bind_eq_error, notNull_eq_ok] at h
        rcases h with h | ⟨p, hplug, h⟩
        · obtain ⟨rfl, hnone⟩ := notNull_error h
          exact ⟨_, .refl, .nullPlug hmem hnone fun _ => rfl⟩
        · have hresp : Atoms api mode (.idle, w)
              (.idle, (updateGuestCounters w s.ref hdr).afterResponse s.ref p) :=
            .single (.responded hmem hplug hop (fun ho => honce ho hop s hmem hkey))
          exact .of_atoms hresp (hostOps_error hlaw hns hbound (by simp) (hresp.sane hw)
            (fun hq => (hquiet hq).onConnect) h)
      · exact hgone _ h
      · exact hgone _ h
      · simp at h
      · simp at h
      · exact hgone _ h
    · simp at h

end Guest

/-- A piece that was taken leaves the stream in place, and so does a quiet plug. -/
theorem onPacketReceiveRw_refs {answer : List (HostOp P) × Bool} {ref : Ref} {data : List UInt8}
    {w w' : World σ P} {eraseStream : Bool}
    (h : onPacketReceiveRw api answer w ref data = .ok (eraseStream, w')) :
    eraseStream = false ∨ answer.1 = [] → ref ∈ w'.refs := by
  simp only [onPacketReceiveRw, bind_eq_ok] at h
  obtain ⟨s, hs, h⟩ := h
  obtain ⟨hmem, rfl⟩ := World.mem_of_deref hs
  have hlive : s.ref ∈ w.refs := mem_refs.mpr ⟨s, hmem, rfl⟩
  cases hconn : s.isConnected with
  | false =>
      simp only [hconn, Bool.false_eq_true, if_false, pure_eq_ok, Prod.mk.injEq] at h
      exact fun _ => h.2 ▸ hlive
  | true =>
      simp only [hconn, if_true, bind_eq_ok, notNull_eq_ok] at h
      obtain ⟨p, hplug, w₂, hops, h⟩ := h
      cases hanswer : answer.2 with
      | true =>
          simp only [hanswer, if_true, bind_eq_ok, pure_eq_ok, Prod.mk.injEq] at h
          obtain ⟨t, ht, -, rfl⟩ := h
          obtain ⟨hmem₂, href⟩ := World.mem_of_deref ht
          intro _
          simp only [World.sendOp, emit_refs, modify_refs]
          exact mem_refs.mpr ⟨t, hmem₂, href⟩
      | false =>
          simp only [hanswer, Bool.false_eq_true, if_false, pure_eq_ok, Prod.mk.injEq] at h
          obtain ⟨rfl, rfl⟩ := h
          intro hquiet
          have hnil : answer.1 = [] := by simpa using hquiet
          have := hostOps_quiet hnil hops
          subst this
          cases s.dataSniffer <;> exact hlive

theorem receivePieces_refs {cb : Callbacks P} {ref : Ref} :
    ∀ (pieces : List (List UInt8)) (i : Nat) (w w' : World σ P) (eraseStream : Bool),
      ref ∈ w.refs → receivePieces api cb ref i pieces w = .ok (eraseStream, w') →
      eraseStream = false ∨ (∀ i, (cb.onReceive i).1 = []) → ref ∈ w'.refs
  | [], i, w, w', eraseStream, hlive, h, _ => by
      simp only [receivePieces, pure_eq_ok, Prod.mk.injEq] at h
      exact h.2 ▸ hlive
  | data :: rest, i, w, w', eraseStream, hlive, h, hstays => by
      simp only [receivePieces, bind_eq_ok] at h
      obtain ⟨⟨refused, w₁⟩, hfirst, h⟩ := h
      cases refused with
      | true =>
          simp only [if_true, pure_eq_ok, Prod.mk.injEq] at h
          obtain ⟨rfl, rfl⟩ := h
          exact onPacketReceiveRw_refs hfirst (hstays.imp_right fun hq => hq i)
      | false =>
          simp only [Bool.false_eq_true, if_false] at h
          exact receivePieces_refs rest (i + 1) w₁ w' eraseStream
            (onPacketReceiveRw_refs hfirst (Or.inl rfl)) h hstays

section GuestRw

variable (hlaw : api.Lawful) (hns : mode.noSwitch = false)
  (hbound : mode.bounded = true → mode.quiet = true)
include hlaw hns hbound

theorem onPacketReceiveRw_error {answer : List (HostOp P) × Bool} {ref : Ref} {data : List UInt8}
    {w : World σ P} {e : Fault} (hw : w.Sane) (hquiet : mode.quiet = true → answer.1 = [])
    (hlive : ref ∈ w.refs) (h : onPacketReceiveRw api answer w ref data = .error e) :
    Explains api mode (.idle, w) e := by
  obtain ⟨s, hmem, rfl⟩ := mem_refs.mp hlive
  simp only [onPacketReceiveRw, hw.wf.deref_eq hmem, ok_bind] at h
  cases hconn : s.isConnected with
  | false => simp [hconn] at h
  | true =>
      simp only [hconn, if_true, bind_eq_error, notNull_eq_ok] at h
      rcases h with h | ⟨p, hplug, h⟩
      · obtain ⟨rfl, hnone⟩ := notNull_error h
        exact ⟨_, .refl, .nullPlug hmem hnone fun _ => rfl⟩
      · obtain ⟨hsniff, hstreams⟩ : Atoms api mode _ _ ∧ _ :=
          sniff_toPlug_atoms w s.dataSniffer data
        generalize w.sniff s.dataSniffer (.toPlug · data) = w₁ at h hsniff hstreams
        have hmem₁ : s ∈ w₁.mStreams := hstreams ▸ hmem
        have hhand : Atoms api mode (.idle, w) (.idle, w₁.emit (.onReceive s.ref p data)) :=
          hsniff.tail (.handed hmem₁ hconn hplug)
        rcases h with h | ⟨w₂, hops, h⟩
        · exact .of_atoms hhand (hostOps_error hlaw hns hbound (by simp) (hhand.sane hw) hquiet h)
        · have hscript := hhand.trans
            (hostOps_ctl_atoms (hhand.wf hw.wf) hns hquiet hbound (by simp) hops)
          cases hanswer : answer.2 with
          | false => simp [hanswer] at h
          | true =>
              simp only [hanswer, if_true, bind_eq_error, pure_ne_error, and_false, exists_false,
                or_false] at h
              obtain ⟨rfl, hgone⟩ := deref_error h
              refine ⟨_, hscript, .dangling fun hq => absurd ?_ hgone⟩
              rw [hostOps_quiet (hquiet hq) hops]
              exact mem_refs.mpr ⟨s, hmem₁, rfl⟩

variable {cb : Callbacks P} (hquiet : mode.quiet = true → cb.Quiet)
  (hkeeps : mode.keepsPlug = true → cb.KeepsPlug)
include hquiet hkeeps

theorem receivePieces_error {ref : Ref} {e : Fault} :
    ∀ (pieces : List (List UInt8)) (i : Nat) (w : World σ P), w.Sane → ref ∈ w.refs →
      receivePieces api cb ref i pieces w = .error e → Explains api mode (.idle, w) e
  | [], i, w, _, _, h => by simp [receivePieces] at h
  | data :: rest, i, w, hw, hlive, h => by
      simp only [receivePieces, bind_eq_error] at h
      rcases h with h | ⟨⟨refused, w₁⟩, hfirst, h⟩
      · exact onPacketReceiveRw_error hlaw hns hbound hw (fun hq => (hquiet hq).onReceive i) hlive h
      · cases refused with
        | true => simp at h
        | false =>
            simp only [Bool.false_eq_true, if_false] at h
            have hpiece := (onPacketReceiveRw_atoms hw.wf hns (fun hq => (hquiet hq).onReceive i)
              hbound (fun hk => hkeeps hk i) hfirst).1 rfl
            exact .of_atoms hpiece (receivePieces_error rest (i + 1) w₁ (hpiece.sane hw)
              (onPacketReceiveRw_refs hfirst (Or.inl rfl)) h)

theorem onPacketReceiveRwPacket_error {w : World σ P} (hw : w.Sane) {hdr : VirtioVsockHdr}
    {pieces : List (List UInt8)} {e : Fault}
    (h : onPacketReceiveRwPacket api cb w hdr pieces = .error e) :
    Explains api mode (.idle, w) e := by
  unfold onPacketReceiveRwPacket onPacketReceiveRwStart at h
  cases hfind : w.mStreams.find? ⟨hdr.srcPort, hdr.dstPort⟩ with
  | none => simp [hfind] at h
  | some s =>
      simp only [hfind, bind_eq_error] at h
      have hmem := (StdSet.mem_of_find? hfind).1
      have hheader : Atoms api mode (.idle, w) (.idle, updateGuestCounters w s.ref hdr) :=
        .single (.header hmem)
      have hlive : s.ref ∈ (updateGuestCounters w s.ref hdr).refs :=
        mem_refs.mpr ⟨_, (updated_updateGuestCounters hw.wf hmem hdr).mem, rfl⟩
      rcases h with h | ⟨⟨eraseStream, w₁⟩, hpieces, h⟩
      · exact .of_atoms hheader (receivePieces_error hlaw hns hbound hquiet hkeeps pieces 0 _
          (hheader.sane hw) hlive h)
      · cases eraseStream with
        | false => simp [onPacketReceiveRwEnd] at h
        | true =>
            simp only [onPacketReceiveRwEnd, if_true] at h
            by_cases hthere : s.ref ∈ w₁.refs
            · obtain ⟨c, hc, hpart⟩ := (receivePieces_atoms hns hquiet hbound hkeeps pieces 0 _ w₁
                true (hheader.wf hw.wf) hpieces).2 rfl (mem_refs.mp hthere)
              have hupto : Atoms api mode (.idle, w) (c, w₁) := hheader.trans hpart
              exact .of_atoms hupto (recycleStreamLocked_error hlaw hns hbound hquiet
                (hupto.sane hw) hc (fun _ => hthere) h)
            · -- the plug took its own stream down
              have hloud : mode.quiet = true → mode.live = false := fun hq =>
                absurd (receivePieces_refs pieces 0 _ w₁ true hlive hpieces
                  (Or.inr (hquiet hq).onReceive)) hthere
              simp only [recycleStreamLocked, bind_eq_error] at h
              rcases h with h | ⟨t, ht, -⟩
              · obtain ⟨rfl, -⟩ := deref_error h
                exact ⟨_, .refl, .dangling hloud⟩
              · exact absurd (mem_refs.mpr ⟨t, World.mem_of_deref ht⟩) hthere

end GuestRw

/-- Every fault of an action is explained by a state inside of it. -/
theorem step_error (hlaw : api.Lawful) {w : World σ P} (hw : w.Sane) {a : Action σ P}
    (hallows : mode.Allows w a) (hstatus : ∀ status, a ≠ .setStatus status) {e : Fault}
    (h : step api w a = .error e) : Explains api mode (.idle, w) e := by
  have hbound := fun hb => (hallows.bounded hb).1
  cases a with
  | host op =>
      exact ⟨_, .refl, hostOp_error hlaw hw (fun _ hl => hallows.live hl op rfl)
        (fun hb => (hallows.bounded hb).2.1) (fun _ => rfl) h⟩
  | control hdr cb =>
      exact onPacketReceiveControl_error hlaw hallows.noSwitch hbound
        (fun hq => hallows.quiet hq cb rfl) hw (fun ho => hallows.onceConnected ho hdr cb rfl) h
  | rw hdr pieces cb =>
      exact onPacketReceiveRwPacket_error hlaw hallows.noSwitch hbound
        (fun hq => hallows.quiet hq cb rfl) (fun hk => hallows.keepsPlug hk cb rfl) hw h
  | sendPackets =>
      obtain ⟨w', hw'⟩ := sendPacketsAndNotifyLocked_ok hlaw hw
      simp only [step] at h
      rw [hw'] at h
      cases h
  | guestRx vq => simp [step] at h
  | setStatus status => exact absurd rfl (hstatus status)

/-! ### Unrestricted runs -/

/-- Every action keeps a state sane, a reset included. -/
theorem step_sane {w w' : World σ P} {a : Action σ P} (hw : w.Sane)
    (h : step api w a = .ok w') : w'.Sane := by
  by_cases hstatus : ∃ status, a = .setStatus status
  · obtain ⟨status, rfl⟩ := hstatus
    rcases setStatus_cases h with ⟨-, rfl⟩ | ⟨-, rfl, -⟩
    · exact hw
    · exact ⟨hw.wf.congr rfl rfl, hw.bufsOk⟩
  · exact (step_atoms hw.wf (Mode.allows_default w a)
      (fun status hs => hstatus ⟨status, hs⟩) h).sane hw

/-- Neither the buffers nor the send loop ever stop the device. -/
theorem step_error_ne (hlaw : api.Lawful) {w : World σ P} (hw : w.Sane) {a : Action σ P}
    {e : Fault} (h : step api w a = .error e) : e ≠ .assertConsumed ∧ e ≠ .spin := by
  by_cases hstatus : ∃ status, a = .setStatus status
  · obtain ⟨status, rfl⟩ := hstatus
    rcases setStatus_error h with rfl | rfl <;> simp
  · obtain ⟨y, -, hstops⟩ := step_error hlaw hw (Mode.allows_default w a)
      (fun status hs => hstatus ⟨status, hs⟩) h
    cases hstops <;> simp

theorem realized_sane {listeners : Finset UInt32} {vq : σ} {nextRef : Ref}
    {log : List (Event σ P)} : (World.realized listeners vq nextRef log).Sane where
  wf := ⟨fun s hs => absurd hs (StdSet.not_mem_empty s),
    fun s hs => absurd hs (StdSet.not_mem_empty s)⟩
  bufsOk s hs := absurd hs (StdSet.not_mem_empty s)

/-- A run that stops does so for one of the other reasons. -/
theorem run_error_ne (hlaw : api.Lawful) : ∀ {acts : List (Action σ P)} {w : World σ P}
    {e : Fault}, w.Sane → run api w acts = .error e → e ≠ .assertConsumed ∧ e ≠ .spin
  | [], w, e, _, h => by simp [run] at h
  | a :: acts, w, e, hw, h => by
      simp only [run, List.foldlM_cons, bind_eq_error] at h
      rcases h with h | ⟨w₁, hstep, h⟩
      · exact step_error_ne hlaw hw h
      · exact run_error_ne hlaw (step_sane hw hstep) h

end Goldfish.Vsock
