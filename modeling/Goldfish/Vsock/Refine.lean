import Goldfish.Vsock.RefineSend

/-!
# Goldfish.Vsock.Refine

**The device refines the abstract device**: every action other than a change of the
device status is a sequence of the effects of `Goldfish.Vsock.Atom`
(`step_atoms`), under each discipline the action keeps to (`Mode.Allows`).

Callbacks that call back into the device are covered: their calls are host effects
made while the abstract device is inside the callback. Only runs that do not fault
are related; a callback that destroys the stream it is called for is a fault of the
code that goes on with it.
-/

namespace Goldfish.Vsock

open Goldfish.Lib

variable {σ P : Type} {api : GoldfishVirtIOVSockDevAPI σ} {mode : Mode}

/-! ### Disciplines of an action -/

/-- Is the call a `switchPlug`? -/
def HostOp.isSwitch : HostOp P → Bool
  | .switchPlug _ _ => true
  | _ => false

/-- The address a call is made on. -/
def HostOp.ref? : HostOp P → Option Ref
  | .sendAsync s _ => some s
  | .switchPlug s _ => some s
  | .setDataSniffer s _ => some s
  | .unplug s => some s
  | _ => none

/-- The call is made on the address of a live stream, if it is made on one. -/
def HostOp.Live (op : HostOp P) (w : World σ P) : Prop :=
  ∀ ref ∈ op.ref?, ∃ s ∈ w.mStreams, s.ref = ref

/-- No callback makes a call on the device. -/
structure Callbacks.Quiet (cb : Callbacks P) : Prop where
  listener : cb.listener.1 = []
  onConnect : cb.onConnect = []
  onReceive : ∀ i, (cb.onReceive i).1 = []
  onUnplug : cb.onUnplug = []

theorem Callbacks.quiet_default : ({} : Callbacks P).Quiet := ⟨rfl, rfl, fun _ => rfl, rfl⟩

/-- No `onReceive` switches a plug. -/
def Callbacks.KeepsPlug (cb : Callbacks P) : Prop :=
  ∀ i, ∀ op ∈ (cb.onReceive i).1, op.isSwitch = false

/-- The callbacks an action comes with. -/
def Action.callbacks : Action σ P → Option (Callbacks P)
  | .control _ cb => some cb
  | .rw _ _ cb => some cb
  | _ => none

/-- The action keeps to the disciplines of the mode. -/
structure Mode.Allows (mode : Mode) (w : World σ P) (a : Action σ P) : Prop where
  noSwitch : mode.noSwitch = false
  quiet : mode.quiet = true → ∀ cb ∈ a.callbacks, cb.Quiet
  live : mode.live = true → ∀ op, a = .host op → op.Live w
  keepsPlug : mode.keepsPlug = true → ∀ cb ∈ a.callbacks, cb.KeepsPlug
  onceConnected : mode.onceConnected = true → ∀ hdr cb, a = .control hdr cb →
    hdr.op = VirtioVsockOp.response.code →
    ∀ s ∈ w.mStreams, s.key = ⟨hdr.srcPort, hdr.dstPort⟩ → s.isConnected = false
  bounded : mode.bounded = true → mode.quiet = true ∧ w.dynamicCount < 2 ^ 31 - 1 ∧
    ∀ port, a = .host (.listen port) → port < kDynamicPortsStart

/-- Without disciplines everything is allowed. -/
theorem Mode.allows_default (w : World σ P) (a : Action σ P) : Mode.Allows {} w a where
  noSwitch := rfl
  quiet h := by simp at h
  live h := by simp at h
  keepsPlug h := by simp at h
  onceConnected h := by simp at h
  bounded h := by simp at h

/-! ### Calls from the host side -/

theorem sniff_toSocket_atoms (w : World σ P) (sniffer : Option Nat) (data : List UInt8) :
    HostAtoms api mode w (w.sniff sniffer (.toSocket · data)) ∧
      (w.sniff sniffer (.toSocket · data)).mStreams = w.mStreams := by
  cases sniffer with
  | none => exact ⟨.refl, rfl⟩
  | some i => exact ⟨.single .sniffed, rfl⟩

theorem sniff_toPlug_atoms (w : World σ P) (sniffer : Option Nat) (data : List UInt8) :
    Atoms api mode (.idle, w) (.idle, w.sniff sniffer (.toPlug · data)) ∧
      (w.sniff sniffer (.toPlug · data)).mStreams = w.mStreams := by
  cases sniffer with
  | none => exact ⟨.refl, rfl⟩
  | some i => exact ⟨.single .sniffed, rfl⟩

theorem hostOp_atoms {w w' : World σ P} {op : HostOp P} (hw : w.Wf)
    (hswitch : op.isSwitch = true → mode.noSwitch = false)
    (hconnect : mode.bounded = true → w.dynamicCount < 2 ^ 31 - 1)
    (hlisten : mode.bounded = true → ∀ port, op = .listen port → port < kDynamicPortsStart)
    (h : hostOp api w op = .ok w') : HostAtoms api mode w w' := by
  cases op with
  | connect guestPort plug =>
      simp only [hostOp, connect, map_eq_ok] at h
      split at h
      · simp at h
      · next w₁ hemplace =>
        have hatom : HostAtom api mode w (w₁.afterConnect w.nextRef plug) :=
          .connected hemplace hconnect
        simp only [bind_eq_ok, pure_eq_ok] at h
        obtain ⟨-, ⟨w₂, hsend, rfl⟩, rfl⟩ := h
        exact .head hatom (sendPacketsAndNotifyLocked_atoms (hatom.wf hw) hsend)
  | listen hostPort =>
      obtain rfl : (listen w hostPort).2 = w' := by simpa [hostOp] using h
      exact .single (.listened fun hb => hlisten hb hostPort rfl)
  | sendAsync s data =>
      simp only [hostOp, sendAsyncImpl, bind_eq_ok] at h
      obtain ⟨t, ht, h⟩ := h
      obtain ⟨hmem, rfl⟩ := World.mem_of_deref ht
      cases hconn : t.isConnected with
      | false =>
          simp only [hconn, Bool.false_eq_true, if_false, pure_eq_ok] at h
          exact h ▸ .refl
      | true =>
          simp only [hconn, if_true] at h
          obtain ⟨hsee, hstreams⟩ : HostAtoms api mode _ _ ∧ _ :=
            sniff_toSocket_atoms w t.dataSniffer data
          generalize w.sniff t.dataSniffer (.toSocket · data) = w₁ at h hsee hstreams
          rw [← hstreams] at hmem
          have hupto : HostAtoms api mode w (w₁.afterSendAsync t.ref data) :=
            hsee.tail (.buffered hmem hconn)
          exact hupto.trans (sendPacketsAndNotifyLocked_atoms (hupto.wf hw) h)
  | switchPlug s newPlug =>
      simp only [hostOp, switchPlug, map_eq_ok, bind_eq_ok, pure_eq_ok] at h
      obtain ⟨-, ⟨t, ht, rfl⟩, rfl⟩ := h
      obtain ⟨hmem, rfl⟩ := World.mem_of_deref ht
      exact .single (.plugSwitched hmem (hswitch rfl))
  | setDataSniffer s sniffer =>
      simp only [hostOp, setDataSniffer, bind_eq_ok, pure_eq_ok] at h
      obtain ⟨t, ht, rfl⟩ := h
      obtain ⟨hmem, rfl⟩ := World.mem_of_deref ht
      exact .single (.snifferSet hmem)
  | unplug s =>
      simp only [hostOp, unplugImpl, map_eq_ok, bind_eq_ok, pure_eq_ok, notNull_eq_ok] at h
      obtain ⟨-, ⟨t, ht, p, hplug, w₁, hrecycle, w₂, hsend, rfl⟩, rfl⟩ := h
      obtain ⟨hmem, rfl⟩ := World.mem_of_deref ht
      have hatom : HostAtom api mode w (w₁.erase t) := .unplugged hmem hplug hrecycle
      exact .head hatom (sendPacketsAndNotifyLocked_atoms (hatom.wf hw) hsend)

/-- The calls of a callback. Under the bounded discipline a callback makes none. -/
theorem hostOps_atoms :
    ∀ {ops : List (HostOp P)} {w w' : World σ P}, w.Wf →
      (∀ op ∈ ops, op.isSwitch = true → mode.noSwitch = false) →
      (mode.bounded = true → ops = []) → hostOps api w ops = .ok w' → HostAtoms api mode w w'
  | [], w, w', _, _, _, h => by
      simp only [hostOps, List.foldlM_nil, pure_eq_ok] at h
      exact h ▸ .refl
  | op :: ops, w, w', hw, hswitch, hbound, h => by
      simp only [hostOps, List.foldlM_cons, bind_eq_ok] at h
      obtain ⟨w₁, hop, hrest⟩ := h
      have hunbounded : ∀ {p : Prop}, mode.bounded = true → p :=
        fun hb => absurd (hbound hb) (List.cons_ne_nil _ _)
      have hatoms := hostOp_atoms hw (hswitch op List.mem_cons_self) (fun hb => hunbounded hb)
        (fun hb => hunbounded hb) hop
      exact hatoms.trans (hostOps_atoms (hatoms.wf hw)
        (fun op' hop' => hswitch op' (List.mem_cons_of_mem _ hop')) (fun hb => hunbounded hb) hrest)

/-- The calls of a callback, made while the device is inside of it. -/
theorem hostOps_ctl_atoms {c : Ctl} {ops : List (HostOp P)} {w w' : World σ P} (hw : w.Wf)
    (hns : mode.noSwitch = false) (hquiet : mode.quiet = true → ops = [])
    (hbound : mode.bounded = true → mode.quiet = true) (hc : ∀ s, c ≠ .refused s)
    (h : hostOps api w ops = .ok w') : Atoms api mode (c, w) (c, w') := by
  cases hq : mode.quiet with
  | true =>
      obtain rfl := hquiet hq
      simp only [hostOps, List.foldlM_nil, pure_eq_ok] at h
      exact h ▸ .refl
  | false =>
      refine Atoms.ofHost (by simp [hq]) hc (hostOps_atoms hw (fun _ _ _ => hns) ?_ h)
      intro hb
      exact hquiet (hbound hb)

/-! ### A callback that does not switch plugs -/

theorem HostAtom.nextRef_le {w w' : World σ P} (h : HostAtom api mode w w') :
    w.nextRef ≤ w'.nextRef := by
  cases h with
  | connected hemplace _ => exact (emplace_nextRef hemplace).symm ▸ Nat.le_succ _
  | unplugged _ _ hrecycle => exact (recycleStreamQuietly_mStreams hrecycle).2.ge
  | _ => exact Nat.le_refl _

/-- An update that keeps the plug of the stream. -/
theorem World.Updated.plug_eq {w w' : World σ P} {s s' : VsockStream P} (h : w.Updated w' s s')
    (hs : s ∈ w.mStreams) (href : s'.ref = s.ref) (hplug : s'.plug = s.plug) {t : VsockStream P}
    (ht : t ∈ w'.mStreams) : ∃ s ∈ w.mStreams, s.ref = t.ref ∧ s.plug = t.plug := by
  rcases (h t).mp ht with rfl | ⟨hmem, -⟩
  · exact ⟨s, hs, href.symm, hplug.symm⟩
  · exact ⟨t, hmem, rfl, rfl⟩

/-- Where no plug is switched, a stream that was there before keeps its plug. -/
theorem HostAtom.plug_eq {w w' : World σ P} (h : HostAtom api mode w w') (hw : w.Wf)
    (hns : mode.noSwitch = true) {t : VsockStream P} (ht : t ∈ w'.mStreams)
    (hold : t.ref < w.nextRef) : ∃ s ∈ w.mStreams, s.ref = t.ref ∧ s.plug = t.plug := by
  cases h with
  | needCredit hs _ => exact (updated_sendOp hw hs _).plug_eq hs rfl rfl ht
  | opSent hs _ _ _ =>
      exact (updated_clearOp hw.sendPacketHostToGuest hs _).plug_eq hs rfl rfl ht
  | maskCleared hs _ => exact (updated_setMask hw hs 0).plug_eq hs rfl rfl ht
  | dataSent hs _ _ _ _ _ _ _ _ =>
      exact (updated_afterSend hw.sendPacketHostToGuest hs _ _).plug_eq hs rfl rfl ht
  | buffered hs _ => exact (updated_afterSendAsync hw hs _).plug_eq hs rfl rfl ht
  | @snifferSet _ sniffer hs => exact (updated_setDataSniffer hw hs sniffer).plug_eq hs rfl rfl ht
  | plugSwitched _ hswitch => simp [hns] at hswitch
  | @connected w₁ _ plug hemplace _ =>
      -- the new stream is the only one whose plug changes
      have hw₁ : w₁.Wf := by
        refine World.Wf.emplace ?_ hemplace
        exact hw.congr rfl rfl
      have hnew := (mem_emplace hemplace).mpr (Or.inl rfl)
      rcases (updated_afterConnect hw₁ hnew plug t).mp ht with rfl | ⟨ht, hne⟩
      · exact absurd hold (Nat.lt_irrefl _)
      · rcases (mem_emplace hemplace).mp ht with rfl | hmem
        · exact absurd rfl hne
        · exact ⟨t, hmem, rfl, rfl⟩
  | unplugged _ _ hrecycle =>
      have hmem := (StdSet.mem_erase.mp ht).1
      rw [(recycleStreamQuietly_mStreams hrecycle).1] at hmem
      exact ⟨t, hmem, rfl, rfl⟩
  | _ => exact ⟨t, ht, rfl, rfl⟩

theorem HostAtoms.plug_eq {w w' : World σ P} (h : HostAtoms api mode w w') (hw : w.Wf)
    (hns : mode.noSwitch = true) {t : VsockStream P} (ht : t ∈ w'.mStreams)
    (hold : t.ref < w.nextRef) : ∃ s ∈ w.mStreams, s.ref = t.ref ∧ s.plug = t.plug := by
  induction h generalizing t with
  | refl => exact ⟨t, ht, rfl, rfl⟩
  | tail hpre hlast ih =>
      have hle := star_invariant (I := fun v : World σ P => w.nextRef ≤ v.nextRef)
        (fun _ _ h hle => hle.trans h.nextRef_le) hpre (Nat.le_refl _)
      obtain ⟨s, hs, href, hplug⟩ := hlast.plug_eq (HostAtoms.wf hpre hw) hns ht
        (hold.trans_le hle)
      obtain ⟨s', hs', href', hplug'⟩ := ih hs (href ▸ hold)
      exact ⟨s', hs', href'.trans href, hplug'.trans hplug⟩

/-! ### Packets from the guest -/

section Guest

variable {cb : Callbacks P} {w w' : World σ P}

theorem recycleStreamLocked_atoms {c : Ctl} {ref : Ref} {op : VirtioVsockOp} (hw : w.Wf)
    (hns : mode.noSwitch = false) (hquiet : mode.quiet = true → cb.Quiet)
    (hbound : mode.bounded = true → mode.quiet = true) (hc : c = .idle ∨ c = .refused ref)
    (h : recycleStreamLocked api cb w ref op = .ok w') :
    Atoms api mode (c, w) (.idle, w') := by
  simp only [recycleStreamLocked, bind_eq_ok, notNull_eq_ok, pure_eq_ok] at h
  obtain ⟨s, hs, p, hplug, w₁, hops, t, ht, w₂, hrecycle, rfl⟩ := h
  obtain ⟨hmem, rfl⟩ := World.mem_of_deref hs
  have hstart : Atom api mode (c, w) (.closing s.ref, w.emit (.onUnplug s.ref p)) :=
    .unplugging hmem hplug hc
  have hscript : Atoms api mode (.closing s.ref, w.emit (.onUnplug s.ref p)) (.closing s.ref, w₁) :=
    hostOps_ctl_atoms (hstart.wf hw) hns (fun hq => (hquiet hq).onUnplug) hbound (by simp) hops
  obtain ⟨hmem', href⟩ := World.mem_of_deref ht
  have hend : Atom api mode (.closing t.ref, w₁) (.idle, w₂.erase t) := .recycled hmem' hrecycle
  rw [href] at hend
  exact .head hstart (hscript.tail hend)

theorem processPacketOpRequestLocked_atoms {hdr : VirtioVsockHdr} {done : Bool} (hw : w.Wf)
    (hns : mode.noSwitch = false) (hquiet : mode.quiet = true → cb.Quiet)
    (hbound : mode.bounded = true → mode.quiet = true)
    (h : processPacketOpRequestLocked api cb w hdr = .ok (done, w')) :
    Atoms api mode (.idle, w) (.idle, w') := by
  unfold processPacketOpRequestLocked at h
  by_cases hlisten : hdr.dstPort ∈ w.mHostPortListeners
  · rw [if_pos hlisten] at h
    split at h
    · next w₁ hemplace =>
      have hstart : Atom api mode (.idle, w) (.accepting w.nextRef, w₁) :=
        .requested hlisten hemplace
      simp only [bind_eq_ok] at h
      obtain ⟨w₂, hops, s, hs, h⟩ := h
      obtain ⟨hmem, href⟩ := World.mem_of_deref hs
      have hscript : Atoms api mode (.accepting w.nextRef, w₁) (.accepting w.nextRef, w₂) :=
        hostOps_ctl_atoms (hstart.wf hw) hns (fun hq => (hquiet hq).listener) hbound (by simp) hops
      rw [← href] at h hscript hstart
      split at h
      · next plug _ =>
        simp only [bind_eq_ok, pure_eq_ok, Prod.mk.injEq] at h
        obtain ⟨w₃, hconnect, -, rfl⟩ := h
        have haccept : Atom api mode (.accepting s.ref, w₂) (.idle, w₂.afterAccept s.ref plug hdr) :=
          .accepted hmem
        have hwf := haccept.wf (hscript.wf (hstart.wf hw))
        have hend : Atoms api mode (.idle, w₂.afterAccept s.ref plug hdr) (.idle, w₃) :=
          hostOps_ctl_atoms hwf hns (fun hq => (hquiet hq).onConnect) hbound (by simp) hconnect
        exact (Relation.ReflTransGen.head hstart (hscript.tail haccept)).trans hend
      · simp only [pure_eq_ok, Prod.mk.injEq] at h
        obtain ⟨-, rfl⟩ := h
        exact .head hstart (hscript.tail (.declined hmem))
    · simp only [pure_eq_ok, Prod.mk.injEq] at h
      exact h.2 ▸ .refl
  · rw [if_neg hlisten] at h
    simp only [pure_eq_ok, Prod.mk.injEq] at h
    exact h.2 ▸ .refl

theorem onPacketReceiveControl_atoms {hdr : VirtioVsockHdr} (hw : w.Wf)
    (hns : mode.noSwitch = false) (hquiet : mode.quiet = true → cb.Quiet)
    (hbound : mode.bounded = true → mode.quiet = true)
    (honce : mode.onceConnected = true → hdr.op = VirtioVsockOp.response.code →
      ∀ s ∈ w.mStreams, s.key = ⟨hdr.srcPort, hdr.dstPort⟩ → s.isConnected = false)
    (h : onPacketReceiveControl api cb w hdr = .ok w') :
    Atoms api mode (.idle, w) (.idle, w') := by
  unfold onPacketReceiveControl at h
  by_cases hreq : hdr.op = VirtioVsockOp.request.code
  · rw [if_pos hreq] at h
    simp only [bind_eq_ok, pure_eq_ok] at h
    obtain ⟨⟨done, w₁⟩, hproc, rfl⟩ := h
    have hatoms : Atoms api mode (.idle, w) (.idle, w₁) :=
      processPacketOpRequestLocked_atoms hw hns hquiet hbound hproc
    cases done with
    | true => exact hatoms
    | false => exact hatoms.tail .resetQueued
  · rw [if_neg hreq] at h
    split at h
    · next s hfind =>
      obtain ⟨hmem, hkey⟩ := StdSet.mem_of_find? hfind
      have hheader : Atom api mode (.idle, w) (.idle, updateGuestCounters w s.ref hdr) :=
        .header hmem
      have hwf := hheader.wf hw
      have hgone : ∀ op, recycleStreamLocked api cb (updateGuestCounters w s.ref hdr) s.ref op
          = .ok w' → Atoms api mode (.idle, w) (.idle, w') := fun op hrec =>
        .head hheader (recycleStreamLocked_atoms hwf hns hquiet hbound (Or.inl rfl) hrec)
      split at h
      · next hop =>
        simp only [bind_eq_ok, notNull_eq_ok] at h
        obtain ⟨p, hplug, h⟩ := h
        have hop := VirtioVsockOp.ofCode_eq_some hop
        have hresp : Atom api mode (.idle, w)
            (.idle, (updateGuestCounters w s.ref hdr).afterResponse s.ref p) :=
          .responded hmem hplug hop (fun ho => honce ho hop s hmem hkey)
        exact .head hresp (hostOps_ctl_atoms (hresp.wf hw) hns (fun hq => (hquiet hq).onConnect)
          hbound (by simp) h)
      · exact hgone _ h
      · exact hgone _ h
      · obtain rfl : updateGuestCounters w s.ref hdr = w' := by simpa using h
        exact .single hheader
      · obtain rfl : (updateGuestCounters w s.ref hdr).sendOp s.ref .creditUpdate = w' := by
          simpa using h
        refine .head hheader (.single (Atom.creditAsked (s := { s with
          guestBufAlloc := hdr.bufAlloc, guestFwdCnt := hdr.fwdCnt }) ?_))
        exact (updated_updateGuestCounters hw hmem hdr).mem
      · exact hgone _ h
    · obtain rfl : (if hdr.op ≠ VirtioVsockOp.rst.code then queueReset w hdr else w) = w' := by
        simpa using h
      split
      · exact .single .resetQueued
      · exact .refl

/-- One piece of data. When the stream has to go, the device is in the middle of it; the
premise that the stream is still there is checked by what the code does next. -/
theorem onPacketReceiveRw_atoms {answer : List (HostOp P) × Bool} {ref : Ref} {data : List UInt8}
    {eraseStream : Bool} (hw : w.Wf) (hns : mode.noSwitch = false)
    (hquiet : mode.quiet = true → answer.1 = [])
    (hbound : mode.bounded = true → mode.quiet = true)
    (hkeeps : mode.keepsPlug = true → ∀ op ∈ answer.1, op.isSwitch = false)
    (h : onPacketReceiveRw api answer w ref data = .ok (eraseStream, w')) :
    (eraseStream = false → Atoms api mode (.idle, w) (.idle, w')) ∧
      (eraseStream = true → (∃ t ∈ w'.mStreams, t.ref = ref) →
        ∃ c, (c = .idle ∨ c = .refused ref) ∧ Atoms api mode (.idle, w) (c, w')) := by
  simp only [onPacketReceiveRw, bind_eq_ok] at h
  obtain ⟨s, hs, h⟩ := h
  obtain ⟨hmem, rfl⟩ := World.mem_of_deref hs
  cases hconn : s.isConnected with
  | false =>
      simp only [hconn, Bool.false_eq_true, if_false, pure_eq_ok, Prod.mk.injEq] at h
      obtain ⟨rfl, rfl⟩ := h
      exact ⟨by simp, fun _ _ => ⟨.idle, Or.inl rfl, .refl⟩⟩
  | true =>
      simp only [hconn, if_true, bind_eq_ok, notNull_eq_ok] at h
      obtain ⟨p, hplug, w₂, hops, h⟩ := h
      obtain ⟨hsniff, hstreams⟩ : Atoms api mode _ _ ∧ _ :=
        sniff_toPlug_atoms w s.dataSniffer data
      generalize w.sniff s.dataSniffer (.toPlug · data) = w₁ at hops hsniff hstreams
      have hmem₁ : s ∈ w₁.mStreams := hstreams ▸ hmem
      have hhand : Atom api mode (.idle, w₁) (.idle, w₁.emit (.onReceive s.ref p data)) :=
        .handed hmem₁ hconn hplug
      have hwf := hhand.wf (hsniff.wf hw)
      have hscript : Atoms api mode (.idle, w₁.emit (.onReceive s.ref p data)) (.idle, w₂) :=
        hostOps_ctl_atoms hwf hns hquiet hbound (by simp) hops
      have hupto := (hsniff.tail hhand).trans hscript
      cases hanswer : answer.2 with
      | true =>
          simp only [hanswer, if_true, bind_eq_ok, pure_eq_ok, Prod.mk.injEq] at h
          obtain ⟨t, ht, rfl, rfl⟩ := h
          obtain ⟨hmem₂, href⟩ := World.mem_of_deref ht
          rw [← href]
          exact ⟨fun _ => hupto.tail (.taken hmem₂), by simp⟩
      | false =>
          simp only [hanswer, Bool.false_eq_true, if_false, pure_eq_ok, Prod.mk.injEq] at h
          obtain ⟨rfl, rfl⟩ := h
          refine ⟨by simp, fun _ hlive => ?_⟩
          obtain ⟨t, ht, href⟩ := hlive
          have hplug' : mode.keepsPlug = true → t.plug = some p := by
            intro hk
            have hscript' : HostAtoms api { noSwitch := true } _ w₂ :=
              hostOps_atoms hwf (fun op hop => by simp [hkeeps hk op hop]) (by simp) hops
            obtain ⟨s', hs', href', hkept⟩ :=
              hscript'.plug_eq hwf rfl ht (href ▸ hwf.ref_lt s hmem₁)
            rw [← hkept, hwf.ref_inj s' hs' s hmem₁ (href'.trans href), hplug]
          refine ⟨.refused s.ref, Or.inr rfl, hupto.tail ?_⟩
          rw [← href]
          exact .refused ht hplug'

theorem receivePieces_atoms {ref : Ref} (hns : mode.noSwitch = false)
    (hquiet : mode.quiet = true → cb.Quiet) (hbound : mode.bounded = true → mode.quiet = true)
    (hkeeps : mode.keepsPlug = true → cb.KeepsPlug) :
    ∀ (pieces : List (List UInt8)) (i : Nat) (w w' : World σ P) (eraseStream : Bool), w.Wf →
      receivePieces api cb ref i pieces w = .ok (eraseStream, w') →
      (eraseStream = false → Atoms api mode (.idle, w) (.idle, w')) ∧
        (eraseStream = true → (∃ t ∈ w'.mStreams, t.ref = ref) →
          ∃ c, (c = .idle ∨ c = .refused ref) ∧ Atoms api mode (.idle, w) (c, w'))
  | [], i, w, w', eraseStream, _, h => by
      simp only [receivePieces, pure_eq_ok, Prod.mk.injEq] at h
      obtain ⟨rfl, rfl⟩ := h
      exact ⟨fun _ => .refl, by simp⟩
  | data :: rest, i, w, w', eraseStream, hw, h => by
      simp only [receivePieces, bind_eq_ok] at h
      obtain ⟨⟨refused, w₁⟩, hfirst, h⟩ := h
      have hatoms := onPacketReceiveRw_atoms hw hns (fun hq => (hquiet hq).onReceive i) hbound
        (fun hk => hkeeps hk i) hfirst
      cases refused with
      | true =>
          simp only [if_true, pure_eq_ok, Prod.mk.injEq] at h
          obtain ⟨rfl, rfl⟩ := h
          exact hatoms
      | false =>
          simp only [Bool.false_eq_true, if_false] at h
          have hpiece := hatoms.1 rfl
          obtain ⟨hgo, hstop⟩ := receivePieces_atoms hns hquiet hbound hkeeps rest (i + 1) w₁ w'
            eraseStream (hpiece.wf hw) h
          refine ⟨fun he => hpiece.trans (hgo he), fun he hlive => ?_⟩
          obtain ⟨c, hc, hend⟩ := hstop he hlive
          exact ⟨c, hc, hpiece.trans hend⟩

theorem onPacketReceiveRwPacket_atoms {hdr : VirtioVsockHdr} {pieces : List (List UInt8)}
    (hw : w.Wf) (hns : mode.noSwitch = false) (hquiet : mode.quiet = true → cb.Quiet)
    (hbound : mode.bounded = true → mode.quiet = true)
    (hkeeps : mode.keepsPlug = true → cb.KeepsPlug)
    (h : onPacketReceiveRwPacket api cb w hdr pieces = .ok w') :
    Atoms api mode (.idle, w) (.idle, w') := by
  unfold onPacketReceiveRwPacket onPacketReceiveRwStart at h
  cases hfind : w.mStreams.find? ⟨hdr.srcPort, hdr.dstPort⟩ with
  | none =>
      obtain rfl : w = w' := by simpa [hfind] using h
      exact .refl
  | some s =>
      simp only [hfind, bind_eq_ok] at h
      obtain ⟨⟨eraseStream, w₁⟩, hpieces, h⟩ := h
      have hheader : Atom api mode (.idle, w) (.idle, updateGuestCounters w s.ref hdr) :=
        .header (StdSet.mem_of_find? hfind).1
      obtain ⟨hgo, hstop⟩ := receivePieces_atoms hns hquiet hbound hkeeps pieces 0 _ w₁ eraseStream
        (hheader.wf hw) hpieces
      cases eraseStream with
      | false =>
          obtain rfl : w₁ = w' := by simpa [onPacketReceiveRwEnd] using h
          exact .head hheader (hgo rfl)
      | true =>
          simp only [onPacketReceiveRwEnd, if_true] at h
          have hlive : ∃ t ∈ w₁.mStreams, t.ref = s.ref := by
            simp only [recycleStreamLocked, bind_eq_ok] at h
            obtain ⟨t, ht, -⟩ := h
            exact ⟨t, World.mem_of_deref ht⟩
          obtain ⟨c, hc, hpart⟩ := hstop rfl hlive
          have hwf : w₁.Wf := Atoms.wf hpart (hheader.wf hw)
          exact .head hheader
            (hpart.trans (recycleStreamLocked_atoms hwf hns hquiet hbound hc h))

end Guest

/-! ### Device status -/

/-- The calls `setStatus` makes. -/
def unplugCalls (streams : List (VsockStream P)) : List (Event σ P) :=
  streams.filterMap fun s => s.plug.map (.onUnplug s.ref)

theorem unplugAll_eq_ok : ∀ {streams : List (VsockStream P)} {w w' : World σ P},
    unplugAll streams w = .ok w' →
      w' = { w with log := w.log ++ unplugCalls streams } ∧
        ∀ s ∈ streams, s.plug.isSome = true
  | [], w, w', h => by
      obtain rfl : w = w' := by simpa [unplugAll] using h
      simp [unplugCalls]
  | s :: rest, w, w', h => by
      simp only [unplugAll, bind_eq_ok, notNull_eq_ok] at h
      obtain ⟨p, hp, h⟩ := h
      obtain ⟨rfl, hrest⟩ := unplugAll_eq_ok h
      refine ⟨by simp [unplugCalls, hp, World.emit], ?_⟩
      simpa [hp] using hrest

/-- What `setStatus` can do: nothing, or a reset. -/
theorem setStatus_cases {w w' : World σ P} {status : UInt8} (h : setStatus w status = .ok w') :
    (status &&& virtioConfigSNeedsReset = 0 ∧ w' = w) ∨
      (status &&& virtioConfigSNeedsReset ≠ 0 ∧
        w' = { w with
          log := w.log ++ unplugCalls w.mStreams.elems
          mHostEvents := []
          mOrphanPackets := []
          mSrcPortAllocator := {} } ∧
        ∀ s ∈ w.mStreams, s.plug.isSome = true) := by
  unfold setStatus at h
  split at h
  · simp at h
  · split at h
    · next hreset =>
      simp only [bind_eq_ok, pure_eq_ok] at h
      obtain ⟨w₁, hall, rfl⟩ := h
      obtain ⟨rfl, hplugs⟩ := unplugAll_eq_ok hall
      exact Or.inr ⟨hreset, rfl, hplugs⟩
    · next hreset =>
      obtain rfl : w = w' := by simpa using h
      exact Or.inl ⟨not_not.mp hreset, rfl⟩

theorem setStatus_error {w : World σ P} {status : UInt8} {e : Fault}
    (h : setStatus w status = .error e) : e = .assertStatus ∨ e = .nullPlug := by
  have hall : ∀ (streams : List (VsockStream P)) (v : World σ P),
      unplugAll streams v = .error e → e = .nullPlug := by
    intro streams
    induction streams with
    | nil => simp [unplugAll]
    | cons s rest ih =>
        intro v hv
        simp only [unplugAll, bind_eq_error] at hv
        rcases hv with hv | ⟨p, -, hv⟩
        · exact (notNull_error hv).1
        · exact ih _ hv
  unfold setStatus at h
  split at h
  · exact Or.inl (by simpa [eq_comm] using h)
  · split at h
    · simp only [bind_eq_error, pure_ne_error, and_false, exists_false, or_false] at h
      exact Or.inr (hall _ _ h)
    · simp at h

/-! ### Actions -/

/-- Every action but a change of the status refines the abstract device. -/
theorem step_atoms {w w' : World σ P} {a : Action σ P} (hw : w.Wf) (hallows : mode.Allows w a)
    (hstatus : ∀ status, a ≠ .setStatus status) (h : step api w a = .ok w') :
    Atoms api mode (.idle, w) (.idle, w') := by
  have hbound := fun hb => (hallows.bounded hb).1
  cases a with
  | host op =>
      refine Atoms.ofHost (fun _ => rfl) (by simp) (hostOp_atoms hw (fun _ => hallows.noSwitch)
        (fun hb => (hallows.bounded hb).2.1) ?_ h)
      intro hb port hport
      exact (hallows.bounded hb).2.2 port (by rw [hport])
  | control hdr cb =>
      exact onPacketReceiveControl_atoms hw hallows.noSwitch (fun hq => hallows.quiet hq cb rfl)
        hbound (fun ho => hallows.onceConnected ho hdr cb rfl) h
  | rw hdr pieces cb =>
      exact onPacketReceiveRwPacket_atoms hw hallows.noSwitch (fun hq => hallows.quiet hq cb rfl)
        hbound (fun hk => hallows.keepsPlug hk cb rfl) h
  | sendPackets =>
      exact Atoms.ofHost (fun _ => rfl) (by simp) (sendPacketsAndNotifyLocked_atoms hw h)
  | guestRx vq =>
      obtain rfl : { w with vq } = w' := by simpa [step] using h
      exact .single .guestRx
  | setStatus status => exact absurd rfl (hstatus status)

/-- What every atom keeps, every action keeps that is not a reset. -/
theorem step_invariant {I : Ctl × World σ P → Prop} (hatom : ∀ x y, Atom api mode x y → I x → I y)
    {w w' : World σ P} {a : Action σ P} (hw : w.Wf) (hallows : mode.Allows w a)
    (hnoReset : ∀ status, a = .setStatus status → status &&& virtioConfigSNeedsReset = 0)
    (h : step api w a = .ok w') (hI : I (.idle, w)) : I (.idle, w') := by
  by_cases hstatus : ∃ status, a = .setStatus status
  · obtain ⟨status, rfl⟩ := hstatus
    rcases setStatus_cases h with ⟨-, rfl⟩ | ⟨hreset, -, -⟩
    · exact hI
    · exact absurd (hnoReset status rfl) hreset
  · exact star_invariant hatom (step_atoms hw hallows (fun status hs => hstatus ⟨status, hs⟩) h) hI

end Goldfish.Vsock
