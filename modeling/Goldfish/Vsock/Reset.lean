import Goldfish.Vsock.Ports

/-!
# Goldfish.Vsock.Reset

**Device reset.** `setStatus` with `VIRTIO_CONFIG_S_NEEDS_RESET` tells every plug to
unplug, drops the orphan packets and resets the port allocator, but it leaves
`mStreams` as it is. The streams that stay behind keep ports the allocator no longer
knows about and plugs that are gone.

`ResetClean` is what a reset is for: afterwards the device cannot be told from a
freshly realized one. `setStatus_resetClean_iff` says that this is what happens
exactly when there was no stream to begin with; `reset_then_rst` is the assertion
that fails otherwise.
-/

namespace Goldfish.Vsock

open Goldfish.Lib

variable {σ P : Type} {api : GoldfishVirtIOVSockDevAPI σ}

/-- The plugs of a stream that were told to unplug, oldest first. -/
def onUnplugs (ref : Ref) (log : List (Event σ P)) : List P :=
  log.filterMap fun
    | .onUnplug s p => if s = ref then some p else none
    | _ => none

/-- The actions of a later run: legal ones, on listeners below the dynamic ports. -/
def LaterLegal (w : World σ P) (a : Action σ P) : Prop :=
  PortLegal w a ∧ ∀ port ∈ w.mHostPortListeners, port < kDynamicPortsStart

/-- `w'` is what the reset of a device in state `w` should lead to. -/
structure ResetClean (w w' : World VirtIOVSock P) : Prop where
  /-- Every plug that was attached is told to unplug, once. -/
  unplugged : ∀ s ∈ w.mStreams, s.plug.isSome = true ∧
    onUnplugs s.ref (w'.log.drop w.log.length) = s.plug.toList
  noStream : ∀ s, s ∉ w'.mStreams
  noOrphan : w'.mOrphanPackets = []
  ports : w'.PortsAgree
  /-- Any later run is one of a freshly realized device with the same listeners. -/
  fresh : ∀ acts, run devApi w' acts =
    run devApi (World.realized w.mHostPortListeners w.vq w.nextRef w'.log) acts
  /-- No later operation trips an assertion, or unplugs a plug a second time. -/
  safe : ∀ acts, Along (step devApi) LaterLegal w' acts → ∃ w'', run devApi w' acts = .ok w'' ∧
    ∀ s ∈ w.mStreams, onUnplugs s.ref (w''.log.drop w'.log.length) = []

/-- A reset does what it is for exactly when the device has no stream. -/
theorem setStatus_resetClean_iff {w : World VirtIOVSock P} {status : UInt8}
    (hreset : status &&& virtioConfigSNeedsReset ≠ 0)
    (hfailed : status &&& virtioConfigSFailed = 0) :
    (∃ w', setStatus w status = .ok w' ∧ ResetClean w w') ↔ ∀ s, s ∉ w.mStreams := by
  constructor
  · rintro ⟨w', h, hclean⟩
    rcases setStatus_cases h with ⟨hno, -⟩ | ⟨-, rfl, -⟩
    · exact absurd hno hreset
    · exact hclean.noStream
  · intro hempty
    have hnil : w.mStreams = ∅ := StdSet.ext (List.eq_nil_iff_forall_not_mem.mpr hempty)
    obtain ⟨w', h⟩ : ∃ w', setStatus w status = .ok w' := by
      unfold setStatus
      rw [if_neg (not_not.mpr hfailed), if_pos hreset, hnil]
      exact ⟨_, rfl⟩
    refine ⟨w', h, ?_⟩
    have hw' : w' = World.realized w.mHostPortListeners w.vq w.nextRef w'.log := by
      rcases setStatus_cases h with ⟨hno, -⟩ | ⟨-, rfl, -⟩
      · exact absurd hno hreset
      · simp only [World.realized, hnil]
    have hstate : (∀ port ∈ w.mHostPortListeners, port < kDynamicPortsStart) →
        PortState (.idle, w') := fun hl => by
      rw [hw']
      exact realized_portState hl
    have hnone : ∀ s, s ∉ w'.mStreams := by
      rw [hw']
      exact StdSet.not_mem_empty
    have horphan : w'.mOrphanPackets = [] := by
      rw [hw']
      rfl
    refine ⟨fun s hs => absurd hs (hempty s), hnone, horphan, ?_, fun acts => by rw [← hw'], ?_⟩
    · rw [hw']
      exact realized_portsAgree
    · intro acts hlegal
      cases acts with
      | nil => exact ⟨w', rfl, fun s hs => absurd hs (hempty s)⟩
      | cons a acts =>
          have hl : ∀ port ∈ w.mHostPortListeners, port < kDynamicPortsStart := by
            have := hlegal.1.2
            rwa [hw'] at this
          obtain ⟨w'', hrun, -⟩ := run_portState devApi_lawful (hstate hl)
            (hlegal.mono fun _ _ h => h.1)
          exact ⟨w'', hrun, fun s hs => absurd hs (hempty s)⟩

/-- A guest asked for a port nobody listens on, and the RST for it is dropped. -/
theorem setStatus_resetClean_after_request :
    ∃ w w' : World VirtIOVSock Unit, run devApi (World.realized ∅ ⟨3, []⟩)
        [.control (guestHeader 1000 9 .request 0 0 0) {}] = .ok w ∧
      setStatus w virtioConfigSNeedsReset = .ok w' ∧ ResetClean w w' := by
  obtain ⟨w', h, hclean⟩ := (@setStatus_resetClean_iff Unit
    (queueReset (World.realized ∅ ⟨3, []⟩) (guestHeader 1000 9 .request 0 0 0))
    virtioConfigSNeedsReset (by decide) (by decide)).mpr fun s => StdSet.not_mem_empty s
  exact ⟨_, w', rfl, h, hclean⟩

/-- A connection is open when the device is reset. Its stream stays, and the guest's RST
for it runs into `assert(id < mLastId)`. -/
theorem reset_then_rst :
    ∃ w w' : World VirtIOVSock Unit,
      run devApi (World.realized ∅ ⟨3, [64]⟩) [.host (.connect 1000 ())] = .ok w ∧
      setStatus w virtioConfigSNeedsReset = .ok w' ∧ ¬ ResetClean w w' ∧
      PortLegal w' (.control (guestHeader 1000 2147483649 .rst 0 0 0) {}) ∧
      run devApi w' [.control (guestHeader 1000 2147483649 .rst 0 0 0) {}] =
        .error .assertId := by
  refine ⟨_, _, rfl, rfl, fun hclean => ?_, portLegal_control (by decide), rfl⟩
  exact hclean.noStream _ List.mem_cons_self

end Goldfish.Vsock
