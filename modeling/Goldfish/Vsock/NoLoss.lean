import Goldfish.Vsock.Life

/-!
# Goldfish.Vsock.NoLoss

**No lost control packet.** A packet without data is popped from `mOrphanPackets`, or
its bit cleared in `sendOpMask`, when `sendPacketHostToGuest` does not report a full
queue. That is right as long as the answer is truthful (`Truthful`): then every orphan
packet was delivered or is still queued, in order (`Ledger`), and every operation a
live stream owes is in its mask (`OpsKept`).

`virtio_vsock_send_packet_host_to_guest` is truthful about a packet without data
exactly when the next element of the queue is not too small for a header
(`devApi_control_iff`); otherwise the `continue` of its loop ends it.
-/

namespace Goldfish.Vsock

open Goldfish.Lib

variable {σ P : Type} {api : GoldfishVirtIOVSockDevAPI σ} {mode : Mode}

/-! ### Packets without data -/

/-- The next element of the queue, if there is one, has room for a header. -/
def VirtIOVSock.HeadFits (vq : VirtIOVSock) : Prop := ∀ size ∈ vq.hostToGuestVq.head?, hdrSize ≤ size

/-- A packet without data is written once unless the queue is reported full, exactly
when the next element has room for a header. -/
theorem devApi_control_iff (vq : VirtIOVSock) (hdr : VirtioVsockHdr) (data : List UInt8)
    (hlen : hdr.len = 0) :
    ((virtIOVSockSendIsVqFull (devApi.sendPacketHostToGuest vq hdr data).result = false →
        (devApi.sendPacketHostToGuest vq hdr data).written.length = 1) ∧
      (virtIOVSockSendIsVqFull (devApi.sendPacketHostToGuest vq hdr data).result = true →
        (devApi.sendPacketHostToGuest vq hdr data).written = [])) ↔ vq.HeadFits := by
  have hdata : data.take hdr.len.toNat = [] := by simp [hlen]
  obtain ⟨cid, vq⟩ := vq
  simp only [devApi, virtioVsockSendPacketHostToGuest, hdata, virtIOVSockSendIsVqFull_make,
    VirtIOVSock.HeadFits]
  cases vq with
  | nil => simp [sendLoop]
  | cons size vq =>
      by_cases hsize : size < hdrSize
      · simp [sendLoop, hsize]
      · simp [sendLoop, hsize, not_lt.mp hsize]

/-- The answers to the packets without data: delivered exactly if not full. -/
def Truthful (api : GoldfishVirtIOVSockDevAPI σ) (log : List (Event σ P)) : Prop :=
  ∀ source vq hdr data, .call source vq hdr data ∈ log → hdr.len = 0 →
    ((api.sendPacketHostToGuest vq hdr data).written ≠ [] ↔
      virtIOVSockSendIsVqFull (api.sendPacketHostToGuest vq hdr data).result = false)

theorem Truthful.of_append {log es : List (Event σ P)} (h : Truthful api (log ++ es)) :
    Truthful api log :=
  fun source vq hdr data hmem => h source vq hdr data (List.mem_append_left _ hmem)

theorem truthful_devApi {log : List (Event VirtIOVSock P)}
    (h : ∀ source vq hdr data, .call source vq hdr data ∈ log → hdr.len = 0 → vq.HeadFits) :
    Truthful devApi log := by
  intro source vq hdr data hmem hlen
  obtain ⟨hsent, hfull⟩ := (devApi_control_iff vq hdr data hlen).mpr
    (h source vq hdr data hmem hlen)
  constructor
  · intro hwritten
    by_contra hcontra
    exact hwritten (hfull (by simpa using hcontra))
  · intro hnot hnil
    have := hsent hnot
    simp [hnil] at this

/-! ### Orphan packets -/

/-- The orphan packet an event queues. -/
def Event.queuesOrphan : Event σ P → Option VirtioVsockHdr
  | .orphanQueued hdr => some hdr
  | _ => none

/-- The orphan packet an event delivers. -/
def Event.deliversOrphan (api : GoldfishVirtIOVSockDevAPI σ) : Event σ P → Option VirtioVsockHdr
  | .call none vq hdr data =>
      if (api.sendPacketHostToGuest vq hdr data).written = [] then none else some hdr
  | _ => none

/-- The orphan packets queued so far. -/
def queuedOrphans (log : List (Event σ P)) : List VirtioVsockHdr :=
  log.filterMap Event.queuesOrphan

/-- The orphan packets written into a guest buffer so far. -/
def deliveredOrphans (api : GoldfishVirtIOVSockDevAPI σ) (log : List (Event σ P)) :
    List VirtioVsockHdr :=
  log.filterMap (Event.deliversOrphan api)

@[simp] theorem queuedOrphans_append {log es : List (Event σ P)} :
    queuedOrphans (log ++ es) = queuedOrphans log ++ queuedOrphans es := List.filterMap_append

@[simp] theorem deliveredOrphans_append {log es : List (Event σ P)} :
    deliveredOrphans api (log ++ es) = deliveredOrphans api log ++ deliveredOrphans api es :=
  List.filterMap_append

/-- What a step of the abstract device does to the orphan packets. -/
inductive OrphanStep (api : GoldfishVirtIOVSockDevAPI σ) (w w' : World σ P) : Prop
  /-- None is sent; some may be queued. A stream's packet is only sent while none waits. -/
  | quiet (es : List (Event σ P)) (hlog : w'.log = w.log ++ es)
      (horph : w'.mOrphanPackets = w.mOrphanPackets ++ queuedOrphans es)
      (hlen : ∀ hdr ∈ queuedOrphans es, hdr.len = 0)
      (hsend : ∀ source vq hdr data, .call source vq hdr data ∈ es →
        source ≠ none ∧ w.mOrphanPackets = [] ∧ es = [.call source vq hdr data])
  | sent (hdr : VirtioVsockHdr) (hlog : w'.log = w.log ++ [.call none w.vq hdr []])
      (horph : w.mOrphanPackets = hdr :: w'.mOrphanPackets)
      (hfull : virtIOVSockSendIsVqFull (api.sendPacketHostToGuest w.vq hdr []).result = false)
  | kept (hdr : VirtioVsockHdr) (hlog : w'.log = w.log ++ [.call none w.vq hdr []])
      (hmem : hdr ∈ w.mOrphanPackets) (horph : w'.mOrphanPackets = w.mOrphanPackets)
      (hfull : virtIOVSockSendIsVqFull (api.sendPacketHostToGuest w.vq hdr []).result = true)

section OrphanStep

variable {w w' : World σ P}

/-- An effect that has nothing to do with packets. -/
theorem OrphanStep.unrelated (es : List (Event σ P)) (hlog : w'.log = w.log ++ es)
    (horph : w'.mOrphanPackets = w.mOrphanPackets) (hes : queuedOrphans es = [])
    (hcall : ∀ source vq hdr data, .call source vq hdr data ∉ es) : OrphanStep api w w' :=
  .quiet es hlog (by rw [horph, hes, List.append_nil]) (by simp [hes])
    fun source vq hdr data h => absurd h (hcall source vq hdr data)

/-- A packet of a stream. -/
theorem OrphanStep.ofStream {ref : Ref} {vq : σ} {hdr : VirtioVsockHdr} {data : List UInt8}
    (hlog : w'.log = w.log ++ [.call (some ref) vq hdr data])
    (horph : w'.mOrphanPackets = w.mOrphanPackets) (hnone : w.mOrphanPackets = []) :
    OrphanStep api w w' := by
  have hnil : queuedOrphans [(.call (some ref) vq hdr data : Event σ P)] = [] := rfl
  refine .quiet _ hlog (by rw [hnil, horph, List.append_nil]) (by simp [hnil]) fun source vq' hdr' data' hmem => ?_
  rw [List.mem_singleton.mp hmem]
  simp only [List.mem_singleton, Event.call.injEq] at hmem
  exact ⟨by simp [hmem.1], hnone, rfl⟩

/-- A stream that is recycled and erased. -/
theorem OrphanStep.of_recycled {s : VsockStream P} {op : VirtioVsockOp} {v w₁ : World σ P}
    (before : List (Event σ P)) (hlog : v.log = w.log ++ before)
    (horph : v.mOrphanPackets = w.mOrphanPackets) (hbefore : queuedOrphans before = [])
    (hcall : ∀ source vq hdr data, .call source vq hdr data ∉ before)
    (hrecycle : recycleStreamQuietly v s op = .ok w₁) : OrphanStep api w (w₁.erase s) := by
  have hqueued : queuedOrphans (before ++ ((if op ≠ .invalid then
      [.orphanQueued (s.preparePacketHeader op 0)] else []) ++ [.erased s.ref] : List (Event σ P))) =
        if op ≠ .invalid then [s.preparePacketHeader op 0] else [] := by
    rw [queuedOrphans_append, hbefore]
    split <;> rfl
  refine .quiet (before ++ ((if op ≠ .invalid then [.orphanQueued (s.preparePacketHeader op 0)]
    else []) ++ [.erased s.ref])) ?_ ?_ (fun hdr hhdr => ?_) fun source vq hdr data hmem => ?_
  · rw [erase_log, recycleStreamQuietly_log hrecycle, hlog, List.append_assoc, List.append_assoc]
  · rw [hqueued, ← horph]
    exact (recycleStreamQuietly_mOrphanPackets hrecycle : w₁.mOrphanPackets = _)
  · rw [hqueued] at hhdr
    split at hhdr
    · obtain rfl := List.mem_singleton.mp hhdr
      rfl
    · simp at hhdr
  · exfalso
    split at hmem <;> simp [hcall] at hmem

end OrphanStep

theorem HostAtom.orphanStep {w w' : World σ P} (h : HostAtom api mode w w') :
    OrphanStep api w w' := by
  cases h with
  | orphanSent horph hfull => exact .sent _ rfl horph hfull
  | orphanKept horph hfull =>
      exact .kept _ rfl (horph ▸ List.mem_cons_self) rfl hfull
  | opSent _ horph _ _ => exact .ofStream rfl rfl horph
  | opKept _ horph _ _ => exact .ofStream rfl rfl horph
  | dataSent _ horph _ _ _ _ _ _ _ => exact .ofStream rfl rfl horph
  | needCredit _ _ => exact .unrelated _ rfl rfl rfl (by simp)
  | notified => exact .unrelated _ rfl rfl rfl (by simp)
  | @connected w₁ _ _ hemplace _ =>
      exact .unrelated _ (connected_log hemplace)
        (emplace_mOrphanPackets hemplace : w₁.mOrphanPackets = _) rfl (by simp)
  | sniffed => exact .unrelated _ rfl rfl rfl (by simp)
  | buffered _ _ => exact .unrelated _ rfl rfl rfl (by simp)
  | @unplugged _ s p _ _ hrecycle =>
      refine .of_recycled (v := w.emit (.unplugged s.ref p)) [.unplugged s.ref p] rfl rfl rfl
        (by simp) hrecycle
  | _ => exact .unrelated [] (List.append_nil _).symm rfl rfl (by simp)

theorem Atom.orphanStep {x y : Ctl × World σ P} (h : Atom api mode x y) :
    OrphanStep api x.2 y.2 := by
  cases h with
  | host h _ _ => exact h.orphanStep
  | guestRx => exact .unrelated [] (List.append_nil _).symm rfl rfl (by simp)
  | resetQueued =>
      refine .quiet _ rfl rfl (fun hdr hhdr => ?_) (by simp)
      obtain rfl := List.mem_singleton.mp hhdr
      rfl
  | requested _ hemplace =>
      exact .unrelated _ (emplace_log hemplace) (emplace_mOrphanPackets hemplace) rfl (by simp)
  | accepted _ =>
      exact .unrelated _ afterAccept_log World.afterAccept_fields.2.1 rfl (by simp)
  | responded _ _ _ _ =>
      exact .unrelated _ afterResponse_log rfl rfl (by simp)
  | recycled _ hrecycle =>
      exact .of_recycled [] (List.append_nil _).symm rfl rfl (by simp) hrecycle
  | _ => exact .unrelated _ rfl rfl rfl (by simp)

/-- The orphan packets queued so far are those delivered, in order, and then those still
in the queue. -/
structure Ledger (api : GoldfishVirtIOVSockDevAPI σ) (w : World σ P) : Prop where
  len : ∀ hdr ∈ w.mOrphanPackets, hdr.len = 0
  books : Truthful api w.log →
    deliveredOrphans api w.log ++ w.mOrphanPackets = queuedOrphans w.log

theorem OrphanStep.ledger {w w' : World σ P} (h : OrphanStep api w w') (hw : Ledger api w) :
    Ledger api w' := by
  cases h with
  | quiet es hlog horph hlen hsend =>
      refine ⟨fun hdr hmem => ?_, fun htrue => ?_⟩
      · rw [horph] at hmem
        exact (List.mem_append.mp hmem).elim (hw.len hdr) (hlen hdr)
      · have hnone : deliveredOrphans api es = [] := by
          refine List.filterMap_eq_nil_iff.mpr fun e he => ?_
          cases e with
          | call source vq hdr data =>
              cases source with
              | none => exact absurd rfl (hsend none vq hdr data he).1
              | some ref => rfl
          | _ => rfl
        rw [hlog] at htrue ⊢
        rw [deliveredOrphans_append, queuedOrphans_append, hnone, List.append_nil, horph,
          ← List.append_assoc, hw.books htrue.of_append]
  | sent hdr hlog horph hfull =>
      refine ⟨fun hdr' hmem => hw.len hdr' (horph ▸ List.mem_cons_of_mem _ hmem), fun htrue => ?_⟩
      rw [hlog] at htrue ⊢
      have hwritten := (htrue none w.vq hdr [] (by simp)
        (hw.len hdr (horph ▸ List.mem_cons_self))).mpr hfull
      have hone : deliveredOrphans api [(.call none w.vq hdr [] : Event σ P)] = [hdr] := by
        simp [deliveredOrphans, Event.deliversOrphan, hwritten]
      rw [deliveredOrphans_append, queuedOrphans_append, hone, ← hw.books htrue.of_append, horph]
      simp [queuedOrphans, Event.queuesOrphan]
  | kept hdr hlog hmem horph hfull =>
      refine ⟨fun hdr' hmem => hw.len hdr' (horph ▸ hmem), fun htrue => ?_⟩
      rw [hlog] at htrue ⊢
      have hwritten : (api.sendPacketHostToGuest w.vq hdr []).written = [] := by
        by_contra hne
        have := (htrue none w.vq hdr [] (by simp) (hw.len hdr hmem)).mp hne
        simp [hfull] at this
      have hone : deliveredOrphans api [(.call none w.vq hdr [] : Event σ P)] = [] := by
        simp [deliveredOrphans, Event.deliversOrphan, hwritten]
      rw [deliveredOrphans_append, queuedOrphans_append, hone, ← hw.books htrue.of_append, horph]
      simp [queuedOrphans, Event.queuesOrphan]

/-! ### Operations -/

/-- The event writes the operation of a stream into a guest buffer. -/
def Event.Writes (api : GoldfishVirtIOVSockDevAPI σ) (ref : Ref) (op : VirtioVsockOp) :
    Event σ P → Prop
  | .call source vq hdr data => source = some ref ∧ hdr.op = op.code ∧
      (api.sendPacketHostToGuest vq hdr data).written ≠ []
  | _ => False

/-- The operation was asked for and not written since. -/
def Owed (api : GoldfishVirtIOVSockDevAPI σ) (ref : Ref) (op : VirtioVsockOp)
    (log : List (Event σ P)) : Prop :=
  ∃ pre post, log = pre ++ .opQueued ref op :: post ∧ ∀ e ∈ post, ¬ e.Writes api ref op

theorem Owed.of_append {ref : Ref} {op : VirtioVsockOp} {log es : List (Event σ P)}
    (h : Owed api ref op (log ++ es)) :
    .opQueued ref op ∈ es ∨ (Owed api ref op log ∧ ∀ e ∈ es, ¬ e.Writes api ref op) := by
  obtain ⟨pre, post, heq, hpost⟩ := h
  rcases List.append_eq_append_iff.mp heq with ⟨as, rfl, rfl⟩ | ⟨bs, rfl, hbs⟩
  · exact Or.inl (by simp)
  · cases bs with
    | nil => exact Or.inl ((List.nil_append es).symm ▸ hbs ▸ List.mem_cons_self)
    | cons b bs =>
        obtain ⟨rfl, rfl⟩ := List.cons.inj hbs
        refine Or.inr ⟨⟨pre, bs, rfl, fun e he => hpost e (by simp [he])⟩, fun e he => ?_⟩
        exact hpost e (by simp [he])

/-- What a stream owes is in its mask. -/
def OpsKept (api : GoldfishVirtIOVSockDevAPI σ) (log : List (Event σ P)) (s : VsockStream P) :
    Prop :=
  Truthful api log → ∀ op ∈ maskOps, Owed api s.ref op log → s.hasOp op = true

theorem hasOp_of_mask_or {s s' : VsockStream P} {b : UInt8}
    (hmask : s'.sendOpMask = s.sendOpMask ||| b) (op : VirtioVsockOp) :
    s'.hasOp op = (s.hasOp op || decide (b &&& op.bit ≠ 0)) := by
  simp only [VsockStream.hasOp, hmask, VirtioVsockOp.or_and_mask, ne_eq, UInt8.or_eq_zero_iff,
    not_and_or, Bool.decide_or]

/-- An operation that was just set is in the mask. -/
theorem hasOp_asked {s : VsockStream P} {op : VirtioVsockOp} {mask : UInt8}
    (hmask : s.sendOpMask = mask ||| op.bit) : s.hasOp op = true := by
  have hself : (mask ||| op.bit) &&& op.bit = op.bit := by
    rw [← UInt8.toBitVec_inj]
    ext i
    simp only [UInt8.toBitVec_and, UInt8.toBitVec_or, BitVec.getElem_and, BitVec.getElem_or]
    cases mask.toBitVec[i] <;> simp
  simp [VsockStream.hasOp, hmask, hself, bit_ne_zero]

/-- Clearing another operation leaves this one in the mask. -/
theorem hasOp_clear {s : VsockStream P} {op op' : VirtioVsockOp} (hne : op ≠ op')
    (h : s.hasOp op = true) :
    ({ s with sendOpMask := s.sendOpMask &&& ~~~op'.bit } : VsockStream P).hasOp op = true := by
  have hbit : ~~~op'.bit &&& op.bit = op.bit := by
    revert hne
    cases op <;> cases op' <;> decide
  simpa only [VsockStream.hasOp, UInt8.and_assoc, hbit] using h

/-- Clearing an operation sets none. -/
theorem hasOp_clear_eq_false {s : VsockStream P} {op op' : VirtioVsockOp}
    (h : s.hasOp op = false) :
    ({ s with sendOpMask := s.sendOpMask &&& ~~~op'.bit } : VsockStream P).hasOp op = false := by
  have hbit : s.sendOpMask &&& op.bit = 0 := by simpa [VsockStream.hasOp] using h
  have hcomm : s.sendOpMask &&& ~~~op'.bit &&& op.bit = s.sendOpMask &&& op.bit &&& ~~~op'.bit := by
    rw [UInt8.and_assoc, UInt8.and_comm (~~~op'.bit), UInt8.and_assoc]
  simp [VsockStream.hasOp, hcomm, hbit]

section OpsKept

variable {log es : List (Event σ P)} {s s' : VsockStream P}

/-- What has to be checked for a turn: an operation it asks for is in the mask afterwards,
and one that was in the mask is there still or was written. -/
theorem OpsKept.step (h : OpsKept api log s) (href : s'.ref = s.ref)
    (hnew : ∀ op ∈ maskOps, .opQueued s.ref op ∈ es → s'.hasOp op = true)
    (hkeep : Truthful api (log ++ es) → ∀ op ∈ maskOps, (∀ e ∈ es, ¬ e.Writes api s.ref op) →
      s.hasOp op = true → s'.hasOp op = true) : OpsKept api (log ++ es) s' := by
  intro htrue op hop howed
  rw [href] at howed
  rcases howed.of_append with hmem | ⟨hold, hes⟩
  · exact hnew op hop hmem
  · exact hkeep htrue op hop hes (h htrue.of_append op hop hold)

/-- A turn that leaves the mask alone. -/
theorem OpsKept.quiet (h : OpsKept api log s) (href : s'.ref = s.ref)
    (hmask : s'.sendOpMask = s.sendOpMask) (hes : ∀ op, .opQueued s.ref op ∉ es) :
    OpsKept api (log ++ es) s' := by
  refine h.step href (fun op _ hmem => absurd hmem (hes op)) fun _ op _ _ hhas => ?_
  rw [VsockStream.hasOp, hmask]
  exact hhas

/-- A turn that asks for an operation. -/
theorem OpsKept.asked (h : OpsKept api log s) {op : VirtioVsockOp} (href : s'.ref = s.ref)
    (hmask : s'.sendOpMask = s.sendOpMask ||| op.bit)
    (hes : ∀ op', .opQueued s.ref op' ∈ es → op' = op) : OpsKept api (log ++ es) s' := by
  have hhas := hasOp_of_mask_or hmask
  refine h.step href (fun op' _ hmem => ?_) fun _ op' _ _ hold => ?_
  · rw [hes op' hmem]
    exact hasOp_asked hmask
  · rw [hhas, hold, Bool.true_or]

end OpsKept

/-- Every turn of a stream keeps what it owes in its mask. -/
theorem opsKept_lasting : Lasting api mode (OpsKept (P := P) api) where
  frame log es s hother h := by
    refine h.quiet rfl rfl fun op hmem => ?_
    exact hother _ hmem rfl
  turn log es s s' hturn h := by
    cases hturn with
    | needCredit _ _ => exact h.asked rfl rfl (by simp)
    | creditAsked _ => exact h.asked rfl rfl (by simp)
    | taken _ => exact h.asked rfl rfl (by simp)
    | accepted _ => exact h.asked rfl rfl (by simp)
    | @opSent vq op _ hop hfull =>
        refine h.step rfl (by simp) fun htrue op' _ hes hhas => hasOp_clear (fun heq => ?_) hhas
        -- this operation was written: the queue was not full
        have hwritten := (htrue (some s.ref) vq (s.preparePacketHeader op 0) [] (by simp) rfl).mpr
          hfull
        refine hes _ List.mem_cons_self ⟨rfl, ?_, hwritten⟩
        rw [heq]
        rfl
    | maskCleared _ hnone =>
        refine h.step rfl (by simp) fun _ op hop _ hhas => ?_
        rw [hnone op hop] at hhas
        exact absurd hhas (by simp)
    | _ => exact h.quiet rfl rfl (by simp)
  born log es s hnew hborn := by
    have hstart : OpsKept api log s := by
      rintro - op - ⟨pre, post, rfl, -⟩
      exact absurd rfl (hnew (.opQueued s.ref op) (by simp))
    cases hborn with
    | connected =>
        refine hstart.step rfl (fun op _ hmem => ?_) fun _ _ _ _ hhas => hhas
        obtain rfl : op = .request := by simpa using hmem
        exact hasOp_asked rfl
    | requested => exact hstart.quiet rfl rfl (by simp)

/-! ### Runs -/

/-- Nothing is lost: every orphan packet was delivered or is still queued, and every
operation that is owed is in the mask of its stream, unless the stream is gone. -/
structure NoLoss (api : GoldfishVirtIOVSockDevAPI σ) (w : World σ P) : Prop where
  orphans : deliveredOrphans api w.log ++ w.mOrphanPackets = queuedOrphans w.log
  ops : ∀ ref, ∀ op ∈ maskOps, Owed api ref op w.log →
    (∃ s ∈ w.mStreams, s.ref = ref ∧ s.hasOp op = true) ∨ .erased ref ∈ w.log

/-- A reset throws the orphan packets away: not while there are any. -/
def KeepsOrphans (w : World σ P) (a : Action σ P) : Prop :=
  ∀ status, a = .setStatus status → status &&& virtioConfigSNeedsReset ≠ 0 → w.mOrphanPackets = []

theorem step_ledger {w w' : World σ P} {a : Action σ P} (hw : w.Wf) (hkeeps : KeepsOrphans w a)
    (hstep : step api w a = .ok w') (h : Ledger api w) : Ledger api w' := by
  by_cases hstatus : ∃ status, a = .setStatus status
  · obtain ⟨status, rfl⟩ := hstatus
    rcases setStatus_cases hstep with ⟨-, rfl⟩ | ⟨hreset, rfl, -⟩
    · exact h
    · have horph := hkeeps status rfl hreset
      refine OrphanStep.ledger (.unrelated (unplugCalls w.mStreams.elems) rfl horph.symm ?_ ?_) h
      · refine List.filterMap_eq_nil_iff.mpr fun e he => ?_
        obtain ⟨s, -, he⟩ := List.mem_filterMap.mp he
        obtain ⟨p, -, rfl⟩ := Option.map_eq_some_iff.mp he
        rfl
      · intro source vq hdr data hmem
        obtain ⟨s, -, he⟩ := List.mem_filterMap.mp hmem
        obtain ⟨p, -, he⟩ := Option.map_eq_some_iff.mp he
        cases he
  · have hatoms : Atoms api {} (.idle, w) (.idle, w') :=
      step_atoms hw (Mode.allows_default w a) (fun status hs => hstatus ⟨status, hs⟩) hstep
    exact star_invariant (I := fun x => Ledger api x.2) (fun _ _ hab => hab.orphanStep.ledger)
      hatoms h

/-- A packet without data is delivered or reported as not delivered exactly if the next
element of the queue has room for a header; and in every run in which this is so whenever
such a packet is offered, and no reset drops a queued packet, nothing is lost. -/
theorem run_noLoss :
    (∀ (vq : VirtIOVSock) (hdr : VirtioVsockHdr) (data : List UInt8), hdr.len = 0 →
      (((virtIOVSockSendIsVqFull (devApi.sendPacketHostToGuest vq hdr data).result = false →
          (devApi.sendPacketHostToGuest vq hdr data).written.length = 1) ∧
        (virtIOVSockSendIsVqFull (devApi.sendPacketHostToGuest vq hdr data).result = true →
          (devApi.sendPacketHostToGuest vq hdr data).written = [])) ↔ vq.HeadFits)) ∧
    ∀ (listeners : Finset UInt32) (vq : VirtIOVSock) (acts : List (Action VirtIOVSock P))
      (w : World VirtIOVSock P), run devApi (World.realized listeners vq) acts = .ok w →
      Along (step devApi) KeepsOrphans (World.realized listeners vq) acts →
      (∀ source vq hdr data, .call source vq hdr data ∈ w.log → hdr.len = 0 → vq.HeadFits) →
      NoLoss devApi w := by
  refine ⟨devApi_control_iff, fun listeners vq acts w hrun hkeeps hfits => ?_⟩
  have htrue := truthful_devApi hfits
  have hlasting : Lasting devApi {} (OpsKept (P := P) devApi) := opsKept_lasting
  have hreset : ∀ log es (s : VsockStream P), (∀ e ∈ es, ∃ ref p, e = Event.onUnplug ref p) →
      OpsKept devApi log s → OpsKept devApi (log ++ es) s := by
    refine fun log es s hes h => h.quiet rfl rfl fun op hmem => ?_
    obtain ⟨ref, p, heq⟩ := hes _ hmem
    cases heq
  have hallows : ∀ acts, Along (step devApi) (Mode.Allows {})
      (World.realized listeners vq : World VirtIOVSock P) acts :=
    fun acts => along_of_forall fun w a => Mode.allows_default w a
  have hliving := run_living hlasting hreset (hallows acts) living_realized hrun
  have hledger : Ledger devApi w ∧ w.Sane := by
    refine hkeeps.invariant (I := fun w => Ledger devApi w ∧ w.Sane) (fun v a v' hv hok hstep => ?_)
      ⟨⟨fun _ h => absurd h List.not_mem_nil, fun _ => rfl⟩, realized_sane⟩ hrun
    exact ⟨step_ledger hv.2.wf hok hstep hv.1, step_sane hv.2 hstep⟩
  refine ⟨hledger.1.books htrue, fun ref op hop howed => ?_⟩
  obtain ⟨pre, post, hlog, -⟩ := id howed
  have hlt : ref < w.nextRef := hliving.old (.opQueued ref op) (by simp [hlog]) ref rfl
  rcases hliving.gone ref hlt with ⟨s, hs, rfl⟩ | hgone
  · exact Or.inl ⟨s, hs, rfl, hliving.each s hs htrue op hop howed⟩
  · exact Or.inr hgone

/-- A guest asks for a port nobody listens on while it offers no buffer, and takes the RST
when it has offered one; the host connects with no buffer left. -/
def refusedRequest : List (Action VirtIOVSock Unit) :=
  [.control (guestHeader 1000 9 .request 0 0 0) {}, .guestRx ⟨3, [44]⟩, .sendPackets,
    .host (.connect 1000 ())]

/-- The history of `refusedRequest`. -/
def refusedRequestLog : List (Event VirtIOVSock Unit) :=
  [.orphanQueued (preparePacketHeader 9 1000 .rst 0 0),
    .call none ⟨3, [44]⟩ (preparePacketHeader 9 1000 .rst 0 0) [], .notify,
    .created 0 ⟨1000, 2147483649⟩ .connect, .opQueued 0 .request, .opQueued 0 .creditRequest,
    .call (some 0) ⟨3, []⟩ (preparePacketHeader 2147483649 1000 .request 0 0) []]

theorem run_noLoss_refusedRequest : ∃ w,
    run devApi (World.realized ∅ ⟨3, []⟩) refusedRequest = .ok w ∧ NoLoss devApi w ∧
      deliveredOrphans devApi w.log = [preparePacketHeader 9 1000 .rst 0 0] ∧
      ∃ s ∈ w.mStreams, s.hasOp .request = true := by
  obtain ⟨w, hrun, hlog, hops⟩ : ∃ w, run devApi (World.realized ∅ ⟨3, []⟩) refusedRequest = .ok w ∧
      w.log = refusedRequestLog ∧ ∃ s ∈ w.mStreams, s.hasOp .request = true :=
    ⟨_, rfl, rfl, _, List.mem_cons_self, rfl⟩
  have hkeeps : Along (step devApi) KeepsOrphans (World.realized ∅ ⟨3, []⟩) refusedRequest := by
    refine along_of_mem fun a ha w status hstatus => ?_
    simp [refusedRequest, hstatus] at ha
  have hfits : ∀ source vq hdr data, .call source vq hdr data ∈ w.log → hdr.len = 0 →
      vq.HeadFits := by
    intro source vq hdr data hmem _
    simp only [hlog, refusedRequestLog, List.mem_cons, reduceCtorEq, false_or, Event.call.injEq,
      List.not_mem_nil, or_false] at hmem
    rcases hmem with ⟨-, rfl, -⟩ | ⟨-, rfl, -⟩ <;> simp [VirtIOVSock.HeadFits, hdrSize]
  exact ⟨w, hrun, run_noLoss.2 ∅ ⟨3, []⟩ refusedRequest w hrun hkeeps hfits, hlog ▸ rfl, hops⟩

/-- The next element of the queue has 10 bytes. The RST for a request that is declined is
gone: not written, and not queued any more. -/
theorem reset_lost : ∃ w : World VirtIOVSock Unit,
    run devApi (World.realized ∅ ⟨3, [10]⟩)
      [.control (guestHeader 1000 9 .request 0 0 0) {}, .sendPackets] = .ok w ∧
      queuedOrphans w.log = [preparePacketHeader 9 1000 .rst 0 0] ∧
      deliveredOrphans devApi w.log = [] ∧ w.mOrphanPackets = [] ∧ ¬ NoLoss devApi w ∧
      virtIOVSockSendIsVqFull (devApi.sendPacketHostToGuest ⟨3, [10]⟩
        (preparePacketHeader 9 1000 .rst 0 0) []).result = false ∧
      (devApi.sendPacketHostToGuest ⟨3, [10]⟩ (preparePacketHeader 9 1000 .rst 0 0) []).written =
        [] := by
  refine ⟨_, rfl, rfl, rfl, rfl, fun h => ?_, rfl, rfl⟩
  exact absurd h.orphans (List.cons_ne_nil _ _).symm

end Goldfish.Vsock
