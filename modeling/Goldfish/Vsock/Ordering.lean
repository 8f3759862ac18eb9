import Goldfish.Vsock.NoLoss

/-!
# Goldfish.Vsock.Ordering

**Packet ordering per port pair.** Orphan packets, the operations of a mask and data wait
in three queues, which `sendPacketsLocked` empties in this order and may leave at any
point when the virtqueue is full. For one incarnation of a stream this is enough
(`run_inOrder`):

* its first packet opens the connection: a REQUEST if `connect` created it, a RESPONSE if
  a listener did;
* data follows only after the RESPONSE of the peer, or after its own;
* whatever was queued when an earlier incarnation was taken down has been delivered.
-/

namespace Goldfish.Vsock

open Goldfish.Lib

variable {σ P : Type} {api : GoldfishVirtIOVSockDevAPI σ} {mode : Mode}

/-- The packet that opens a connection. -/
def Origin.opening : Origin → VirtioVsockOp
  | .connect => .request
  | .listener => .response

/-- The event writes a packet of a stream into a guest buffer. -/
def Event.WritesFor (api : GoldfishVirtIOVSockDevAPI σ) (ref : Ref) : Event σ P → Prop
  | .call source vq hdr data =>
      source = some ref ∧ (api.sendPacketHostToGuest vq hdr data).written ≠ []
  | _ => False

theorem Event.Writes.writesFor {ref : Ref} {op : VirtioVsockOp} {e : Event σ P}
    (h : e.Writes api ref op) : e.WritesFor api ref := by
  cases e with
  | call source vq hdr data => exact ⟨h.1, h.2.2⟩
  | _ => exact h.elim

/-- A packet of the stream `ref`, created as `origin` for the port pair `key`, comes in its
order after the events `pre`. -/
structure InOrder (api : GoldfishVirtIOVSockDevAPI σ) (pre : List (Event σ P)) (ref : Ref)
    (key : VsockStreamKey) (origin : Origin) (hdr : VirtioVsockHdr) : Prop where
  guestPort : hdr.dstPort = key.guestPort
  hostPort : hdr.srcPort = key.hostPort
  first : (∀ e ∈ pre, ¬ e.WritesFor api ref) → hdr.op = origin.opening.code
  connect : origin = .connect → hdr.op = VirtioVsockOp.rw.code →
    ∃ hdr', .received ref hdr' ∈ pre ∧ hdr'.op = VirtioVsockOp.response.code
  listener : origin = .listener → hdr.op = VirtioVsockOp.rw.code →
    ∃ e ∈ pre, e.Writes api ref .response
  orphans : deliveredOrphans api pre = queuedOrphans pre

/-! ### The opening of a stream -/

/-- How far a stream has come with opening its connection. -/
structure Opened (api : GoldfishVirtIOVSockDevAPI σ) (log : List (Event σ P))
    (s : VsockStream P) (origin : Origin) : Prop where
  created : ∀ key o, .created s.ref key o ∈ log ↔ key = s.key ∧ o = origin
  plugged : origin = .connect → s.plug.isSome = true
  /-- A stream with a plug is about to open the connection, or has done so. -/
  opening : s.plug.isSome = true →
    s.hasOp origin.opening = true ∨ ∃ e ∈ log, e.Writes api s.ref origin.opening
  request : origin = .listener → s.hasOp .request = false
  connected : origin = .connect → s.isConnected = true →
    ∃ hdr, .received s.ref hdr ∈ log ∧ hdr.op = VirtioVsockOp.response.code
  buffered : s.hostToGuestBuf.pending ≠ [] → s.isConnected = true

/-- The invariant: as long as the answers are truthful, the stream keeps to its opening. -/
def Opens (api : GoldfishVirtIOVSockDevAPI σ) (log : List (Event σ P)) (s : VsockStream P) : Prop :=
  Truthful api log → ∃ origin, Opened api log s origin

theorem Origin.opening_mem_maskOps (origin : Origin) : origin.opening ∈ maskOps := by
  cases origin <;> decide

section Opened

variable {log es : List (Event σ P)} {s s' : VsockStream P} {origin : Origin}

theorem Opened.created_append (h : Opened api log s origin) (href : s'.ref = s.ref)
    (hkey : s'.key = s.key) (hes : ∀ key o, .created s.ref key o ∉ es) (key : VsockStreamKey)
    (o : Origin) : .created s'.ref key o ∈ log ++ es ↔ key = s'.key ∧ o = origin := by
  rw [href, hkey, List.mem_append, or_iff_left (hes key o)]
  exact h.created key o

/-- A turn that neither attaches a plug nor connects the stream: an operation that leaves
the mask was written. -/
theorem Opened.step (h : Opened api log s origin) (href : s'.ref = s.ref) (hkey : s'.key = s.key)
    (hes : ∀ key o, .created s.ref key o ∉ es) (hplug : s'.plug.isSome = s.plug.isSome)
    (hops : ∀ op ∈ maskOps, s.hasOp op = true →
      s'.hasOp op = true ∨ ∃ e ∈ es, e.Writes api s.ref op)
    (hrequest : s.hasOp .request = false → s'.hasOp .request = false)
    (hconn : s'.isConnected = s.isConnected)
    (hbuf : s'.hostToGuestBuf.pending ≠ [] → s.isConnected = true) :
    Opened api (log ++ es) s' origin where
  created := h.created_append href hkey hes
  plugged ho := hplug ▸ h.plugged ho
  opening hsome := by
    rw [href]
    rcases h.opening (hplug ▸ hsome) with hop | ⟨e, he, hwrites⟩
    · rcases hops _ origin.opening_mem_maskOps hop with hop | ⟨e, he, hwrites⟩
      · exact Or.inl hop
      · exact Or.inr ⟨e, List.mem_append_right _ he, hwrites⟩
    · exact Or.inr ⟨e, List.mem_append_left _ he, hwrites⟩
  request ho := hrequest (h.request ho)
  connected ho hc := by
    obtain ⟨hdr, hmem, hop⟩ := h.connected ho (hconn ▸ hc)
    exact ⟨hdr, href ▸ List.mem_append_left _ hmem, hop⟩
  buffered hpend := hconn ▸ hbuf hpend

/-- A turn that leaves mask, plug, buffer and connection alone. -/
theorem Opened.quiet (h : Opened api log s origin) (href : s'.ref = s.ref) (hkey : s'.key = s.key)
    (hes : ∀ key o, .created s.ref key o ∉ es) (hplug : s'.plug.isSome = s.plug.isSome)
    (hmask : s'.sendOpMask = s.sendOpMask) (hconn : s'.isConnected = s.isConnected)
    (hbuf : s'.hostToGuestBuf = s.hostToGuestBuf) : Opened api (log ++ es) s' origin := by
  have hhas : ∀ op, s'.hasOp op = s.hasOp op := fun op => by rw [VsockStream.hasOp, hmask]; rfl
  refine h.step href hkey hes hplug (fun op _ hop => Or.inl (hhas op ▸ hop))
    (fun hop => hhas _ ▸ hop) hconn fun hpend => h.buffered (hbuf ▸ hpend)

/-- A turn that asks for an operation other than REQUEST. -/
theorem Opened.asked (h : Opened api log s origin) {op : VirtioVsockOp}
    (hne : op.bit &&& VirtioVsockOp.request.bit = 0) (href : s'.ref = s.ref) (hkey : s'.key = s.key)
    (hes : ∀ key o, .created s.ref key o ∉ es) (hplug : s'.plug.isSome = s.plug.isSome)
    (hmask : s'.sendOpMask = s.sendOpMask ||| op.bit) (hconn : s'.isConnected = s.isConnected)
    (hbuf : s'.hostToGuestBuf = s.hostToGuestBuf) : Opened api (log ++ es) s' origin := by
  have hhas := hasOp_of_mask_or hmask
  refine h.step href hkey hes hplug (fun op' _ hop => Or.inl ?_) (fun hop => ?_) hconn
    fun hpend => h.buffered (hbuf ▸ hpend)
  · rw [hhas, hop, Bool.true_or]
  · simp [hhas, hop, hne]

end Opened

/-- Every turn of a stream keeps to the opening of its connection. -/
theorem opens_lasting (hquiet : mode.quiet = true) : Lasting api mode (Opens (P := P) api) where
  frame log es s hother h htrue := by
    obtain ⟨origin, h⟩ := h htrue.of_append
    refine ⟨origin, h.quiet rfl rfl (fun key o hmem => ?_) rfl rfl rfl rfl⟩
    exact hother _ hmem rfl
  turn log es s s' hturn h htrue := by
    obtain ⟨origin, h⟩ := h htrue.of_append
    refine ⟨origin, ?_⟩
    cases hturn with
    | needCredit _ _ => exact h.asked (by decide) rfl rfl (by simp) rfl rfl rfl rfl
    | creditAsked _ => exact h.asked (by decide) rfl rfl (by simp) rfl rfl rfl rfl
    | taken _ => exact h.asked (by decide) rfl rfl (by simp) rfl rfl rfl rfl
    | @opSent vq op _ hop hfull =>
        have hwritten := (htrue (some s.ref) vq (s.preparePacketHeader op 0) [] (by simp) rfl).mpr
          hfull
        refine h.step rfl rfl (by simp) rfl (fun op' _ hhas => ?_) (fun hnot => ?_) rfl h.buffered
        · by_cases heq : op' = op
          · exact Or.inr ⟨_, List.mem_cons_self, rfl, heq ▸ rfl, hwritten⟩
          · exact Or.inl (hasOp_clear heq hhas)
        · exact hasOp_clear_eq_false hnot
    | maskCleared _ hnone =>
        refine h.step rfl rfl (by simp) rfl (fun op hop hhas => ?_) (fun _ => ?_) rfl
          h.buffered
        · rw [hnone op hop] at hhas
          exact absurd hhas (by simp)
        · simp [VsockStream.hasOp]
    | dataSent _ _ _ hpend _ _ _ _ =>
        exact h.step rfl rfl (by simp) rfl (fun _ _ hhas => Or.inl hhas) id rfl
          fun _ => h.buffered hpend
    | buffered _ hconn =>
        exact h.step rfl rfl (by simp) rfl (fun _ _ hhas => Or.inl hhas) id rfl fun _ => hconn
    | plugSwitched hplug => exact h.quiet rfl rfl (by simp) (hplug hquiet).symm rfl rfl rfl
    | accepted hnew =>
        -- only a listener's stream is accepted
        obtain ⟨key, hkey⟩ := hnew
        obtain rfl : origin = .listener := ((h.created key .listener).mp hkey).2.symm
        exact
          { created := h.created_append rfl rfl (by simp)
            plugged := by simp
            opening := fun _ => Or.inl (hasOp_asked rfl)
            request := fun ho => (hasOp_of_mask_or rfl _).trans (by simp [h.request ho]; decide)
            connected := by simp
            buffered := fun _ => rfl }
    | @responded _ hdr hplug hop _ =>
        have hwritten : ∀ {es : List (Event σ P)}, (∃ e ∈ log, e.Writes api s.ref origin.opening) →
            ∃ e ∈ log ++ es, e.Writes api s.ref origin.opening := by
          rintro es ⟨e, he, hwrites⟩
          exact ⟨e, List.mem_append_left _ he, hwrites⟩
        exact
          { created := h.created_append rfl rfl (by simp)
            plugged := h.plugged
            opening := fun hsome => (h.opening hsome).imp_right hwritten
            request := h.request
            connected := fun _ _ => ⟨hdr, by simp, hop⟩
            buffered := fun _ => rfl }
    | _ => exact h.quiet rfl rfl (by simp) rfl rfl rfl rfl
  born log es s hnew hborn htrue := by
    have hcreated : ∀ key o, .created s.ref key o ∉ log := fun key o hmem => hnew _ hmem rfl
    cases hborn with
    | connected =>
        exact ⟨.connect,
          { created := fun key o => by simp [hcreated, VsockStream.key]
            plugged := fun _ => rfl
            opening := fun _ => Or.inl (hasOp_asked rfl)
            request := by simp
            connected := by simp
            buffered := fun h => absurd rfl h }⟩
    | requested =>
        exact ⟨.listener,
          { created := fun key o => by simp [hcreated, VsockStream.key]
            plugged := by simp
            opening := by simp
            request := fun _ => by simp [VsockStream.hasOp]
            connected := by simp
            buffered := fun h => absurd rfl h }⟩

/-! ### The packets of a stream -/

/-- The operation that opens the connection is the first one to leave the mask. -/
theorem VsockStream.FirstOp.eq_opening {s : VsockStream P} {op : VirtioVsockOp} {origin : Origin}
    (h : s.FirstOp op) (hhas : s.hasOp origin.opening = true)
    (hrequest : origin = .listener → s.hasOp .request = false) : op = origin.opening := by
  obtain ⟨before, after, hops, hop, hbefore⟩ := h
  have hnot : origin.opening ∉ before := fun hmem => by simp [hbefore _ hmem] at hhas
  cases before with
  | nil =>
      obtain ⟨rfl, -⟩ := List.cons.inj hops
      cases origin with
      | connect => rfl
      | listener => simp [hrequest rfl] at hop
  | cons op₀ before =>
      obtain ⟨rfl, hrest⟩ := List.cons.inj hops
      cases origin with
      | connect => exact absurd List.mem_cons_self hnot
      | listener =>
          cases before with
          | nil => exact (List.cons.inj hrest).1.symm
          | cons op₁ before =>
              obtain ⟨rfl, -⟩ := List.cons.inj hrest
              exact absurd (by simp [Origin.opening]) hnot

theorem VsockStream.FirstOp.mem_maskOps {s : VsockStream P} {op : VirtioVsockOp}
    (h : s.FirstOp op) : op ∈ maskOps := by
  obtain ⟨before, after, hops, -, -⟩ := h
  simp [hops]

theorem code_ne_rw {op : VirtioVsockOp} (h : op ∈ maskOps) : op.code ≠ VirtioVsockOp.rw.code := by
  revert h
  cases op <;> decide

section Packets

variable {log : List (Event σ P)} {s s' : VsockStream P} {origin : Origin}

/-- An operation of the mask comes in its order. -/
theorem Opened.inOrder_op (h : Opened api log s origin) (hplug : s.plug.isSome = true)
    (horphans : deliveredOrphans api log = queuedOrphans log) {op : VirtioVsockOp}
    (hop : s.FirstOp op) :
    InOrder api log s.ref s.key origin (s.preparePacketHeader op 0) where
  guestPort := rfl
  hostPort := rfl
  first hfirst := by
    rcases h.opening hplug with hhas | ⟨e, he, hwrites⟩
    · exact congrArg VirtioVsockOp.code (hop.eq_opening hhas h.request)
    · exact absurd hwrites.writesFor (hfirst e he)
  connect _ hrw := absurd hrw (code_ne_rw hop.mem_maskOps)
  listener _ hrw := absurd hrw (code_ne_rw hop.mem_maskOps)
  orphans := horphans

/-- Data comes in its order: by now the connection is open. -/
theorem Opened.inOrder_data (h : Opened api log s origin) (hplug : s.plug.isSome = true)
    (horphans : deliveredOrphans api log = queuedOrphans log) (hmask : s.sendOpMask = 0)
    (hpend : s.hostToGuestBuf.pending ≠ []) (len : UInt32) :
    InOrder api log s.ref s.key origin (s.preparePacketHeader .rw len) := by
  have hwritten : ∃ e ∈ log, e.Writes api s.ref origin.opening := by
    refine (h.opening hplug).resolve_left ?_
    simp [VsockStream.hasOp, hmask]
  exact
    { guestPort := rfl
      hostPort := rfl
      first := fun hfirst => by
        obtain ⟨e, he, hwrites⟩ := hwritten
        exact absurd hwrites.writesFor (hfirst e he)
      connect := fun ho _ => h.connected ho (h.buffered hpend)
      listener := fun ho _ => by
        subst ho
        exact hwritten
      orphans := horphans }

theorem Turn.inOrder {vq : σ} {hdr : VirtioVsockHdr} {data : List UInt8}
    (hquiet : mode.quiet = true)
    (hturn : Turn api mode log s [.call (some s.ref) vq hdr data] s')
    (h : Opened api log s origin) (horphans : deliveredOrphans api log = queuedOrphans log) :
    InOrder api log s.ref s.key origin hdr := by
  cases hturn with
  | opSent hplug hop _ => exact h.inOrder_op (hplug hquiet) horphans hop
  | opKept hplug hop _ => exact h.inOrder_op (hplug hquiet) horphans hop
  | dataSent hplug hmask _ hpend _ _ hhdr _ =>
      rw [hhdr]
      exact h.inOrder_data (hplug hquiet) horphans hmask hpend _

end Packets

/-! ### Runs -/

/-- A packet of a stream comes in the order of the incarnation that sends it. -/
def PacketInOrder (api : GoldfishVirtIOVSockDevAPI σ) (pre : List (Event σ P)) (e : Event σ P) :
    Prop :=
  ∀ ref vq hdr data, e = .call (some ref) vq hdr data → ∃ key origin,
    (∀ key' origin', .created ref key' origin' ∈ pre ↔ key' = key ∧ origin' = origin) ∧
      InOrder api pre ref key origin hdr

/-- What holds on every path. -/
structure Sequenced (api : GoldfishVirtIOVSockDevAPI σ) (x : Ctl × World σ P) : Prop where
  living : Living (Opens api) x
  ledger : Ledger api x.2
  packets : Truthful api x.2.log → Hist (PacketInOrder api) x.2.log

theorem Atom.sequenced (hquiet : mode.quiet = true) {x y : Ctl × World σ P}
    (h : Atom api mode x y) (hx : Sequenced api x) : Sequenced api y := by
  have horphan := h.orphanStep
  refine ⟨h.living (opens_lasting hquiet) hx.living, horphan.ledger hx.ledger, fun htrue => ?_⟩
  obtain ⟨es, htouched⟩ := h.turn hx.living.wf hx.living.plugged hx.living.newborn
  rw [htouched.log] at htrue ⊢
  refine hist_append.mpr ⟨hx.packets htrue.of_append, ?_⟩
  rintro pre e post rfl ref vq hdr data rfl
  cases horphan with
  | quiet es' hlog _ _ hsend =>
      obtain rfl := List.append_cancel_left (htouched.log.symm.trans hlog)
      obtain ⟨-, hnone, hone⟩ := hsend (some ref) vq hdr data (by simp)
      obtain ⟨rfl, rfl⟩ : pre = [] ∧ post = [] := by simpa [List.append_eq_singleton_iff] using hone
      obtain ⟨s, hs, rfl, s', hturn⟩ := Touched.sender hx.living.wf htouched
      obtain ⟨origin, hopened⟩ := hx.living.each s hs htrue.of_append
      have hbooks := hx.ledger.books htrue.of_append
      rw [hnone, List.append_nil] at hbooks
      refine ⟨s.key, origin, ?_, ?_⟩
      · simpa using hopened.created
      · simpa using hturn.inOrder hquiet hopened hbooks
  | sent hdr' hlog _ _ =>
      have := List.append_cancel_left (htouched.log.symm.trans hlog)
      simp [List.append_eq_singleton_iff] at this
  | kept hdr' hlog _ _ _ =>
      have := List.append_cancel_left (htouched.log.symm.trans hlog)
      simp [List.append_eq_singleton_iff] at this

/-- The actions the order is promised for: no reset, and no callback makes calls on the
device. -/
structure OrderLegal (_ : World σ P) (a : Action σ P) : Prop where
  noReset : ∀ status, a = .setStatus status → status &&& virtioConfigSNeedsReset = 0
  quiet : ∀ cb ∈ a.callbacks, cb.Quiet

/-- In every run of such actions, every packet offered for a stream comes in the order of
its incarnation, for any pattern of full queues the guest can make. -/
theorem run_inOrder {listeners : Finset UInt32} {vq : σ} {acts : List (Action σ P)}
    {w : World σ P} (hlegal : Along (step api) OrderLegal (World.realized listeners vq) acts)
    (hrun : run api (World.realized listeners vq) acts = .ok w) (htrue : Truthful api w.log) :
    Hist (PacketInOrder api) w.log := by
  have hstart : Sequenced api (.idle, (World.realized listeners vq : World σ P)) :=
    ⟨living_realized, ⟨fun _ h => absurd h List.not_mem_nil, fun _ => rfl⟩, fun _ => hist_nil⟩
  have hseq : Sequenced api (.idle, w) := by
    refine hlegal.invariant (I := fun v => Sequenced api (.idle, v)) (fun v a v' hv hok hstep => ?_)
      hstart hrun
    have hallows : Mode.Allows { quiet := true } v a :=
      { noSwitch := rfl
        quiet := fun _ => hok.quiet
        live := by simp
        keepsPlug := by simp
        onceConnected := by simp
        bounded := by simp }
    exact step_invariant (fun _ _ hab => hab.sequenced rfl) hv.living.wf hallows hok.noReset hstep hv
  exact hseq.packets htrue

/-- A connection is given up and made again, on the same ports, before the guest offers any
buffer. -/
def reconnect : List (Action VirtIOVSock Unit) :=
  [.host (.connect 1000 ()), .host (.unplug 0), .host (.connect 1000 ()),
    .guestRx ⟨3, [44, 44]⟩, .sendPackets]

/-- The history of `reconnect`: the SHUTDOWN of the first connection, then the REQUEST of the
second. -/
def reconnectLog : List (Event VirtIOVSock Unit) :=
  [.created 0 ⟨1000, 2147483649⟩ .connect, .opQueued 0 .request, .opQueued 0 .creditRequest,
    .call (some 0) ⟨3, []⟩ (preparePacketHeader 2147483649 1000 .request 0 0) [],
    .unplugged 0 (), .orphanQueued (preparePacketHeader 2147483649 1000 .shutdown 0 0), .erased 0,
    .call none ⟨3, []⟩ (preparePacketHeader 2147483649 1000 .shutdown 0 0) [],
    .created 1 ⟨1000, 2147483649⟩ .connect, .opQueued 1 .request,
    .call none ⟨3, []⟩ (preparePacketHeader 2147483649 1000 .shutdown 0 0) [],
    .call none ⟨3, [44, 44]⟩ (preparePacketHeader 2147483649 1000 .shutdown 0 0) [],
    .opQueued 1 .creditRequest,
    .call (some 1) ⟨3, [44]⟩ (preparePacketHeader 2147483649 1000 .request 0 0) [],
    .call (some 1) ⟨3, []⟩ (preparePacketHeader 2147483649 1000 .creditRequest 0 0) [], .notify]

theorem run_inOrder_reconnect : ∃ w,
    run devApi (World.realized ∅ ⟨3, []⟩) reconnect = .ok w ∧ w.log = reconnectLog ∧
      Hist (PacketInOrder devApi) w.log := by
  obtain ⟨w, hrun, hlog⟩ : ∃ w, run devApi (World.realized ∅ ⟨3, []⟩) reconnect = .ok w ∧
      w.log = reconnectLog := ⟨_, rfl, rfl⟩
  have hlegal : Along (step devApi) OrderLegal (World.realized ∅ ⟨3, []⟩) reconnect := by
    refine along_of_mem fun a ha w => ⟨fun status hstatus => ?_, fun cb hcb => ?_⟩
    · simp [reconnect, hstatus] at ha
    · simp only [reconnect, List.mem_cons, List.not_mem_nil, or_false] at ha
      rcases ha with rfl | rfl | rfl | rfl | rfl <;> cases hcb
  have htrue : Truthful devApi w.log := by
    refine truthful_devApi fun source vq hdr data hmem _ => ?_
    simp only [hlog, reconnectLog, List.mem_cons, reduceCtorEq, false_or, Event.call.injEq,
      List.not_mem_nil, or_false] at hmem
    rcases hmem with ⟨-, rfl, -⟩ | ⟨-, rfl, -⟩ | ⟨-, rfl, -⟩ | ⟨-, rfl, -⟩ | ⟨-, rfl, -⟩ |
      ⟨-, rfl, -⟩ <;> simp [VirtIOVSock.HeadFits, hdrSize]
  exact ⟨w, hrun, hlog, run_inOrder hlegal hrun htrue⟩

end Goldfish.Vsock
