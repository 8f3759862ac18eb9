import Goldfish.Vsock.Life

/-!
# Goldfish.Vsock.Lifecycle

**The life of a plug**, as `cable.h` promises it: `onConnect` is called once and before
any data arrives, a plug that refuses data is unplugged, and after `onUnplug` (or after
the plug hung up) a stream makes no further callback (`PlugLifecycle`). Callbacks may
call back into the device.

The device keeps the promise as long as the guest answers a connection request once.
A RESPONSE for a stream that is connected already calls `onConnect` again
(`connected_twice`).
-/

namespace Goldfish.Vsock

open Goldfish.Lib

variable {σ P : Type} {api : GoldfishVirtIOVSockDevAPI σ} {mode : Mode}

/-! ### The promise -/

/-- The event ends the callbacks of a stream. -/
def Event.Ends (ref : Ref) : Event σ P → Prop
  | .onUnplug s _ => s = ref
  | .unplugged s _ => s = ref
  | _ => False

/-- A callback is made in its place. -/
structure InPlace (pre : List (Event σ P)) (e : Event σ P) : Prop where
  connect : ∀ ref p, e = .onConnect ref p → ∀ q, .onConnect ref q ∉ pre
  receive : ∀ ref p data, e = .onReceive ref p data → ∃ q, .onConnect ref q ∈ pre
  silent : ∀ ref, e.isCallback = true → e.ref? = some ref → ∀ e' ∈ pre, ¬ e'.Ends ref

/-- What `cable.h` promises a plug. -/
structure PlugLifecycle (w : World σ P) : Prop where
  callbacks : Hist InPlace w.log
  refused : ∀ pre ref p post, w.log = pre ++ .refused ref p :: post →
    ∃ post', post = .onUnplug ref p :: post'
  gone : ∀ ref, ∀ e ∈ w.log, e.Ends ref → ∀ s ∈ w.mStreams, s.ref ≠ ref

theorem inPlace_of_silent {pre : List (Event σ P)} {e : Event σ P} (h : e.isCallback = false) :
    InPlace pre e where
  connect ref p he := by simp [he, Event.isCallback] at h
  receive ref p data he := by simp [he, Event.isCallback] at h
  silent ref hc := by simp [h] at hc

/-! ### Connected streams -/

/-- A stream is connected once `onConnect` was called. -/
def Connected (log : List (Event σ P)) (s : VsockStream P) : Prop :=
  s.isConnected = true ↔ ∃ p, .onConnect s.ref p ∈ log

theorem Connected.quiet {log es : List (Event σ P)} {s s' : VsockStream P} (h : Connected log s)
    (href : s'.ref = s.ref) (hconn : s'.isConnected = s.isConnected)
    (hes : ∀ p, .onConnect s.ref p ∉ es) : Connected (log ++ es) s' := by
  unfold Connected
  rw [hconn, href]
  simp only [List.mem_append, hes, or_false]
  exact h

theorem connected_lasting : Lasting api mode (Connected (σ := σ) (P := P)) where
  frame log es s hother h := h.quiet rfl rfl fun p hmem => hother _ hmem rfl
  turn log es s s' hturn h := by
    cases hturn with
    | @accepted plug hdr _ => exact ⟨fun _ => ⟨plug, by simp⟩, fun _ => rfl⟩
    | @responded plug hdr _ _ _ => exact ⟨fun _ => ⟨plug, by simp⟩, fun _ => rfl⟩
    | _ => exact h.quiet rfl rfl (by simp)
  born log es s hnew hborn := by
    have hstart : s.isConnected = false → Connected log s := by
      intro hno
      refine ⟨fun h => by simp [hno] at h, fun ⟨p, hp⟩ => ?_⟩
      exact absurd rfl (hnew _ hp)
    cases hborn with
    | connected => exact (hstart rfl).quiet rfl rfl (by simp)
    | requested => exact (hstart rfl).quiet rfl rfl (by simp)

/-! ### The invariant -/

/-- The promise inside of an action. -/
structure Cycle (x : Ctl × World σ P) : Prop where
  living : Living Connected x
  /-- A stream whose listener is being asked is not connected. -/
  newborn : ∀ ref, x.1 = .accepting ref → ∀ p, .onConnect ref p ∉ x.2.log
  /-- The callbacks of a stream end with it. -/
  ends : ∀ s ∈ x.2.mStreams, x.1 ≠ .closing s.ref → ∀ e ∈ x.2.log, ¬ e.Ends s.ref
  callbacks : Hist InPlace x.2.log
  /-- A plug that has just refused is still there, and is the next to be unplugged. -/
  refused : ∀ pre ref p post, x.2.log = pre ++ .refused ref p :: post →
    (post = [] ∧ x.1 = .refused ref ∧ ∀ s ∈ x.2.mStreams, s.ref = ref → s.plug = some p) ∨
      ∃ post', post = .onUnplug ref p :: post'

/-- The turn that ends the callbacks of a stream is a callback itself. -/
theorem Turn.ends {log es : List (Event σ P)} {s s' : VsockStream P}
    (h : Turn api mode log s es s') :
    ∀ e ∈ es, e.Ends s.ref → e.isCallback = true := by
  cases h <;> simp [Event.Ends, Event.isCallback]

theorem Born.ends {s : VsockStream P} {es : List (Event σ P)} (h : Born es s) :
    ∀ e ∈ es, ¬ e.Ends s.ref := by
  cases h <;> simp [Event.Ends]

theorem Event.ref_of_ends {e : Event σ P} {ref : Ref} (h : e.Ends ref) : e.ref? = some ref := by
  cases e with
  | onUnplug s p => exact congrArg some h
  | unplugged s p => exact congrArg some h
  | _ => exact h.elim

section Cycle

variable {x y : Ctl × World σ P} {es : List (Event σ P)}

/-- What a step has to show to keep the promise. -/
theorem Cycle.step (hx : Cycle x) (hliving : Living Connected y)
    (htouched : Touched api mode x.2 y.2 es)
    (hclosing : ∀ t ∈ y.2.mStreams, x.1 = .closing t.ref → y.1 = .closing t.ref)
    (hends : ∀ t ∈ y.2.mStreams, y.1 ≠ .closing t.ref → ∀ e ∈ es, ¬ e.Ends t.ref)
    (hnewborn : ∀ ref, y.1 = .accepting ref → (x.1 = .accepting ref ∨ ref = x.2.nextRef) ∧
      ∀ p, .onConnect ref p ∉ es)
    (hcallbacks : Hist (fun pre e => InPlace (x.2.log ++ pre) e) es)
    (hrefused : ∀ pre ref p post, x.2.log ++ es = pre ++ .refused ref p :: post →
      (post = [] ∧ y.1 = .refused ref ∧ ∀ s ∈ y.2.mStreams, s.ref = ref → s.plug = some p) ∨
        ∃ post', post = .onUnplug ref p :: post') : Cycle y where
  living := hliving
  newborn ref hc p hmem := by
    rw [htouched.log] at hmem
    obtain ⟨hold, hnone⟩ := hnewborn ref hc
    rcases List.mem_append.mp hmem with hmem | hmem
    · rcases hold with hold | rfl
      · exact hx.newborn ref hold p hmem
      · exact (hx.living.old _ hmem x.2.nextRef rfl).ne rfl
    · exact hnone p hmem
  ends t ht hc e he hend := by
    rw [htouched.log] at he
    rcases List.mem_append.mp he with he | he
    · have hopen : x.1 ≠ .closing t.ref := fun h => hc (hclosing t ht h)
      rcases htouched.streams t ht with ⟨ht, -⟩ | ⟨s, hs, href, -⟩ | ⟨hnew, -⟩
      · exact hx.ends t ht hopen e he hend
      · rw [← href] at hopen hend
        exact hx.ends s hs hopen e he hend
      · exact (hx.living.old e he t.ref (Event.ref_of_ends hend)).ne hnew
    · exact hends t ht hc e he hend
  callbacks := by
    rw [htouched.log, hist_append]
    exact ⟨hx.callbacks, hcallbacks⟩
  refused := by
    rw [htouched.log]
    exact hrefused

/-- A refusal that is not among the new events. -/
theorem refused_split {log pre post : List (Event σ P)} {ref : Ref} {p : P}
    (h : log ++ es = pre ++ .refused ref p :: post) (hes : .refused ref p ∉ es) :
    ∃ bs, log = pre ++ .refused ref p :: bs ∧ post = bs ++ es := by
  rcases List.append_eq_append_iff.mp h with ⟨as, -, rfl⟩ | ⟨bs, hlog, hbs⟩
  · exact absurd (by simp) hes
  · cases bs with
    | nil =>
        rw [List.nil_append] at hbs
        exact absurd (hbs ▸ List.mem_cons_self) hes
    | cons b bs =>
        obtain ⟨rfl, rfl⟩ := List.cons.inj hbs
        exact ⟨bs, hlog, rfl⟩

/-- A plug that refused some time ago was unplugged. -/
theorem Cycle.refused_append (hx : Cycle x) (hc : ∀ ref, x.1 ≠ .refused ref)
    {pre post : List (Event σ P)} {ref : Ref} {p : P}
    (h : x.2.log ++ es = pre ++ .refused ref p :: post) (hes : .refused ref p ∉ es) :
    ∃ post', post = .onUnplug ref p :: post' := by
  obtain ⟨bs, hlog, rfl⟩ := refused_split h hes
  rcases hx.refused pre ref p bs hlog with ⟨-, hcontra, -⟩ | ⟨post', rfl⟩
  · exact absurd hcontra (hc ref)
  · exact ⟨post' ++ es, rfl⟩

/-- A callback for a live stream. -/
theorem Cycle.inPlace (hx : Cycle x) {s : VsockStream P} (hs : s ∈ x.2.mStreams)
    (hc : x.1 ≠ .closing s.ref) {pre : List (Event σ P)} {e : Event σ P}
    (hpre : ∀ e' ∈ pre, e'.isCallback = false ∧ ¬ e'.Ends s.ref) (href : e.ref? = some s.ref)
    (hconnect : ∀ p, e = .onConnect s.ref p → ∀ q, .onConnect s.ref q ∉ x.2.log)
    (hreceive : ∀ p data, e = .onReceive s.ref p data → ∃ q, .onConnect s.ref q ∈ x.2.log) :
    InPlace (x.2.log ++ pre) e where
  connect ref p he q hq := by
    subst he
    obtain rfl := Option.some.inj href
    rcases List.mem_append.mp hq with hq | hq
    · exact hconnect p rfl q hq
    · simpa [Event.isCallback] using (hpre _ hq).1
  receive ref p data he := by
    subst he
    obtain rfl := Option.some.inj href
    obtain ⟨q, hq⟩ := hreceive p data rfl
    exact ⟨q, List.mem_append_left _ hq⟩
  silent ref _ href' e' he' := by
    obtain rfl := Option.some.inj (href.symm.trans href')
    rcases List.mem_append.mp he' with he' | he'
    · exact hx.ends s hs hc e' he'
    · exact (hpre e' he').2

/-- A step without callbacks. -/
theorem Cycle.silent (hx : Cycle x) (hliving : Living Connected y)
    (htouched : Touched api mode x.2 y.2 es) (hes : ∀ e ∈ es, e.isCallback = false)
    (hc : ∀ ref, x.1 ≠ .refused ref)
    (hclosing : ∀ t ∈ y.2.mStreams, x.1 = .closing t.ref → y.1 = .closing t.ref)
    (hnewborn : ∀ ref, y.1 = .accepting ref → x.1 = .accepting ref ∨ ref = x.2.nextRef) :
    Cycle y := by
  have hno : ∀ e : Event σ P, e.isCallback = true → e ∉ es := by
    intro e he hmem
    simp [hes e hmem] at he
  refine hx.step hliving htouched hclosing (fun t ht _ e he hend => ?_)
    (fun ref hy => ⟨hnewborn ref hy, fun p => hno _ rfl⟩)
    (hist_of_forall fun pre e he => inPlace_of_silent (hes e he))
    fun pre ref p post hlog => Or.inr (hx.refused_append hc hlog (hno _ rfl))
  rcases htouched.streams t ht with ⟨-, hother⟩ | ⟨s, -, href, hturn⟩ | ⟨-, hborn⟩
  · exact hother e he (Event.ref_of_ends hend)
  · exact hno e (hturn.ends e he (href ▸ hend)) he
  · exact hborn.ends e he hend

end Cycle

theorem Atom.cycle {x y : Ctl × World σ P} (h : Atom api mode x y)
    (honce : mode.onceConnected = true) (hkeeps : mode.keepsPlug = true) (hx : Cycle x) :
    Cycle y := by
  have hliving := h.living connected_lasting hx.living
  obtain ⟨es, htouched⟩ := h.turn hx.living.wf hx.living.plugged hx.living.newborn
  have hlog := htouched.log
  have hsilent : ∀ es', y.2.log = x.2.log ++ es' → (∀ e ∈ es', e.isCallback = false) →
      (∀ ref, x.1 ≠ .refused ref) →
      (∀ t ∈ y.2.mStreams, x.1 = .closing t.ref → y.1 = .closing t.ref) →
      (∀ ref, y.1 = .accepting ref → x.1 = .accepting ref ∨ ref = x.2.nextRef) → Cycle y := by
    intro es' hlog' hes' hc hclosing hnewborn
    obtain rfl := List.append_cancel_left (hlog.symm.trans hlog')
    exact hx.silent hliving htouched hes' hc hclosing hnewborn
  cases h with
  | host h _ hc =>
      obtain ⟨es', hlog', hes'⟩ := h.silent
      exact hsilent es' hlog' hes' hc (fun _ _ h => h) fun _ h => Or.inl h
  | guestRx => exact hsilent [] (List.append_nil _).symm (by simp) (by simp) (by simp) (by simp)
  | header _ => exact hsilent _ rfl (by simp [Event.isCallback]) (by simp) (by simp) (by simp)
  | creditAsked _ => exact hsilent _ rfl (by simp [Event.isCallback]) (by simp) (by simp) (by simp)
  | resetQueued => exact hsilent _ rfl (by simp [Event.isCallback]) (by simp) (by simp) (by simp)
  | requested _ hemplace =>
      exact hsilent _ (emplace_log hemplace) (by simp [Event.isCallback]) (by simp) (by simp)
        (by simp [eq_comm])
  | declined _ => exact hsilent _ rfl (by simp [Event.isCallback]) (by simp) (by simp) (by simp)
  | sniffed => exact hsilent _ rfl (by simp [Event.isCallback]) (by simp) (by simp) (by simp)
  | taken _ => exact hsilent _ rfl (by simp [Event.isCallback]) (by simp) (by simp) (by simp)
  | @recycled w w' s op hs hrecycle =>
      refine hsilent _ (by rw [erase_log, recycleStreamQuietly_log hrecycle, List.append_assoc]) ?_
        (by simp) (fun t ht hc => ?_) (by simp)
      · intro e he
        split at he <;> simp at he <;> rcases he with rfl | rfl <;> rfl
      · -- the stream that was closing is gone
        obtain ⟨ht, hkey⟩ := StdSet.mem_erase.mp ht
        rw [(recycleStreamQuietly_mStreams hrecycle).1] at ht
        have href : t.ref = s.ref := by simpa [eq_comm] using hc
        exact absurd (by rw [hx.living.wf.ref_inj t ht s hs href]) hkey
  | accepted hs =>
      obtain rfl := List.append_cancel_left (hlog.symm.trans afterAccept_log)
      refine hx.step hliving htouched (by simp) (by simp [Event.Ends]) (by simp) ?_
        fun pre ref p post h => Or.inr (hx.refused_append (by simp) h (by simp))
      simp only [hist_cons, hist_nil, and_true]
      refine ⟨inPlace_of_silent rfl, inPlace_of_silent rfl, ?_⟩
      exact hx.inPlace hs (by simp) (by simp [Event.isCallback, Event.Ends]) rfl
        (fun _ _ => hx.newborn _ rfl) (by simp)
  | responded hs _ _ hfresh =>
      obtain rfl := List.append_cancel_left (hlog.symm.trans afterResponse_log)
      have hnone := mt (hx.living.each _ hs).mpr (by simp [hfresh honce])
      refine hx.step hliving htouched (by simp) (by simp [Event.Ends]) (by simp) ?_
        fun pre ref p post h => Or.inr (hx.refused_append (by simp) h (by simp))
      simp only [hist_cons, hist_nil, and_true]
      refine ⟨inPlace_of_silent rfl, ?_⟩
      exact hx.inPlace hs (by simp) (by simp [Event.isCallback, Event.Ends]) rfl
        (fun _ _ q hq => hnone ⟨q, hq⟩) (by simp)
  | @handed w s plug data hs hconn _ =>
      obtain rfl : es = [.onReceive s.ref plug data] := List.append_cancel_left hlog.symm
      refine hx.step hliving htouched (by simp) (by simp [Event.Ends]) (by simp) ?_
        fun pre ref p post h => Or.inr (hx.refused_append (by simp) h (by simp))
      simp only [hist_cons, hist_nil, and_true]
      exact hx.inPlace hs (by simp) (by simp) rfl (by simp)
        fun _ _ _ => (hx.living.each s hs).mp hconn
  | @refused w s plug hs hplug =>
      obtain rfl : es = [.refused s.ref plug] := List.append_cancel_left hlog.symm
      refine hx.step hliving htouched (by simp) (by simp [Event.Ends]) (by simp) ?_ ?_
      · simp only [hist_cons, hist_nil, and_true]
        exact hx.inPlace hs (by simp) (by simp) rfl (by simp) (by simp)
      · intro pre ref p post h
        rcases List.eq_nil_or_concat post with rfl | ⟨post', e, rfl⟩
        · obtain ⟨-, hlast⟩ := List.append_inj' h rfl
          obtain ⟨rfl, rfl⟩ : s.ref = ref ∧ plug = p := by simpa using hlast
          refine Or.inl ⟨rfl, rfl, fun t ht href => ?_⟩
          rw [hx.living.wf.ref_inj t ht s hs href]
          exact hplug hkeeps
        · rw [List.concat_eq_append, ← List.cons_append, ← List.append_assoc] at h
          obtain ⟨hpre, -⟩ := List.append_inj' h rfl
          have hold : w.log ++ [] = pre ++ .refused ref p :: post' := by simpa using hpre
          obtain ⟨post'', rfl⟩ := hx.refused_append (by simp) hold (by simp)
          exact Or.inr ⟨post'' ++ [e], by simp⟩
  | @unplugging c w s plug hs hplug hc =>
      obtain rfl : es = [.onUnplug s.ref plug] := List.append_cancel_left hlog.symm
      have hopen : c ≠ .closing s.ref := by rcases hc with rfl | rfl <;> simp
      refine hx.step hliving htouched ?_ ?_ (by simp) ?_ fun pre ref p post h => Or.inr ?_
      · rintro t - rfl
        rcases hc with hc | hc <;> cases hc
      · intro t _ hne e he hend
        obtain rfl := List.mem_singleton.mp he
        exact hne (congrArg Ctl.closing hend)
      · simp only [hist_cons, hist_nil, and_true]
        exact hx.inPlace hs hopen (by simp) rfl (by simp) (by simp)
      · obtain ⟨bs, hlog', rfl⟩ := refused_split h (by simp)
        rcases hx.refused pre ref p bs hlog' with ⟨rfl, hrefused, hp⟩ | ⟨post', rfl⟩
        · obtain rfl : s.ref = ref := by
            rcases hc with rfl | rfl
            · cases hrefused
            · exact Ctl.refused.inj hrefused
          obtain rfl : plug = p := Option.some.inj (hplug.symm.trans (hp s hs rfl))
          exact ⟨[], rfl⟩
        · exact ⟨post' ++ [.onUnplug s.ref plug], rfl⟩

/-! ### Runs -/

/-- The actions the promise is made for: no reset, no RESPONSE for a stream that is
connected already, and no `onReceive` that replaces the plug it belongs to. -/
structure LifecycleLegal (w : World σ P) (a : Action σ P) : Prop where
  noReset : ∀ status, a = .setStatus status → status &&& virtioConfigSNeedsReset = 0
  onceConnected : ∀ hdr cb, a = .control hdr cb → hdr.op = VirtioVsockOp.response.code →
    ∀ s ∈ w.mStreams, s.key = ⟨hdr.srcPort, hdr.dstPort⟩ → s.isConnected = false
  keepsPlug : ∀ cb ∈ a.callbacks, cb.KeepsPlug

/-- In every run of such actions the promise is kept in every state reached. -/
theorem run_lifecycle {listeners : Finset UInt32} {vq : σ} {acts : List (Action σ P)}
    {w : World σ P} (hlegal : Along (step api) LifecycleLegal (World.realized listeners vq) acts)
    (hrun : run api (World.realized listeners vq) acts = .ok w) : PlugLifecycle w := by
  have hstart : Cycle (.idle, (World.realized listeners vq : World σ P)) := by
    refine ⟨living_realized, by simp, fun s hs => absurd hs (StdSet.not_mem_empty s), hist_nil, ?_⟩
    intro pre ref p post h
    simp [World.realized] at h
  have hcycle : Cycle (.idle, w) := by
    refine hlegal.invariant (I := fun v => Cycle (.idle, v)) (fun v a v' hv hok hstep => ?_)
      hstart hrun
    have hallows : Mode.Allows { onceConnected := true, keepsPlug := true } v a :=
      { noSwitch := rfl
        quiet := by simp
        live := by simp
        keepsPlug := fun _ => hok.keepsPlug
        onceConnected := fun _ => hok.onceConnected
        bounded := by simp }
    exact step_invariant (fun _ _ hab => hab.cycle rfl rfl) hv.living.wf hallows hok.noReset hstep hv
  refine ⟨hcycle.callbacks, fun pre ref p post h => ?_, fun ref e he hend s hs href => ?_⟩
  · rcases hcycle.refused pre ref p post h with ⟨-, hc, -⟩ | hpost
    · cases hc
    · exact hpost
  · exact hcycle.ends s hs (by simp) e he (href ▸ hend)

/-- A connection is accepted and gets some data, which its plug refuses. -/
def refuseData : List (Action VirtIOVSock Unit) :=
  [.host (.connect 1000 ()), .control (guestHeader 1000 2147483649 .response 0 8 0) {},
    .rw (guestHeader 1000 2147483649 .rw 1 8 0) [[7]] { onReceive := fun _ => ([], false) }]

theorem run_lifecycle_refuseData : ∃ w,
    run devApi (World.realized ∅ ⟨3, []⟩) refuseData = .ok w ∧ PlugLifecycle w ∧
      w.mStreams.elems = [] := by
  obtain ⟨w, hrun, hempty⟩ : ∃ w, run devApi (World.realized ∅ ⟨3, []⟩) refuseData = .ok w ∧
      w.mStreams.elems = [] := ⟨_, rfl, rfl⟩
  have hlegal : Along (step devApi) LifecycleLegal (World.realized ∅ ⟨3, []⟩) refuseData := by
    refine Along.cons ⟨by simp, by simp, by simp [Action.callbacks]⟩ rfl ?_
    refine Along.cons ⟨by simp, fun _ _ _ _ s hs _ => ?_, ?_⟩ rfl ?_
    · obtain rfl := List.mem_singleton.mp hs
      rfl
    · simp [Action.callbacks, Callbacks.KeepsPlug]
    · refine Along.cons ⟨by simp, by simp, ?_⟩ rfl trivial
      simp [Action.callbacks, Callbacks.KeepsPlug]
  exact ⟨w, hrun, run_lifecycle hlegal hrun, hempty⟩

/-- A guest answers a connection request twice, and the plug is told twice. -/
theorem connected_twice : ∃ w : World VirtIOVSock Unit,
    run devApi (World.realized ∅ ⟨3, []⟩) [.host (.connect 1000 ()),
      .control (guestHeader 1000 2147483649 .response 0 8 0) {},
      .control (guestHeader 1000 2147483649 .response 0 8 0) {}] = .ok w ∧
      (∃ pre post, w.log = pre ++ .onConnect 0 () :: post ∧ .onConnect 0 () ∈ pre) ∧
      ¬ PlugLifecycle w := by
  obtain ⟨w, hrun, pre, post, hlog, hmem⟩ : ∃ w : World VirtIOVSock Unit,
      run devApi (World.realized ∅ ⟨3, []⟩) [.host (.connect 1000 ()),
        .control (guestHeader 1000 2147483649 .response 0 8 0) {},
        .control (guestHeader 1000 2147483649 .response 0 8 0) {}] = .ok w ∧
      ∃ pre post, w.log = pre ++ .onConnect 0 () :: post ∧ .onConnect 0 () ∈ pre := by
    refine ⟨_, rfl, [.created 0 ⟨1000, 2147483649⟩ .connect, .opQueued 0 .request,
      .opQueued 0 .creditRequest,
      .call (some 0) ⟨3, []⟩ (preparePacketHeader 2147483649 1000 .request 0 0) [],
      .received 0 (guestHeader 1000 2147483649 .response 0 8 0), .onConnect 0 (),
      .received 0 (guestHeader 1000 2147483649 .response 0 8 0)], [], rfl, by simp⟩
  refine ⟨w, hrun, ⟨pre, post, hlog, hmem⟩, fun h => ?_⟩
  exact (h.callbacks pre _ post hlog).connect 0 () rfl () hmem

end Goldfish.Vsock
