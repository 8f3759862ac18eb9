import Goldfish.Input.PointerEvents

/-!
# Goldfish.Input.Contacts

**What the guest makes of the contacts** of one display. The guest decodes the events of type B
(`Lib/EvDev.lean`), the registry says which identifier has which slot, and `Shows` says that the two
agree.

A touch of a known identifier and an expiry select the slot they write to. A touch that begins a
contact sends the tracking id *before* it selects the slot, so the tracking id
ends up in the slot that happens to be selected. This is the right one exactly if the slot
that is free is already selected, which is what `BeginsSelected` asks of a call.
-/

namespace Goldfish.Input

open Goldfish.Lib Goldfish.Lib.EvDev

variable {Time Duration : Type}

/-! ### One display -/

/-- The scaled position and the pressure of a touch. -/
structure Report where
  x : UInt32
  y : UInt32
  pressure : UInt32
deriving DecidableEq, Repr

/-- What a touch reports on a display of a given size. -/
def Touch.report (t : Touch) (w h : UInt32) : Report where
  x := scaleAxis t.x 0 w
  y := scaleAxis t.y 0 h
  pressure := t.pressure

/-- What a slot of the guest holds. -/
def slotReport (g : Guest) (slot : UInt32) : Report where
  x := g.axes slot .ABS_MT_POSITION_X
  y := g.axes slot .ABS_MT_POSITION_Y
  pressure := g.axes slot .ABS_MT_PRESSURE

/-- The last report for each identifier. -/
abbrev Reports := UInt32 → Option Report

/-- The reports after the elements of an event. -/
def Reports.note (w h : UInt32) (reports : Reports) : List (Pointer × Time) → Reports
  | [] => reports
  | (p, _) :: pointers =>
      Reports.note w h
        (Function.update reports p.toTouch.identifier (some (p.toTouch.report w h))) pointers

/-- A dispatcher with one display: the registry, the guest, and what was reported. -/
structure Screen (Time Duration : Type) where
  registry : SlotRegistry Time Duration
  guest : Guest
  reports : Reports

/-- Nothing was sent yet. -/
def Screen.init (slotExpiration : Duration) : Screen Time Duration where
  registry := SlotRegistry.init slotExpiration
  guest := Guest.init
  reports := fun _ => none

section Clock

variable [HAdd Time Duration Time]

/-- A call of `sendEvents`, as far as its `SYN_REPORT`. -/
def Screen.step [LT Time] [DecidableLT Time] (s : Screen Time Duration) (c : Call Time) :
    Except Fault (Screen Time Duration) := do
  let (events, registry) ← sendEvents c s.registry
  return {
    registry := registry
    guest := s.guest.receiveAll events
    reports := s.reports.note c.w c.h c.pointers }

/-- Each touch that begins a contact finds the first free slot selected in the guest. -/
def BeginsSelected (w h : UInt32) :
    List (Pointer × Time) → SlotRegistry Time Duration → Guest → Prop
  | [], _, _ => True
  | (p, now) :: pointers, r, g =>
      (p.toTouch.pressure ≠ 0 → r.isIdentifierRegistered p.toTouch.identifier = false →
        r.findNextFreeSlot = g.current.toNat) ∧
      BeginsSelected w h pointers (p.toEvDevEvents w h r now).2
        (g.receiveAll (p.toEvDevEvents w h r now).1)

instance decidableBeginsSelected (w h : UInt32) :
    ∀ (pointers : List (Pointer × Time)) (r : SlotRegistry Time Duration) (g : Guest),
      Decidable (BeginsSelected w h pointers r g)
  | [], _, _ => inferInstanceAs (Decidable True)
  | (_, _) :: pointers, _, _ =>
      have := decidableBeginsSelected w h pointers
      inferInstanceAs (Decidable (_ ∧ _))

/-- The condition on a call. -/
def Screen.Selected (s : Screen Time Duration) (c : Call Time) : Prop :=
  BeginsSelected c.w c.h c.pointers s.registry s.guest

instance Screen.decidableSelected (s : Screen Time Duration) (c : Call Time) : Decidable (s.Selected c) :=
  inferInstanceAs (Decidable (BeginsSelected ..))

end Clock

/-! ### What the events do to the guest -/

/-- A touch writes its report. -/
theorem Touch.slotWrites_report (t : Touch) (w h : UInt32) :
    written .ABS_MT_POSITION_X (t.slotWrites w h) = some (t.report w h).x ∧
    written .ABS_MT_POSITION_Y (t.slotWrites w h) = some (t.report w h).y ∧
    written .ABS_MT_PRESSURE (t.slotWrites w h) = some (t.report w h).pressure := by
  simp only [Touch.slotWrites, Touch.slotEvents, List.cons_append, List.nil_append, List.tail_cons,
    written_append]
  split <;> split <;> split <;> split <;> simp [written, Touch.report]

/-- A touch writes its slot and no other. -/
theorem axes_slotEvents (g : Guest) (t : Touch) (w h slot s : UInt32) (code : EvCode) :
    (g.receiveAll (t.slotEvents w h slot)).axes s code =
      if s = slot then (written code (t.slotWrites w h)).getD (g.axes s code) else g.axes s code := by
  rw [t.slotEvents_eq, Guest.receiveAll_cons, Guest.receive_select,
    Guest.axes_receiveAll (t.slotWrites_noSelect w h)]

theorem active_slotEvents (g : Guest) (t : Touch) (w h slot s : UInt32) :
    (g.receiveAll (t.slotEvents w h slot)).Active s ↔
      g.Active s ∧ (s = slot → t.pressure ≠ 0) := by
  unfold Guest.Active
  rw [axes_slotEvents, t.slotWrites_trackingId]
  by_cases hs : s = slot
  · by_cases hp : t.pressure = 0
    · simp [hs, hp, MTS_POINTER_UP]
    · simp [hs, hp]
  · simp [hs]

theorem slotReport_slotEvents (g : Guest) (t : Touch) (w h slot s : UInt32) :
    slotReport (g.receiveAll (t.slotEvents w h slot)) s =
      if s = slot then t.report w h else slotReport g s := by
  obtain ⟨hx, hy, hpressure⟩ := t.slotWrites_report w h
  simp only [slotReport, axes_slotEvents, hx, hy, hpressure, Option.getD_some]
  split <;> rfl

/-- A tracking id goes to the slot that is selected. -/
theorem active_trackingId (g : Guest) (v s : UInt32) :
    (g.receive ⟨.EV_ABS, .ABS_MT_TRACKING_ID, v⟩).Active s ↔
      if s = g.current then 0 ≤ v.toInt32 else g.Active s := by
  unfold Guest.Active
  rw [g.axes_receive (by decide)]
  by_cases hs : s = g.current <;> simp [hs]

theorem slotReport_trackingId (g : Guest) (v s : UInt32) :
    slotReport (g.receive ⟨.EV_ABS, .ABS_MT_TRACKING_ID, v⟩) s = slotReport g s := by
  simp [slotReport, g.axes_receive]

/-- The events of an expiry lift the contact of their slot. -/
theorem active_upEvents (g : Guest) (slot s : UInt32) :
    (g.receiveAll (SlotRegistry.upEvents slot)).Active s ↔ g.Active s ∧ s ≠ slot := by
  rw [SlotRegistry.upEvents, Guest.receiveAll_cons, Guest.receive_select, Guest.receiveAll_cons,
    Guest.receiveAll_nil, active_trackingId]
  by_cases hs : s = slot
  · simp [hs, MTS_POINTER_UP]
  · simp [hs, Guest.Active]

theorem slotReport_upEvents (g : Guest) (slot s : UInt32) :
    slotReport (g.receiveAll (SlotRegistry.upEvents slot)) s = slotReport g s := by
  rw [SlotRegistry.upEvents, Guest.receiveAll_cons, Guest.receive_select, Guest.receiveAll_cons,
    Guest.receiveAll_nil, slotReport_trackingId]
  rfl

/-- The tool of a pen is nothing that a contact shows. -/
theorem receiveAll_toolEvents (g : Guest) (p : Pointer) :
    (g.receiveAll p.toolEvents).current = g.current ∧
    (∀ s, (g.receiveAll p.toolEvents).Active s ↔ g.Active s) ∧
    ∀ s, slotReport (g.receiveAll p.toolEvents) s = slotReport g s := by
  have hnone : NoSelect p.toolEvents ∧ ∀ code, code ≠ .ABS_MT_TOOL_TYPE →
      written code p.toolEvents = none := by
    cases p with
    | touch t => exact ⟨noSelect_nil, fun _ _ => rfl⟩
    | pen p =>
      simp only [Pointer.toolEvents, Pen.toolEvents]
      split
      all_goals
        refine ⟨by simp, fun code hcode => ?_⟩
        simp [written, hcode.symm]
  have haxes (s : UInt32) {code : EvCode} (hcode : code ≠ .ABS_MT_TOOL_TYPE) :
      (g.receiveAll p.toolEvents).axes s code = g.axes s code := by
    rw [Guest.axes_receiveAll hnone.1, hnone.2 code hcode, Option.getD_none, ite_self]
  refine ⟨Guest.current_receiveAll hnone.1 g, fun s => ?_, fun s => ?_⟩
  · unfold Guest.Active
    rw [haxes s (by decide)]
  · simp [slotReport, haxes]

/-! ### The guest shows the registry -/

/-- The active slots are those of the registry, and each holds the last report for its identifier. -/
structure Shows (r : SlotRegistry Time Duration) (g : Guest) (reports : Reports) : Prop where
  active : ∀ slot, g.Active slot ↔ ∃ id n, r.mIdMap.lookup id = some n ∧ UInt32.ofNat n = slot
  report : ∀ id n, r.mIdMap.lookup id = some n → reports id = some (slotReport g (UInt32.ofNat n))

section Shows

variable {r : SlotRegistry Time Duration} {g : Guest} {reports : Reports}

theorem shows_init (slotExpiration : Duration) :
    Shows (SlotRegistry.init slotExpiration : SlotRegistry Time Duration) Guest.init (fun _ => none) where
  active := by
    intro slot
    simp [SlotRegistry.init, Guest.Active, Guest.init]
  report := by simp [SlotRegistry.init]

/-- The tool of a pen changes nothing. -/
theorem Shows.tool (h : Shows r g reports) (p : Pointer) :
    Shows r (g.receiveAll p.toolEvents) reports where
  active := fun slot => ((receiveAll_toolEvents g p).2.1 slot).trans (h.active slot)
  report := fun id n hid => by
    rw [(receiveAll_toolEvents g p).2.2]
    exact h.report id n hid

/-- A contact moves. -/
theorem Shows.move (h : Shows r g reports) (hr : r.WF) (t : Touch) {n : Nat}
    (hid : r.mIdMap.lookup t.identifier = some n) (hp : t.pressure ≠ 0) (w h' : UInt32) :
    Shows r (g.receiveAll (t.slotEvents w h' (UInt32.ofNat n)))
      (Function.update reports t.identifier (some (t.report w h'))) where
  active := by
    intro slot
    rw [active_slotEvents, h.active]
    exact and_iff_left fun _ => hp
  report := by
    intro id m hid'
    rw [slotReport_slotEvents, Function.update_apply]
    by_cases heq : id = t.identifier
    · rw [heq, hid] at hid'
      rw [if_pos heq, if_pos (by rw [Option.some.inj hid'])]
    · rw [if_neg heq, if_neg (hr.slot_ne hid hid' heq)]
      exact h.report id m hid'

/-- A contact ends: its slot is left out, in the guest as in the registry. -/
theorem Shows.lift (h : Shows r g reports) (hr : r.WF) {id : UInt32} {n : Nat}
    (hid : r.mIdMap.lookup id = some n) {r' : SlotRegistry Time Duration} {g' : Guest} {reports' : Reports}
    (hmap : ∀ id', r'.mIdMap.lookup id' = if id' = id then none else r.mIdMap.lookup id')
    (hactive : ∀ s, g'.Active s ↔ g.Active s ∧ s ≠ UInt32.ofNat n)
    (hreport : ∀ s ≠ UInt32.ofNat n, slotReport g' s = slotReport g s)
    (hreports : ∀ id' ≠ id, reports' id' = reports id') : Shows r' g' reports' := by
  constructor
  case active =>
    intro slot
    rw [hactive, h.active]
    constructor
    · intro hshown
      obtain ⟨⟨id', m, hid', rfl⟩, hne⟩ := hshown
      refine ⟨id', m, ?_, rfl⟩
      rw [hmap, if_neg (fun heq => hne ?_)]
      · exact hid'
      · rw [heq, hid] at hid'
        rw [Option.some.inj hid']
    · intro hregistered
      obtain ⟨id', m, hid', rfl⟩ := hregistered
      rw [hmap] at hid'
      split_ifs at hid' with hne
      exact ⟨⟨id', m, hid', rfl⟩, hr.slot_ne hid hid' hne⟩
  case report =>
    intro id' m hid'
    rw [hmap] at hid'
    split_ifs at hid' with hne
    rw [hreports id' hne, hreport _ (hr.slot_ne hid hid' hne)]
    exact h.report id' m hid'

/-- A dropped touch. -/
theorem Shows.dropped (h : Shows r g reports) {id : UInt32} (hid : r.mIdMap.lookup id = none)
    (report : Report) : Shows r g (Function.update reports id (some report)) where
  active := h.active
  report := by
    intro id' n hid'
    have hne : id' ≠ id := by
      intro heq
      rw [heq, hid] at hid'
      cases hid'
    rw [Function.update_of_ne hne]
    exact h.report id' n hid'

section Clock

variable [HAdd Time Duration Time]

/-- A contact begins, and its slot is selected already. -/
theorem Shows.begins (h : Shows r g reports) (hr : r.WF) (t : Touch) {n : Nat}
    (hid : r.mIdMap.lookup t.identifier = none) (hp : t.pressure ≠ 0) (hbound : n < MTS_POINTERS_NUM)
    (hfree : n ∉ r.mUsedSlots) (hselected : g.current = UInt32.ofNat n) (w h' : UInt32) (now : Time) :
    Shows (r.enter t.identifier n now)
      (g.receiveAll (⟨.EV_ABS, .ABS_MT_TRACKING_ID, UInt32.ofNat n⟩ :: t.slotEvents w h' (UInt32.ofNat n)))
      (Function.update reports t.identifier (some (t.report w h'))) := by
  have hlookup (id : UInt32) : (r.enter t.identifier n now).mIdMap.lookup id =
      if id = t.identifier then some n else r.mIdMap.lookup id :=
    SlotRegistry.lookup_insert_eq r.mIdMap t.identifier id n
  have hsign : ∀ n < MTS_POINTERS_NUM, 0 ≤ (UInt32.ofNat n).toInt32 := by decide
  -- nobody else has the slot
  have hother {id : UInt32} {m : Nat} (hid' : r.mIdMap.lookup id = some m) :
      UInt32.ofNat m ≠ UInt32.ofNat n := by
    intro hsame
    have hmn := SlotRegistry.ofNat_inj (hr.bound hid') hbound hsame
    exact hfree ((hr.used n).mpr ⟨id, hmn ▸ hid'⟩)
  constructor
  case active =>
    intro slot
    rw [Guest.receiveAll_cons, active_slotEvents, active_trackingId, hselected,
      and_iff_left (fun _ => hp)]
    constructor
    · intro hslot
      split_ifs at hslot with heq
      · exact ⟨t.identifier, n, by rw [hlookup, if_pos rfl], heq.symm⟩
      · obtain ⟨id, m, hid', hm⟩ := (h.active slot).mp hslot
        refine ⟨id, m, ?_, hm⟩
        rw [hlookup, if_neg (fun he => ?_)]
        · exact hid'
        · rw [he, hid] at hid'
          cases hid'
    · intro hregistered
      obtain ⟨id, m, hid', rfl⟩ := hregistered
      rw [hlookup] at hid'
      split_ifs at hid' with he
      · rw [if_pos (by rw [Option.some.inj hid'])]
        exact hsign n hbound
      · rw [if_neg (hother hid')]
        exact (h.active _).mpr ⟨id, m, hid', rfl⟩
  case report =>
    intro id m hid'
    rw [Guest.receiveAll_cons, slotReport_slotEvents, slotReport_trackingId, Function.update_apply]
    rw [hlookup] at hid'
    split_ifs at hid' with he
    · rw [if_pos he, if_pos (by rw [Option.some.inj hid'])]
    · rw [if_neg he, if_neg (hother hid')]
      exact h.report id m hid'

/-- **One touch.** -/
theorem Shows.touch (h : Shows r g reports) (hr : r.WF) (t : Touch) (w h' : UInt32) (now : Time)
    (hbegins : t.pressure ≠ 0 → r.isIdentifierRegistered t.identifier = false →
      r.findNextFreeSlot = g.current.toNat) :
    Shows (t.toEvDevEvents w h' r now).2 (g.receiveAll (t.toEvDevEvents w h' r now).1)
      (Function.update reports t.identifier (some (t.report w h'))) := by
  rcases t.toEvDevEvents_cases w h' r now with
    ⟨n, hid, heq⟩ | ⟨hid, -, heq⟩ | ⟨n, hid, hp, hfree, hbound, hslot, heq⟩ | ⟨hid, hp, hfull, heq⟩
  · -- the slot is selected first, so the events go where they should
    rw [heq]
    by_cases hp : t.pressure = 0
    · rw [if_pos hp]
      refine h.lift hr hid (r.releaseSlot_lookup t.identifier) (fun s => ?_) (fun s hs => ?_)
        fun id' hne => Function.update_of_ne hne _ _
      · rw [active_slotEvents]
        exact and_congr_right fun _ => ⟨fun hs he => hs he hp, fun hs he => absurd he hs⟩
      · rw [slotReport_slotEvents, if_neg hs]
    · rw [if_neg hp]
      exact h.move hr t hid hp w h'
  · rw [heq]
    exact h.dropped hid _
  · -- the condition makes up for the order of the events
    rw [heq]
    refine h.begins hr t hid hp hbound hslot ?_ w h' now
    have hcurrent := hbegins hp (SlotRegistry.isIdentifierRegistered_eq_false hid)
    rw [hfree] at hcurrent
    rw [← UInt32.ofNat_toNat (x := g.current), ← Int.natCast_inj.mp hcurrent]
  · -- without a free slot the condition fails
    have hcurrent := hbegins hp (SlotRegistry.isIdentifierRegistered_eq_false hid)
    rw [hfull] at hcurrent
    omega

/-- **The elements of an event**, by induction on them. -/
theorem Shows.pointers (w h' : UInt32) (pointers : List (Pointer × Time)) (h : Shows r g reports)
    (hr : r.WF) (hbegins : BeginsSelected w h' pointers r g) :
    Shows (sendPointers w h' pointers r).2 (g.receiveAll (sendPointers w h' pointers r).1)
      (reports.note w h' pointers) := by
  induction pointers generalizing r g reports with
  | nil => exact h
  | cons p pointers ih =>
    obtain ⟨p, now⟩ := p
    obtain ⟨hfirst, hrest⟩ := hbegins
    have hstep := (h.tool p).touch hr p.toTouch w h' now
      (by rw [(receiveAll_toolEvents g p).1]; exact hfirst)
    have heq := p.toEvDevEvents_eq w h' r now
    have hshows := ih (r := (p.toEvDevEvents w h' r now).2)
      (g := g.receiveAll (p.toEvDevEvents w h' r now).1)
      (by rw [heq, Guest.receiveAll_append]; exact hstep) (p.toEvDevEvents_wf hr w h' now) hrest
    rw [← Guest.receiveAll_append] at hshows
    exact hshows

end Clock

/-- The events of several contacts that are gone. -/
theorem receiveAll_upEvents (slots : List UInt32) (g : Guest) :
    (∀ s, (g.receiveAll (slots.flatMap SlotRegistry.upEvents)).Active s ↔ g.Active s ∧ s ∉ slots) ∧
    ∀ s, slotReport (g.receiveAll (slots.flatMap SlotRegistry.upEvents)) s = slotReport g s := by
  induction slots generalizing g with
  | nil => exact ⟨fun s => by simp, fun s => rfl⟩
  | cons slot slots ih =>
    obtain ⟨hactive, hreport⟩ := ih (g.receiveAll (SlotRegistry.upEvents slot))
    rw [List.flatMap_cons, Guest.receiveAll_append]
    refine ⟨fun s => ?_, fun s => ?_⟩
    · rw [hactive, active_upEvents, List.mem_cons, not_or, and_assoc]
    · rw [hreport, slotReport_upEvents]

/-- **An expiry.** -/
theorem Shows.expiry [LT Time] [DecidableLT Time] (h : Shows r g reports) (hr : r.WF) (c : Call Time)
    {r' : SlotRegistry Time Duration}
    (hmap : ∀ id, r'.mIdMap.lookup id = if r.expired c.now id then none else r.mIdMap.lookup id) :
    Shows r' (g.receiveAll ((c.expiring r.mIdLastUsedEpoch).flatMap
      fun e => SlotRegistry.upEvents (r.slotOf e.1))) reports := by
  obtain ⟨hactive, hreport⟩ :=
    receiveAll_upEvents ((c.expiring r.mIdLastUsedEpoch).map fun e => r.slotOf e.1) g
  rw [List.flatMap_map] at hactive hreport
  -- the identifiers that are removed are those that have expired
  have hmem (id : UInt32) :
      r.expired c.now id = true ↔ ∃ e ∈ c.expiring r.mIdLastUsedEpoch, e.1 = id := by
    rw [SlotRegistry.expired_iff]
    constructor
    · intro hexpired
      obtain ⟨deadline, hdeadline⟩ := hexpired
      exact ⟨⟨id, deadline⟩, Call.mem_expiring.mpr hdeadline, rfl⟩
    · intro hentry
      obtain ⟨e, he, heq⟩ := hentry
      exact ⟨e.2, heq ▸ Call.mem_expiring.mp he⟩
  constructor
  case active =>
    intro slot
    rw [hactive, h.active]
    constructor
    · intro hshown
      obtain ⟨⟨id, n, hid, rfl⟩, hkept⟩ := hshown
      refine ⟨id, n, ?_, rfl⟩
      rw [hmap, if_neg (fun hexpired => hkept ?_)]
      · exact hid
      · obtain ⟨e, he, rfl⟩ := (hmem id).mp hexpired
        exact List.mem_map.mpr ⟨e, he, SlotRegistry.slotOf_eq hid⟩
    · intro hregistered
      obtain ⟨id, n, hid, rfl⟩ := hregistered
      rw [hmap] at hid
      split_ifs at hid with hexpired
      refine ⟨⟨id, n, hid, rfl⟩, fun hgone => ?_⟩
      obtain ⟨e, he, heq⟩ := List.mem_map.mp hgone
      have hne : id ≠ e.1 := fun hsame => hexpired ((hmem id).mpr ⟨e, he, hsame.symm⟩)
      obtain ⟨m, hm⟩ := hr.exists_slot (Call.mem_expiring.mp he).1
      exact hr.slot_ne hm hid hne ((SlotRegistry.slotOf_eq hm).symm.trans heq).symm
  case report =>
    intro id n hid
    rw [hmap] at hid
    split_ifs at hid
    rw [hreport]
    exact h.report id n hid

end Shows

/-! ### Runs -/

section Runs

variable [HAdd Time Duration Time] [LT Time] [DecidableLT Time]

/-- The invariant. -/
def Screen.Good (s : Screen Time Duration) : Prop :=
  s.registry.WF ∧ Shows s.registry s.guest s.reports

/-- **One call.** -/
theorem Screen.step_good (s : Screen Time Duration) (c : Call Time) (h : s.Good)
    (hselected : s.Selected c) : ∃ s', s.step c = .ok s' ∧ s'.Good := by
  obtain ⟨hr, hshows⟩ := h
  have hpointers := hshows.pointers c.w c.h c.pointers hr hselected
  have hwf := sendPointers_wf hr c.w c.h c.pointers
  obtain ⟨r', hrun, hwf', -, hmap, -⟩ := sendEvents_spec c hr
    (Prod.mk.eta (p := sendPointers c.w c.h c.pointers s.registry)).symm
  refine ⟨_, by simp only [Screen.step, hrun, ok_bind]; rfl, hwf', ?_⟩
  have hexpiry := hpointers.expiry hwf c hmap
  rw [← Guest.receiveAll_append] at hexpiry
  show Shows r' (s.guest.receiveAll _) _
  rw [Guest.receiveAll_append]
  exact hexpiry

/-- **The guest sees the contacts of the registry.** After every run of calls in which each touch
that begins a contact finds its slot selected, the active slots are those of the registered identifiers,
and each holds the position and the pressure reported last. -/
theorem screen_shows_contacts (slotExpiration : Duration) (calls : List (Call Time))
    (hcalls : Along Screen.step Screen.Selected (Screen.init slotExpiration) calls) :
    ∃ s, calls.foldlM Screen.step (Screen.init slotExpiration) = .ok s ∧
      (∀ slot, s.guest.Active slot ↔
        ∃ id n, s.registry.mIdMap.lookup id = some n ∧ UInt32.ofNat n = slot) ∧
      ∀ id n, s.registry.mIdMap.lookup id = some n →
        s.reports id = some (slotReport s.guest (UInt32.ofNat n)) := by
  obtain ⟨s, hrun, hgood⟩ := hcalls.progress Screen.step_good
    ⟨SlotRegistry.init_wf slotExpiration, shows_init slotExpiration⟩
  exact ⟨s, hrun, hgood.2.active, hgood.2.report⟩

end Runs

/-- A finger goes down, moves and is lifted, and another one goes down. -/
def oneFinger : List (Call Int) :=
  [.touches 0 [.plain 1 5 10 10], .touches 1 [.plain 1 5 20 10],
    .touches 2 [.plain 1 0 20 10, .plain 2 5 30 30]]

theorem screen_shows_contacts_oneFinger :
    ∃ s : Screen Int Int, oneFinger.foldlM Screen.step (Screen.init 120) = .ok s ∧
      ∀ slot, s.guest.Active slot ↔
        ∃ id n, s.registry.mIdMap.lookup id = some n ∧ UInt32.ofNat n = slot := by
  obtain ⟨s, hrun, hactive, -⟩ := screen_shows_contacts (120 : Int) oneFinger (by decide +kernel)
  exact ⟨s, hrun, hactive⟩

/-- Two fingers go down. -/
def twoFingers : List (Call Int) := [.touches 0 [.plain 1 5 10 10, .plain 2 5 20 20]]

/-- The tracking id of the second one goes to the slot of the first: the second slot, which is
registered, holds no contact. -/
theorem screen_misses_second_finger :
    ¬ ∀ s : Screen Int Int, twoFingers.foldlM Screen.step (Screen.init 120) = .ok s →
      ∀ slot, s.guest.Active slot ↔
        ∃ id n, s.registry.mIdMap.lookup id = some n ∧ UInt32.ofNat n = slot := by
  intro hclaim
  have heval : (fun s : Screen Int Int => (s.registry.mIdMap.lookup 2, decide (s.guest.Active 1))) <$>
      twoFingers.foldlM Screen.step (Screen.init 120) = .ok (some 1, false) := by
    decide +kernel
  obtain ⟨s, hrun, hs⟩ := map_eq_ok.mp heval
  obtain ⟨hid, hactive⟩ := Prod.mk.inj hs
  exact of_decide_eq_false hactive ((hclaim s hrun 1).mpr ⟨2, 1, hid, rfl⟩)

end Goldfish.Input
