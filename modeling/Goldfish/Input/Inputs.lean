import Goldfish.Input.PointerEvents

/-!
# Goldfish.Input.Inputs

**What reaches a dispatcher, one thing at a time**: an element of an event, an expiry, or a new
duration. A call of `sendEvents` is its elements, then an expiry and a report
(`sendEvents_eq_runFeeds`), so what holds after every input holds in the middle of a call too.

The slot of a refused identifier is the `-1` of `acquireSlot`, read as a `uint32_t`. The test that
should drop it, `slot < 0`, compares an unsigned number. `Feed.ignored_iff` says when this shows:
exactly at a press of an unknown identifier while every slot is in use.
-/

namespace Goldfish.Input

open Goldfish.Lib Goldfish.Lib.EvDev

variable {Time Duration : Type}

/-! ### Inputs -/

/-- One input. An expiry has the reading of the clock and the order of the visit from a call. -/
inductive Feed (Time Duration : Type) where
  | pointer (p : Pointer) (w h : UInt32) (now : Time)
  | expiry (c : Call Time)
  | setSlotExpiration (slotExpiration : Duration)

/-- The inputs of a call, in order. -/
def Call.inputs (c : Call Time) : List (Feed Time Duration) :=
  c.pointers.map (fun p => .pointer p.1 c.w c.h p.2) ++ [.expiry c]

section Clock

variable [HAdd Time Duration Time] [LT Time] [DecidableLT Time]

/-- What an input sends to the display, and the registry afterwards. -/
def Feed.run (r : SlotRegistry Time Duration) :
    Feed Time Duration → Except Fault (List EvDevEvent × SlotRegistry Time Duration)
  | .pointer p w h now => .ok (p.toEvDevEvents w h r now)
  | .expiry c => r.expireOldSlots c.now (c.visit r.mIdLastUsedEpoch)
  | .setSlotExpiration slotExpiration => .ok ([], { r with mSlotExpiration := slotExpiration })

/-- The registry after an input. -/
def Feed.step (r : SlotRegistry Time Duration) (i : Feed Time Duration) :
    Except Fault (SlotRegistry Time Duration) := do
  let (_, r) ← i.run r
  return r

/-- The inputs one after the other, with all they send. -/
def runFeeds : List (Feed Time Duration) → SlotRegistry Time Duration →
    Except Fault (List EvDevEvent × SlotRegistry Time Duration)
  | [], r => .ok ([], r)
  | i :: inputs, r => do
      let (events, r) ← i.run r
      let (more, r) ← runFeeds inputs r
      return (events ++ more, r)

/-! ### Calls are runs of inputs -/

theorem runFeeds_append (inputs more : List (Feed Time Duration)) (r : SlotRegistry Time Duration) :
    runFeeds (inputs ++ more) r = (do
      let (events, r) ← runFeeds inputs r
      let (events', r) ← runFeeds more r
      return (events ++ events', r)) := by
  induction inputs generalizing r with
  | nil =>
    rw [List.nil_append, runFeeds, ok_bind]
    dsimp only
    cases runFeeds more r with
    | error fault => rfl
    | ok result => rfl
  | cons i inputs ih =>
    rw [List.cons_append, runFeeds, runFeeds]
    cases i.run r with
    | error fault => rfl
    | ok result =>
      simp only [ok_bind, ih]
      cases runFeeds inputs result.2 with
      | error fault => rfl
      | ok result' =>
        simp only [ok_bind, pure_def]
        cases runFeeds more result'.2 with
        | error fault => rfl
        | ok result'' => simp only [ok_bind, List.append_assoc]

theorem runFeeds_pointers (w h : UInt32) (pointers : List (Pointer × Time))
    (r : SlotRegistry Time Duration) :
    runFeeds (pointers.map fun p => .pointer p.1 w h p.2) r = .ok (sendPointers w h pointers r) := by
  induction pointers generalizing r with
  | nil => rfl
  | cons p pointers ih =>
    rw [List.map_cons, runFeeds, Feed.run, ok_bind]
    dsimp only
    rw [ih]
    rfl

/-- **A call is a run of inputs**, and a report. -/
theorem sendEvents_eq_runFeeds (c : Call Time) (r : SlotRegistry Time Duration) :
    sendEvents c r = (do
      let (events, r) ← runFeeds c.inputs r
      return (events ++ [⟨.EV_SYN, .SYN_REPORT, 0⟩], r)) := by
  rw [Call.inputs, runFeeds_append, runFeeds_pointers, ok_bind, sendEvents]
  dsimp only [runFeeds, Feed.run]
  cases (sendPointers c.w c.h c.pointers r).2.expireOldSlots c.now
      (c.visit (sendPointers c.w c.h c.pointers r).2.mIdLastUsedEpoch) with
  | error fault => rfl
  | ok result => simp only [ok_bind, pure_def, List.append_nil]

theorem runFeeds_step (inputs : List (Feed Time Duration)) (r : SlotRegistry Time Duration) :
    inputs.foldlM Feed.step r = (runFeeds inputs r).map Prod.snd := by
  induction inputs generalizing r with
  | nil => rfl
  | cons i inputs ih =>
    rw [List.foldlM_cons, runFeeds, Feed.step]
    cases i.run r with
    | error fault => rfl
    | ok result =>
      simp only [ok_bind, pure_def, ih]
      cases runFeeds inputs result.2 with
      | error fault => rfl
      | ok result' => rfl

/-- No input fails, and each keeps the containers of the registry in step. -/
theorem Feed.run_wf {r : SlotRegistry Time Duration} (hr : r.WF) (i : Feed Time Duration) :
    ∃ events r', i.run r = .ok (events, r') ∧ r'.WF := by
  cases i with
  | pointer p w h now => exact ⟨_, _, rfl, p.toEvDevEvents_wf hr w h now⟩
  | expiry c =>
    obtain ⟨r', hrun, hwf, -⟩ := SlotRegistry.expireOldSlots_spec hr c.now (c.visit_perm _)
    exact ⟨_, r', hrun, hwf⟩
  | setSlotExpiration slotExpiration => exact ⟨_, _, rfl, hr.injective, hr.bound, hr.used, hr.keys⟩

theorem Feed.step_wf (r : SlotRegistry Time Duration) (i : Feed Time Duration) (hr : r.WF) :
    ∃ r', i.step r = .ok r' ∧ r'.WF := by
  obtain ⟨events, r', hrun, hwf⟩ := i.run_wf hr
  refine ⟨r', ?_, hwf⟩
  rw [Feed.step, hrun]
  rfl

end Clock

/-! ### A full registry -/

/-- The slots that are selected are slots of the guest. -/
def SlotsBounded (events : List EvDevEvent) : Prop :=
  ∀ e ∈ events, e.code = .ABS_MT_SLOT → e.value.toNat < MTS_POINTERS_NUM

section Full

variable [HAdd Time Duration Time]

/-- A press whose identifier is new and gets no slot from `acquireSlot`. -/
def Feed.GetsNoSlot (r : SlotRegistry Time Duration) : Feed Time Duration → Prop
  | .pointer p _ _ now =>
      p.toTouch.pressure ≠ 0 ∧ r.isIdentifierRegistered p.toTouch.identifier = false ∧
        (r.acquireSlot p.toTouch.identifier now).1 = -1
  | _ => False

end Full

/-- A press of an unknown identifier while every slot is in use. -/
def Feed.MeetsFull (r : SlotRegistry Time Duration) : Feed Time Duration → Prop
  | .pointer p _ _ _ =>
      p.toTouch.pressure ≠ 0 ∧ p.toTouch.identifier ∉ r.mIdMap ∧
        ∀ slot < MTS_POINTERS_NUM, slot ∈ r.mUsedSlots
  | _ => False

instance Feed.decidableMeetsFull (r : SlotRegistry Time Duration) :
    ∀ i : Feed Time Duration, Decidable (i.MeetsFull r)
  | .pointer _ _ _ _ => inferInstanceAs (Decidable (_ ∧ _ ∧ _))
  | .expiry _ => isFalse id
  | .setSlotExpiration _ => isFalse id

theorem slotsBounded_append {events more : List EvDevEvent} :
    SlotsBounded (events ++ more) ↔ SlotsBounded events ∧ SlotsBounded more := List.forall_mem_append

theorem slotsBounded_of_noSelect {events : List EvDevEvent} (h : NoSelect events) : SlotsBounded events :=
  fun e he hcode => absurd hcode (h e he)

theorem toNat_ofNat_lt {slot : Nat} (hslot : slot < MTS_POINTERS_NUM) :
    (UInt32.ofNat slot).toNat < MTS_POINTERS_NUM := by
  unfold MTS_POINTERS_NUM at hslot ⊢
  rw [UInt32.toNat_ofNat']
  omega

/-- The events of a slot select that slot. -/
theorem Touch.slotsBounded_slotEvents (t : Touch) (w h slot : UInt32) :
    SlotsBounded (t.slotEvents w h slot) ↔ slot.toNat < MTS_POINTERS_NUM := by
  rw [t.slotEvents_eq]
  constructor
  · intro hbounded
    exact hbounded _ List.mem_cons_self rfl
  · intro hslot e he hcode
    rcases List.mem_cons.mp he with rfl | he
    · exact hslot
    · exact absurd hcode (t.slotWrites_noSelect w h e he)

theorem Pointer.toolEvents_noSelect (p : Pointer) : NoSelect p.toolEvents := by
  cases p with
  | touch t => exact noSelect_nil
  | pen p =>
    simp only [Pointer.toolEvents, Pen.toolEvents]
    split <;> simp

/-- An expiry selects slots of contacts. -/
theorem slotsBounded_expiry {r : SlotRegistry Time Duration} (hr : r.WF) (entries : List (Σ _ : UInt32, Time))
    (hentries : ∀ e ∈ entries, ∃ slot, r.mIdMap.lookup e.1 = some slot) :
    SlotsBounded (entries.flatMap fun e => SlotRegistry.upEvents (r.slotOf e.1)) := by
  intro e he hcode
  obtain ⟨entry, hentry, he⟩ := List.mem_flatMap.mp he
  obtain ⟨slot, hslot⟩ := hentries entry hentry
  simp only [SlotRegistry.upEvents, List.mem_cons, List.not_mem_nil, or_false] at he
  rcases he with rfl | rfl
  · rw [SlotRegistry.slotOf_eq hslot]
    exact toNat_ofNat_lt (hr.bound hslot)
  · cases hcode

section Full

variable [HAdd Time Duration Time]

/-- **What an element sends**: slots of the guest, unless it is a press that finds the registry full.
Such a press selects the slot `-1`. -/
theorem Pointer.slotsBounded_iff {r : SlotRegistry Time Duration} (hr : r.WF) (p : Pointer) (w h : UInt32)
    (now : Time) : SlotsBounded (p.toEvDevEvents w h r now).1 ↔
      ¬ (Feed.pointer p w h now).MeetsFull r := by
  rw [p.toEvDevEvents_eq, slotsBounded_append, and_iff_right (slotsBounded_of_noSelect p.toolEvents_noSelect)]
  rcases p.toTouch.toEvDevEvents_cases w h r now with
    ⟨slot, hid, heq⟩ | ⟨-, hp, heq⟩ | ⟨slot, -, -, hfree, hbound, hslot, heq⟩ | ⟨hid, hp, hfull, heq⟩
  · -- a known identifier
    rw [heq, Touch.slotsBounded_slotEvents]
    refine iff_of_true (toNat_ofNat_lt (hr.bound hid)) fun hfull => hfull.2.1 ?_
    rw [← AList.lookup_isSome, hid]
    rfl
  · rw [heq]
    exact iff_of_true (slotsBounded_of_noSelect noSelect_nil) fun hfull => hfull.1 hp
  · -- the first free slot
    rw [heq, ← List.singleton_append, slotsBounded_append, Touch.slotsBounded_slotEvents]
    refine iff_of_true ⟨slotsBounded_of_noSelect (by simp), toNat_ofNat_lt hbound⟩ fun hfull => ?_
    exact hslot (hfull.2.2 slot hbound)
  · -- the slot `-1`
    rw [heq, ← List.singleton_append, slotsBounded_append, Touch.slotsBounded_slotEvents]
    refine iff_of_false (fun hbounded => absurd hbounded.2 (by decide)) (not_not.mpr ⟨hp, ?_, ?_⟩)
    · exact AList.lookup_eq_none.mp hid
    · exact ((r.acquireSlot_refuses p.toTouch.identifier now).1.mp (by
        simp [SlotRegistry.acquireSlot, hid, hfull])).2

variable [LT Time] [DecidableLT Time]

/-- The display gets no slot that it has not, and nothing happens where there is no free one. -/
def Feed.Ignored (r : SlotRegistry Time Duration) (i : Feed Time Duration) : Prop :=
  ∃ events r', i.run r = .ok (events, r') ∧ SlotsBounded events ∧ (i.GetsNoSlot r → events = [] ∧ r' = r)

/-- **One input**: it is as it should be exactly if it is no press that finds the registry full. -/
theorem Feed.ignored_iff {r : SlotRegistry Time Duration} (hr : r.WF) (i : Feed Time Duration) :
    i.Ignored r ↔ ¬ i.MeetsFull r := by
  cases i with
  | pointer p w h now =>
    rw [← p.slotsBounded_iff hr w h now]
    constructor
    · intro hignored
      obtain ⟨events, r', hrun, hbounded, -⟩ := hignored
      rw [Feed.run] at hrun
      rwa [Except.ok.inj hrun]
    · intro hbounded
      refine ⟨_, _, rfl, hbounded, fun hnone => ?_⟩
      have hfull := (r.acquireSlot_refuses p.toTouch.identifier now).1.mp hnone.2.2
      exact absurd ⟨hnone.1, hfull⟩ ((p.slotsBounded_iff hr w h now).mp hbounded)
  | expiry c =>
    refine iff_of_true ?_ id
    obtain ⟨r', hrun, -⟩ := SlotRegistry.expireOldSlots_spec hr c.now (c.visit_perm _)
    refine ⟨_, r', hrun, slotsBounded_expiry hr _ fun e he => ?_, False.elim⟩
    have hentry := (c.visit_perm _).mem_iff.mp (List.mem_filter.mp he).1
    exact hr.exists_slot (AList.mem_lookup_iff.mpr hentry)
  | setSlotExpiration slotExpiration =>
    exact iff_of_true ⟨[], _, rfl, slotsBounded_of_noSelect noSelect_nil, False.elim⟩ id

theorem Feed.step_keeps {r : SlotRegistry Time Duration} (hr : r.WF) {i : Feed Time Duration}
    {r' : SlotRegistry Time Duration} (hstep : i.step r = .ok r') : r'.WF := by
  obtain ⟨r'', hstep', hwf⟩ := i.step_wf r hr
  rw [hstep] at hstep'
  exact Except.ok.inj hstep' ▸ hwf

/-- In a run from the empty registry, what is exact at each step is exact for the run. -/
theorem along_feeds {P Q : SlotRegistry Time Duration → Feed Time Duration → Prop}
    (h : ∀ r i, r.WF → (P r i ↔ Q r i)) (slotExpiration : Duration) (inputs : List (Feed Time Duration)) :
    Along Feed.step P (SlotRegistry.init slotExpiration) inputs ↔
      Along Feed.step Q (SlotRegistry.init slotExpiration) inputs :=
  along_iff_along h (fun _ _ _ hr _ hstep => Feed.step_keeps hr hstep) (SlotRegistry.init_wf slotExpiration)

/-- **A full registry in every run**, with any elements, any readings of the clock and expiries
anywhere between them: no assertion fails, and the display gets a slot it has not exactly at the
presses that find the registry full. -/
theorem inputs_ignored_iff (slotExpiration : Duration) (inputs : List (Feed Time Duration)) :
    (∃ r, inputs.foldlM Feed.step (SlotRegistry.init slotExpiration) = .ok r) ∧
    Along Feed.step (fun r i => i.Ignored r ↔ ¬ i.MeetsFull r) (SlotRegistry.init slotExpiration) inputs ∧
    (Along Feed.step (fun r i => i.Ignored r) (SlotRegistry.init slotExpiration) inputs ↔
      Along Feed.step (fun r i => ¬ i.MeetsFull r) (SlotRegistry.init slotExpiration) inputs) := by
  refine ⟨?_, ?_, along_feeds (fun r i hr => i.ignored_iff hr) slotExpiration inputs⟩
  · have hall : Along Feed.step (fun _ _ => True) (SlotRegistry.init slotExpiration) inputs :=
      along_of_forall fun _ _ => trivial
    obtain ⟨r, hrun, -⟩ :=
      hall.progress (fun r i hr _ => i.step_wf r hr) (SlotRegistry.init_wf slotExpiration)
    exact ⟨r, hrun⟩
  · have hevery : ∀ (r : SlotRegistry Time Duration) (i : Feed Time Duration), r.WF →
        (True ↔ (i.Ignored r ↔ ¬ i.MeetsFull r)) := fun r i hr => iff_of_true trivial (i.ignored_iff hr)
    exact (along_feeds hevery slotExpiration inputs).mp (along_of_forall fun _ _ => trivial)

end Full

/-- Eleven fingers at once. -/
def elevenFingers : List (Feed Int Int) :=
  (List.range 11).map fun id => .pointer (.touch (.plain (UInt32.ofNat id) 5 10 10)) 100 100 0

/-- The display is told to select the slot `-1` for the eleventh one. -/
theorem elevenFingers_not_ignored :
    ¬ Along Feed.step (fun r i => i.Ignored r) (SlotRegistry.init 120) elevenFingers := by
  rw [along_feeds (fun r i hr => i.ignored_iff hr) 120 elevenFingers]
  decide +kernel

end Goldfish.Input
