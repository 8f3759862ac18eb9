import Goldfish.Input.SlotRegistry

/-!
# Goldfish.Input.PointerEvents

The **`PointerEventDispatcher`** (`PointerEventDispatcher.h`, `PointerEventDispatcher.cpp`): touches
and pens of a client as evdev events of a display. The model follows the source line by
line; `Touch.toEvDevEvents_cases` then says once what a touch can do, and every result about
the dispatcher is read off it.

A call of `sendEvents` reads the clock for each touch that gets a new slot and once more for the
expiry, so a call comes with these readings.
-/

namespace Goldfish.Input

open Goldfish.Lib Goldfish.Lib.EvDev

/-! ### The model -/

/-- `EV_ABS_MAX`; `EV_ABS_MIN` is zero. -/
def EV_ABS_MAX : UInt32 := 0x7FFF

/-- `scaleAxis`: 32 bit arithmetic throughout. -/
def scaleAxis (value min_in max_in : UInt32) : UInt32 :=
  let min_out : UInt32 := 0
  let range_out := EV_ABS_MAX - min_out
  let range_in := max_in - min_in
  if range_in < 1 then min_out + range_out / 2
  else (value - min_in) * range_out / range_in + min_out

/-- `Touch`. -/
structure Touch where
  x : UInt32
  y : UInt32
  identifier : UInt32
  pressure : UInt32
  touch_major : UInt32
  touch_minor : UInt32
  orientation : UInt32
deriving DecidableEq, Repr

/-- A touch with a pressure and a position, and nothing else. -/
def Touch.plain (identifier pressure x y : UInt32) : Touch where
  x := x
  y := y
  identifier := identifier
  pressure := pressure
  touch_major := 0
  touch_minor := 0
  orientation := 0

/-- `Pen`. -/
structure Pen extends Touch where
  button_pressed : Bool
  rubber_pointer : Bool
deriving DecidableEq, Repr

variable {Time Duration : Type}

/-- The events from the selection of the slot on. -/
def Touch.slotEvents (t : Touch) (w h slot : UInt32) : List EvDevEvent :=
  [⟨.EV_ABS, .ABS_MT_SLOT, slot⟩]
    ++ (if t.touch_major > 0 then [⟨.EV_ABS, .ABS_MT_TOUCH_MAJOR, t.touch_major⟩] else [])
    ++ (if t.touch_minor > 0 then [⟨.EV_ABS, .ABS_MT_TOUCH_MINOR, t.touch_minor⟩] else [])
    ++ (if t.orientation > 0 then [⟨.EV_ABS, .ABS_MT_ORIENTATION, t.orientation⟩] else [])
    ++ [⟨.EV_ABS, .ABS_MT_PRESSURE, t.pressure⟩,
      ⟨.EV_ABS, .ABS_MT_POSITION_X, scaleAxis t.x 0 w⟩,
      ⟨.EV_ABS, .ABS_MT_POSITION_Y, scaleAxis t.y 0 h⟩]
    ++ (if t.pressure = 0 then
        [⟨.EV_ABS, .ABS_MT_TRACKING_ID, MTS_POINTER_UP⟩, ⟨.EV_ABS, .ABS_MT_ORIENTATION, 0⟩]
      else [])

section Clock

variable [HAdd Time Duration Time]

/-- `Touch::toEvDevEvents`. The slot is unsigned there, so the test for a negative one never
succeeds. -/
def Touch.toEvDevEvents (t : Touch) (w h : UInt32) (r : SlotRegistry Time Duration) (now : Time) :
    List EvDevEvent × SlotRegistry Time Duration :=
  let isRegistered := r.isIdentifierRegistered t.identifier
  -- a release of something that was never pressed, or was released already
  if t.pressure = 0 ∧ isRegistered = false then ([], r)
  else
    let (acquired, r) := r.acquireSlot t.identifier now
    let slot := UInt32.ofInt acquired
    if slot < 0 then ([], r)
    else
      -- the tracking id of a new contact comes before its slot is selected
      ((if isRegistered then [] else [⟨.EV_ABS, .ABS_MT_TRACKING_ID, slot⟩]) ++ t.slotEvents w h slot,
        if t.pressure = 0 then r.releaseSlot t.identifier else r)

/-- `MT_TOOL_PEN` and `MT_TOOL_MAX` of the kernel. -/
def MT_TOOL_PEN : UInt32 := 0x01

/-- See `MT_TOOL_PEN`. -/
def MT_TOOL_MAX : UInt32 := 0x0F

/-- The events of `Pen::toEvDevEvents` before those of the touch. -/
def Pen.toolEvents (p : Pen) : List EvDevEvent :=
  let ev_dev_pressed : UInt32 := if p.button_pressed then 1 else 0
  (if p.rubber_pointer then
      [⟨.EV_ABS, .ABS_MT_TOOL_TYPE, MT_TOOL_MAX⟩, ⟨.EV_KEY, .BTN_TOOL_RUBBER, ev_dev_pressed⟩]
    else [⟨.EV_ABS, .ABS_MT_TOOL_TYPE, MT_TOOL_PEN⟩])
    ++ [⟨.EV_KEY, .BTN_STYLUS, ev_dev_pressed⟩]

/-- `Pen::toEvDevEvents`. -/
def Pen.toEvDevEvents (p : Pen) (w h : UInt32) (r : SlotRegistry Time Duration) (now : Time) :
    List EvDevEvent × SlotRegistry Time Duration :=
  let (touches, r) := p.toTouch.toEvDevEvents w h r now
  (p.toolEvents ++ touches, r)

/-- An element of a `MultiTouchEvent` or a `PenTouchEvent`. -/
inductive Pointer where
  | touch (t : Touch)
  | pen (p : Pen)
deriving DecidableEq, Repr

/-- `toEvDevEvents`, which is virtual. -/
def Pointer.toEvDevEvents (p : Pointer) (w h : UInt32) (r : SlotRegistry Time Duration) (now : Time) :
    List EvDevEvent × SlotRegistry Time Duration :=
  match p with
  | .touch t => t.toEvDevEvents w h r now
  | .pen p => p.toEvDevEvents w h r now

/-- The first loop of `sendEvents`. -/
def sendPointers (w h : UInt32) :
    List (Pointer × Time) → SlotRegistry Time Duration → List EvDevEvent × SlotRegistry Time Duration
  | [], r => ([], r)
  | (p, now) :: pointers, r =>
      let (events, r) := p.toEvDevEvents w h r now
      let (more, r) := sendPointers w h pointers r
      (events ++ more, r)

/-- A call of `sendEvents`: the size of the display, the elements of the event with the readings of the
clock, the reading at the expiry, and a rank that decides the order of a visit. -/
structure Call (Time : Type) where
  w : UInt32
  h : UInt32
  pointers : List (Pointer × Time)
  now : Time
  rank : UInt32 → Nat

/-- A call with touches, all at one time. -/
def Call.touches (now : Time) (touches : List Touch) : Call Time where
  w := 100
  h := 100
  pointers := touches.map fun t => (.touch t, now)
  now := now
  rank := fun _ => 0

/-- `a` is visited before `b`. -/
def Call.Before (c : Call Time) (a b : Σ _ : UInt32, Time) : Prop :=
  c.rank a.1 < c.rank b.1 ∨ c.rank a.1 = c.rank b.1 ∧ a.1 ≤ b.1

instance Call.decidableBefore (c : Call Time) : DecidableRel c.Before :=
  fun _ _ => inferInstanceAs (Decidable (_ ∨ _ ∧ _))

/-- The entries of a map in the order they are visited. -/
def Call.visit (c : Call Time) (m : IdMap Time) : List (Σ _ : UInt32, Time) :=
  m.entries.insertionSort c.Before

/-- `PointerEventDispatcher::sendEvents`, for both kinds of event: what the display is sent. -/
def sendEvents [LT Time] [DecidableLT Time] (c : Call Time) (r : SlotRegistry Time Duration) :
    Except Fault (List EvDevEvent × SlotRegistry Time Duration) := do
  let (events, r) := sendPointers c.w c.h c.pointers r
  -- what expires is sent to the display of this call
  let (up, r) ← r.expireOldSlots c.now (c.visit r.mIdLastUsedEpoch)
  return (events ++ up ++ [⟨.EV_SYN, .SYN_REPORT, 0⟩], r)

end Clock

/-! ### The events of a slot -/

/-- The events of a touch after the selection. -/
def Touch.slotWrites (t : Touch) (w h : UInt32) : List EvDevEvent := (t.slotEvents w h 0).tail

theorem Touch.slotEvents_eq (t : Touch) (w h slot : UInt32) :
    t.slotEvents w h slot = ⟨.EV_ABS, .ABS_MT_SLOT, slot⟩ :: t.slotWrites w h := rfl

/-- None of them selects a slot. -/
theorem Touch.slotWrites_noSelect (t : Touch) (w h : UInt32) : NoSelect (t.slotWrites w h) := by
  simp only [Touch.slotWrites, Touch.slotEvents, List.cons_append, List.nil_append, List.tail_cons,
    noSelect_append]
  refine ⟨⟨⟨⟨?_, ?_⟩, ?_⟩, ?_⟩, ?_⟩ <;> first | split | skip
  all_goals simp

/-- The last write of the tracking id lifts the contact, if the pressure is zero. -/
theorem Touch.slotWrites_trackingId (t : Touch) (w h : UInt32) :
    written .ABS_MT_TRACKING_ID (t.slotWrites w h) =
      if t.pressure = 0 then some MTS_POINTER_UP else none := by
  simp only [Touch.slotWrites, Touch.slotEvents, List.cons_append, List.nil_append, List.tail_cons,
    written_append]
  split <;> split <;> split <;> split <;> simp [written]

/-! ### What a pointer does -/

theorem ofInt_natCast (n : Nat) : UInt32.ofInt n = UInt32.ofNat n := by
  have hmod : ((n : Int) % 2 ^ 32).toNat = n % 2 ^ 32 := by omega
  rw [UInt32.ofInt, hmod, ← UInt32.toNat_inj, UInt32.toNat_ofNat', UInt32.toNat_ofNat', Nat.mod_mod]

/-- The part of an element that has a slot. -/
def Pointer.toTouch : Pointer → Touch
  | .touch t => t
  | .pen p => p.toTouch

/-- The events before that part. -/
def Pointer.toolEvents : Pointer → List EvDevEvent
  | .touch _ => []
  | .pen p => p.toolEvents

section Clock

variable [HAdd Time Duration Time]

theorem Pointer.toEvDevEvents_eq (p : Pointer) (w h : UInt32) (r : SlotRegistry Time Duration) (now : Time) :
    p.toEvDevEvents w h r now =
      (p.toolEvents ++ (p.toTouch.toEvDevEvents w h r now).1, (p.toTouch.toEvDevEvents w h r now).2) := by
  cases p with
  | touch t => rfl
  | pen p => rfl

section Equations

variable (t : Touch) (w h : UInt32) {r : SlotRegistry Time Duration} (now : Time)

/-- The identifier has a slot, which is released if there is no pressure. -/
theorem Touch.toEvDevEvents_known {slot : Nat} (hid : r.mIdMap.lookup t.identifier = some slot) :
    t.toEvDevEvents w h r now = (t.slotEvents w h (UInt32.ofNat slot),
      if t.pressure = 0 then r.releaseSlot t.identifier else r) := by
  simp [Touch.toEvDevEvents, SlotRegistry.isIdentifierRegistered, SlotRegistry.acquireSlot, hid,
    ofInt_natCast]

/-- It has none, and there is no pressure. -/
theorem Touch.toEvDevEvents_dropped (hid : r.mIdMap.lookup t.identifier = none) (hp : t.pressure = 0) :
    t.toEvDevEvents w h r now = ([], r) := by
  simp [Touch.toEvDevEvents, SlotRegistry.isIdentifierRegistered, hid, hp]

/-- A contact begins in the first free slot. -/
theorem Touch.toEvDevEvents_begins {slot : Nat} (hid : r.mIdMap.lookup t.identifier = none)
    (hp : t.pressure ≠ 0) (hfree : r.findNextFreeSlot = slot) :
    t.toEvDevEvents w h r now =
      (⟨.EV_ABS, .ABS_MT_TRACKING_ID, UInt32.ofNat slot⟩ :: t.slotEvents w h (UInt32.ofNat slot),
        r.enter t.identifier slot now) := by
  have hnonneg : ¬ (slot : Int) < 0 := by omega
  simp [Touch.toEvDevEvents, SlotRegistry.isIdentifierRegistered, SlotRegistry.acquireSlot, hid, hp, hfree,
    hnonneg, ofInt_natCast, SlotRegistry.enter]

/-- There is no free slot: the `-1` of `acquireSlot` is sent as if it were a slot. -/
theorem Touch.toEvDevEvents_refused (hid : r.mIdMap.lookup t.identifier = none)
    (hp : t.pressure ≠ 0) (hfull : r.findNextFreeSlot = -1) :
    t.toEvDevEvents w h r now =
      (⟨.EV_ABS, .ABS_MT_TRACKING_ID, UInt32.ofInt (-1)⟩ :: t.slotEvents w h (UInt32.ofInt (-1)), r) := by
  simp [Touch.toEvDevEvents, SlotRegistry.isIdentifierRegistered, SlotRegistry.acquireSlot, hid, hp, hfull]

end Equations

/-- **What a touch does.** -/
theorem Touch.toEvDevEvents_cases (t : Touch) (w h : UInt32) (r : SlotRegistry Time Duration) (now : Time) :
    (∃ slot, r.mIdMap.lookup t.identifier = some slot ∧
      t.toEvDevEvents w h r now = (t.slotEvents w h (UInt32.ofNat slot),
        if t.pressure = 0 then r.releaseSlot t.identifier else r)) ∨
    (r.mIdMap.lookup t.identifier = none ∧ t.pressure = 0 ∧ t.toEvDevEvents w h r now = ([], r)) ∨
    (∃ slot : Nat, r.mIdMap.lookup t.identifier = none ∧ t.pressure ≠ 0 ∧ r.findNextFreeSlot = slot ∧
      slot < MTS_POINTERS_NUM ∧ slot ∉ r.mUsedSlots ∧
      t.toEvDevEvents w h r now =
        (⟨.EV_ABS, .ABS_MT_TRACKING_ID, UInt32.ofNat slot⟩ :: t.slotEvents w h (UInt32.ofNat slot),
          r.enter t.identifier slot now)) ∨
    (r.mIdMap.lookup t.identifier = none ∧ t.pressure ≠ 0 ∧ r.findNextFreeSlot = -1 ∧
      t.toEvDevEvents w h r now =
        (⟨.EV_ABS, .ABS_MT_TRACKING_ID, UInt32.ofInt (-1)⟩ :: t.slotEvents w h (UInt32.ofInt (-1)), r)) := by
  cases hid : r.mIdMap.lookup t.identifier with
  | some slot => exact .inl ⟨slot, rfl, t.toEvDevEvents_known w h now hid⟩
  | none =>
    by_cases hp : t.pressure = 0
    · exact .inr (.inl ⟨rfl, hp, t.toEvDevEvents_dropped w h now hid hp⟩)
    · rcases r.findNextFreeSlot_spec with ⟨hfull, -⟩ | ⟨slot, hfree, hbound, hslot, -⟩
      · exact .inr (.inr (.inr ⟨rfl, hp, hfull, t.toEvDevEvents_refused w h now hid hp hfull⟩))
      · exact .inr (.inr (.inl ⟨slot, rfl, hp, hfree, hbound, hslot,
          t.toEvDevEvents_begins w h now hid hp hfree⟩))

theorem Touch.toEvDevEvents_wf {r : SlotRegistry Time Duration} (hr : r.WF) (t : Touch) (w h : UInt32)
    (now : Time) : (t.toEvDevEvents w h r now).2.WF := by
  rcases t.toEvDevEvents_cases w h r now with
    ⟨slot, -, heq⟩ | ⟨-, -, heq⟩ | ⟨slot, hid, -, -, hbound, hslot, heq⟩ | ⟨-, -, -, heq⟩
  · rw [heq]
    split
    · exact SlotRegistry.releaseSlot_wf hr t.identifier
    · exact hr
  · rwa [heq]
  · rw [heq]
    exact hr.insert hslot hbound _ hid
  · rwa [heq]

theorem Touch.toEvDevEvents_expiration (t : Touch) (w h : UInt32) (r : SlotRegistry Time Duration)
    (now : Time) : (t.toEvDevEvents w h r now).2.mSlotExpiration = r.mSlotExpiration := by
  rcases t.toEvDevEvents_cases w h r now with
    ⟨slot, hid, heq⟩ | ⟨-, -, heq⟩ | ⟨slot, -, -, -, -, -, heq⟩ | ⟨-, -, -, heq⟩
  · rw [heq]
    dsimp only
    split
    · simp only [SlotRegistry.releaseSlot, hid]
    · rfl
  · rw [heq]
  · rw [heq]
    rfl
  · rw [heq]

/-- A touch changes the contact of its identifier only. -/
theorem Touch.toEvDevEvents_other (t : Touch) (w h : UInt32) (r : SlotRegistry Time Duration) (now : Time)
    {id : UInt32} (hne : id ≠ t.identifier) :
    (t.toEvDevEvents w h r now).2.mIdMap.lookup id = r.mIdMap.lookup id ∧
    (t.toEvDevEvents w h r now).2.mIdLastUsedEpoch.lookup id = r.mIdLastUsedEpoch.lookup id := by
  rcases t.toEvDevEvents_cases w h r now with
    ⟨slot, hid, heq⟩ | ⟨-, -, heq⟩ | ⟨slot, -, -, -, -, -, heq⟩ | ⟨-, -, -, heq⟩
  · rw [heq]
    dsimp only
    split
    · rw [SlotRegistry.releaseSlot_lookup, SlotRegistry.releaseSlot_epoch hid, if_neg hne, if_neg hne]
      exact ⟨rfl, rfl⟩
    · exact ⟨rfl, rfl⟩
  · rw [heq]
    exact ⟨rfl, rfl⟩
  · rw [heq]
    simp [SlotRegistry.enter, hne]
  · rw [heq]
    exact ⟨rfl, rfl⟩

/-- The identifier of a touch that has a slot afterwards had it before, or begins a contact now. -/
theorem Touch.toEvDevEvents_self (t : Touch) (w h : UInt32) (r : SlotRegistry Time Duration) (now : Time)
    {slot : Nat} (hslot : (t.toEvDevEvents w h r now).2.mIdMap.lookup t.identifier = some slot) :
    (r.mIdMap.lookup t.identifier = some slot ∧ (t.toEvDevEvents w h r now).2 = r) ∨
    (r.mIdMap.lookup t.identifier = none ∧
      ⟨.EV_ABS, .ABS_MT_TRACKING_ID, UInt32.ofNat slot⟩ ∈ (t.toEvDevEvents w h r now).1 ∧
      (t.toEvDevEvents w h r now).2.mIdLastUsedEpoch.lookup t.identifier =
        some (now + r.mSlotExpiration)) := by
  rcases t.toEvDevEvents_cases w h r now with
    ⟨n, -, heq⟩ | ⟨hnone, -, heq⟩ | ⟨n, hnone, -, -, -, -, heq⟩ | ⟨hnone, -, -, heq⟩
  · rw [heq] at hslot ⊢
    dsimp only at hslot ⊢
    split_ifs at hslot ⊢ with hp
    · rw [SlotRegistry.releaseSlot_lookup, if_pos rfl] at hslot
      cases hslot
    · exact .inl ⟨hslot, rfl⟩
  · rw [heq] at hslot
    rw [hnone] at hslot
    cases hslot
  · rw [heq] at hslot ⊢
    simp only [SlotRegistry.enter, SlotRegistry.lookup_insert_eq, if_true] at hslot ⊢
    refine .inr ⟨hnone, ?_, trivial⟩
    rw [Option.some.inj hslot]
    exact List.mem_cons_self
  · rw [heq] at hslot
    rw [hnone] at hslot
    cases hslot

theorem Pointer.toEvDevEvents_wf {r : SlotRegistry Time Duration} (hr : r.WF) (p : Pointer) (w h : UInt32)
    (now : Time) : (p.toEvDevEvents w h r now).2.WF := by
  rw [p.toEvDevEvents_eq]
  exact p.toTouch.toEvDevEvents_wf hr w h now

theorem sendPointers_wf {r : SlotRegistry Time Duration} (hr : r.WF) (w h : UInt32)
    (pointers : List (Pointer × Time)) : (sendPointers w h pointers r).2.WF := by
  induction pointers generalizing r with
  | nil => exact hr
  | cons p pointers ih => exact ih (p.1.toEvDevEvents_wf hr w h p.2)

/-! ### What a call does -/

theorem Call.visit_perm (c : Call Time) (m : IdMap Time) : (c.visit m).Perm m.entries :=
  List.perm_insertionSort _ _

theorem Call.before_total (c : Call Time) (a b : Σ _ : UInt32, Time) : c.Before a b ∨ c.Before b a := by
  unfold Call.Before
  rcases Nat.lt_trichotomy (c.rank a.1) (c.rank b.1) with h | h | h
  · exact .inl (.inl h)
  · rcases UInt32.le_total a.1 b.1 with hle | hle
    · exact .inl (.inr ⟨h, hle⟩)
    · exact .inr (.inr ⟨h.symm, hle⟩)
  · exact .inr (.inl h)

theorem Call.before_trans (c : Call Time) {a b d : Σ _ : UInt32, Time} (hab : c.Before a b)
    (hbd : c.Before b d) : c.Before a d := by
  unfold Call.Before at *
  rcases hab with hab | ⟨hab, hle⟩
  · rcases hbd with hbd | ⟨hbd, -⟩
    · exact .inl (hab.trans hbd)
    · exact .inl (hbd ▸ hab)
  · rcases hbd with hbd | ⟨hbd, hle'⟩
    · exact .inl (hab ▸ hbd)
    · exact .inr ⟨hab.trans hbd, UInt32.le_trans hle hle'⟩

theorem Call.before_antisymm (c : Call Time) {a b : Σ _ : UInt32, Time} (hab : c.Before a b)
    (hba : c.Before b a) : a.1 = b.1 := by
  unfold Call.Before at *
  rcases hab with hab | ⟨hab, hle⟩
  · omega
  · rcases hba with hba | ⟨-, hle'⟩
    · omega
    · exact UInt32.le_antisymm hle hle'

theorem Call.visit_sorted (c : Call Time) (m : IdMap Time) : (c.visit m).Pairwise c.Before := by
  have : Std.Total c.Before := ⟨c.before_total⟩
  have : IsTrans _ c.Before := ⟨fun _ _ _ => c.before_trans⟩
  exact List.pairwise_insertionSort _ _

/-- Every order of a visit is the order of some rank. -/
theorem Call.exists_visit (c : Call Time) {m : IdMap Time} {visit : List (Σ _ : UInt32, Time)}
    (hvisit : visit.Perm m.entries) :
    ∃ rank : UInt32 → Nat, Call.visit { c with rank := rank } m = visit := by
  have hnodup : (visit.map (·.1)).Nodup := (hvisit.map _).nodup_iff.mpr m.nodupKeys
  let c' : Call Time := { c with rank := fun id => (visit.map (·.1)).idxOf id }
  -- ranked by their place in the visit, the entries are sorted already
  have hsorted : visit.Pairwise c'.Before := by
    rw [List.pairwise_iff_getElem]
    intro i j hi hj hij
    refine .inl ?_
    have hidx (k : Nat) (hk : k < visit.length) : c'.rank visit[k].1 = k := by
      have hk' : k < (visit.map (·.1)).length := by rwa [List.length_map]
      have hidx := hnodup.idxOf_getElem k hk'
      rwa [List.getElem_map] at hidx
    rw [hidx i hi, hidx j hj]
    exact hij
  refine ⟨c'.rank, List.Perm.eq_of_pairwise ?_ (c'.visit_sorted m) hsorted
    ((c'.visit_perm m).trans hvisit.symm)⟩
  intro a b ha hb hab hba
  exact List.inj_on_of_nodup_map hnodup ((c'.visit_perm m).mem_iff.mp ha |> hvisit.mem_iff.mpr) hb
    (c'.before_antisymm hab hba)

section Order

variable [LT Time] [DecidableLT Time]

/-- The entries an expiry removes, in the order of the visit. -/
def Call.expiring (c : Call Time) (m : IdMap Time) : List (Σ _ : UInt32, Time) :=
  (c.visit m).filter fun e => decide (e.2 < c.now)

theorem Call.mem_expiring {c : Call Time} {m : IdMap Time} {e : Σ _ : UInt32, Time} :
    e ∈ c.expiring m ↔ m.lookup e.1 = some e.2 ∧ e.2 < c.now := by
  rw [Call.expiring, List.mem_filter, (c.visit_perm m).mem_iff, ← AList.mem_lookup_iff, Option.mem_def,
    decide_eq_true_iff]

/-- **What a call does**: the pointers, then the expiry, then the report. -/
theorem sendEvents_spec (c : Call Time) {r touched : SlotRegistry Time Duration} {events : List EvDevEvent}
    (hr : r.WF) (hpointers : sendPointers c.w c.h c.pointers r = (events, touched)) :
    ∃ r', sendEvents c r = .ok (events
        ++ (c.expiring touched.mIdLastUsedEpoch).flatMap (fun e => SlotRegistry.upEvents (touched.slotOf e.1))
        ++ [⟨.EV_SYN, .SYN_REPORT, 0⟩], r') ∧
      r'.WF ∧ r'.mSlotExpiration = touched.mSlotExpiration ∧
      (∀ id, r'.mIdMap.lookup id =
        if touched.expired c.now id then none else touched.mIdMap.lookup id) ∧
      ∀ id, r'.mIdLastUsedEpoch.lookup id =
        if touched.expired c.now id then none else touched.mIdLastUsedEpoch.lookup id := by
  have hwf : touched.WF := by
    have h := sendPointers_wf hr c.w c.h c.pointers
    rwa [hpointers] at h
  obtain ⟨r', hrun, hrest⟩ := SlotRegistry.expireOldSlots_spec hwf c.now
    (c.visit_perm touched.mIdLastUsedEpoch)
  refine ⟨r', ?_, hrest⟩
  simp only [sendEvents, hpointers, hrun, ok_bind]
  rfl

end Order

end Clock

end Goldfish.Input
