import Goldfish.Input.PointerEvents

/-!
# Goldfish.Input.Displays

**Several displays, one registry.** A dispatcher sends the events of a call to the display of the call, and
keeps the slots of all displays in one registry. What a display is sent therefore depends on the
other displays: a contact gets a slot that no other display uses, an identifier that is in
use elsewhere is taken for a known one, and a contact that expires is lifted on whatever
display the call is for.

`Desk.Apart` excludes these three. A run of such calls is then, for each display, the run of the calls
for this display alone (`Along.filter_related`, with `Restricts` as the relation between the two
registries).
-/

namespace Goldfish.Input

open Goldfish.Lib Goldfish.Lib.EvDev

variable {Display Time Duration : Type}

/-! ### Displays -/

/-- A call for a display. -/
structure Addressed (Display Time : Type) where
  display : Display
  call : Call Time

/-- The display on which an identifier got its slot. -/
abbrev Owners (Display : Type) := UInt32 → Option Display

/-- A dispatcher: its registry, what each display was sent, and where the contacts began. -/
structure Desk (Display Time Duration : Type) where
  registry : SlotRegistry Time Duration
  sent : Display → List EvDevEvent
  owner : Owners Display

/-- Nothing was sent yet. -/
def Desk.init (slotExpiration : Duration) : Desk Display Time Duration where
  registry := SlotRegistry.init slotExpiration
  sent := fun _ => []
  owner := fun _ => none

/-- An identifier that is not registered begins its next contact on the display of the touch. -/
def Owners.touch (owner : Owners Display) (display : Display) (r : SlotRegistry Time Duration)
    (t : Touch) : Owners Display :=
  if r.isIdentifierRegistered t.identifier then owner
  else Function.update owner t.identifier (some display)

section Clock

variable [HAdd Time Duration Time]

/-- The elements of an event, one after the other. -/
def Owners.note (display : Display) (w h : UInt32) :
    List (Pointer × Time) → SlotRegistry Time Duration → Owners Display → Owners Display
  | [], _, owner => owner
  | (p, now) :: pointers, r, owner =>
      Owners.note display w h pointers (p.toEvDevEvents w h r now).2 (owner.touch display r p.toTouch)

/-- A touch keeps to its display: its identifier is not in use on another one, and a
new contact gets the slot it would get without the contacts of the others. -/
def TouchApart (display : Display) (r : SlotRegistry Time Duration) (owner : Owners Display)
    (t : Touch) : Prop :=
  (r.isIdentifierRegistered t.identifier = true → owner t.identifier = some display) ∧
  (r.isIdentifierRegistered t.identifier = false → t.pressure ≠ 0 →
    ∀ e ∈ r.mIdMap.entries, owner e.1 ≠ some display → ∃ free < e.2, free ∉ r.mUsedSlots)

instance decidableTouchApart [DecidableEq Display] (display : Display) (r : SlotRegistry Time Duration)
    (owner : Owners Display) (t : Touch) : Decidable (TouchApart display r owner t) :=
  inferInstanceAs (Decidable (_ ∧ _))

/-- So does each element of an event. -/
def PointersApart (display : Display) (w h : UInt32) :
    List (Pointer × Time) → SlotRegistry Time Duration → Owners Display → Prop
  | [], _, _ => True
  | (p, now) :: pointers, r, owner =>
      TouchApart display r owner p.toTouch ∧
      PointersApart display w h pointers (p.toEvDevEvents w h r now).2
        (owner.touch display r p.toTouch)

instance decidablePointersApart [DecidableEq Display] (display : Display) (w h : UInt32) :
    ∀ (pointers : List (Pointer × Time)) (r : SlotRegistry Time Duration) (owner : Owners Display),
      Decidable (PointersApart display w h pointers r owner)
  | [], _, _ => inferInstanceAs (Decidable True)
  | (_, _) :: pointers, _, _ =>
      have := decidablePointersApart display w h pointers
      inferInstanceAs (Decidable (_ ∧ _))

section Order

variable [LT Time] [DecidableLT Time] [DecidableEq Display]

/-- A call of `sendEvents`. -/
def Desk.step (s : Desk Display Time Duration) (a : Addressed Display Time) :
    Except Fault (Desk Display Time Duration) := do
  let (events, registry) ← sendEvents a.call s.registry
  return {
    registry := registry
    sent := Function.update s.sent a.display (s.sent a.display ++ events)
    owner := s.owner.note a.display a.call.w a.call.h a.call.pointers s.registry }

/-- A call keeps to its display: its touches do, and no contact of another display is past
its deadline. -/
def Desk.Apart (s : Desk Display Time Duration) (a : Addressed Display Time) : Prop :=
  PointersApart a.display a.call.w a.call.h a.call.pointers s.registry s.owner ∧
  ∀ e ∈ (sendPointers a.call.w a.call.h a.call.pointers s.registry).2.mIdLastUsedEpoch.entries,
    e.2 < a.call.now →
      s.owner.note a.display a.call.w a.call.h a.call.pointers s.registry e.1 = some a.display

instance Desk.decidableApart (s : Desk Display Time Duration) (a : Addressed Display Time) :
    Decidable (s.Apart a) :=
  inferInstanceAs (Decidable (_ ∧ _))

end Order

end Clock

/-! ### Where contacts begin and end -/

/-- The slot is selected and its contact is lifted. -/
def Lifts (slot : UInt32) (events : List EvDevEvent) : Prop :=
  ∃ before writes after, events = before ++ ⟨.EV_ABS, .ABS_MT_SLOT, slot⟩ :: writes ++ after ∧
    NoSelect writes ∧ written .ABS_MT_TRACKING_ID writes = some MTS_POINTER_UP

theorem Lifts.append_left {slot : UInt32} {events : List EvDevEvent} (h : Lifts slot events)
    (more : List EvDevEvent) : Lifts slot (more ++ events) := by
  obtain ⟨before, writes, after, rfl, hrest⟩ := h
  exact ⟨more ++ before, writes, after, by simp, hrest⟩

theorem Lifts.append_right {slot : UInt32} {events : List EvDevEvent} (h : Lifts slot events)
    (more : List EvDevEvent) : Lifts slot (events ++ more) := by
  obtain ⟨before, writes, after, rfl, hrest⟩ := h
  exact ⟨before, writes, after ++ more, by simp, hrest⟩

theorem Touch.lifts_slotEvents {t : Touch} (hp : t.pressure = 0) (w h slot : UInt32) :
    Lifts slot (t.slotEvents w h slot) := by
  refine ⟨[], t.slotWrites w h, [], ?_, t.slotWrites_noSelect w h, ?_⟩
  · rw [t.slotEvents_eq, List.append_nil, List.nil_append]
  · rw [t.slotWrites_trackingId, if_pos hp]

theorem lifts_upEvents (slot : UInt32) : Lifts slot (SlotRegistry.upEvents slot) :=
  ⟨[], [⟨.EV_ABS, .ABS_MT_TRACKING_ID, MTS_POINTER_UP⟩], [], by simp [SlotRegistry.upEvents],
    by simp, by simp [written]⟩

section Contacts

variable [HAdd Time Duration Time] {display : Display} {r : SlotRegistry Time Duration}
  {owner : Owners Display}

omit [HAdd Time Duration Time] in
/-- A registered identifier keeps its display. -/
theorem Owners.touch_registered {id : UInt32} {slot : Nat} (hid : r.mIdMap.lookup id = some slot)
    (t : Touch) : owner.touch display r t id = owner id := by
  unfold Owners.touch
  split
  · rfl
  · rename_i hregistered
    have hne : id ≠ t.identifier := by
      intro heq
      rw [heq] at hid
      exact hregistered (SlotRegistry.isIdentifierRegistered_eq_true hid)
    rw [Function.update_of_ne hne]

/-- A touch announces the contact it begins. -/
theorem Touch.announces (t : Touch) (w h : UInt32) (now : Time) {id : UInt32} {slot : Nat}
    (hid : (t.toEvDevEvents w h r now).2.mIdMap.lookup id = some slot) :
    r.mIdMap.lookup id = some slot ∨
      r.mIdMap.lookup id = none ∧ id = t.identifier ∧
        ⟨.EV_ABS, .ABS_MT_TRACKING_ID, UInt32.ofNat slot⟩ ∈ (t.toEvDevEvents w h r now).1 := by
  by_cases hsame : id = t.identifier
  · subst hsame
    rcases t.toEvDevEvents_self w h r now hid with ⟨hold, -⟩ | ⟨hnone, hmem, -⟩
    · exact .inl hold
    · exact .inr ⟨hnone, rfl, hmem⟩
  · rw [(t.toEvDevEvents_other w h r now hsame).1] at hid
    exact .inl hid

/-- A touch lifts the contact it ends. -/
theorem Touch.lifts (t : Touch) (w h : UInt32) (now : Time) {id : UInt32} {slot : Nat}
    (hid : r.mIdMap.lookup id = some slot) :
    (t.toEvDevEvents w h r now).2.mIdMap.lookup id = some slot ∨
      id = t.identifier ∧ Lifts (UInt32.ofNat slot) (t.toEvDevEvents w h r now).1 := by
  by_cases hsame : id = t.identifier
  · subst hsame
    rw [t.toEvDevEvents_known w h now hid]
    by_cases hp : t.pressure = 0
    · exact .inr ⟨rfl, Touch.lifts_slotEvents hp w h _⟩
    · rw [if_neg hp]
      exact .inl hid
  · rw [(t.toEvDevEvents_other w h r now hsame).1]
    exact .inl hid

/-- **The contacts that begin** in an event belong to its display and are announced. -/
theorem sendPointers_announces (display : Display) (owner : Owners Display) (w h : UInt32)
    (pointers : List (Pointer × Time)) {id : UInt32}
    (hbefore : ∀ slot, r.mIdMap.lookup id = some slot → owner id = some display) {slot : Nat}
    (hid : (sendPointers w h pointers r).2.mIdMap.lookup id = some slot) :
    owner.note display w h pointers r id = some display ∧
      (r.mIdMap.lookup id = some slot ∨
        ⟨.EV_ABS, .ABS_MT_TRACKING_ID, UInt32.ofNat slot⟩ ∈ (sendPointers w h pointers r).1) := by
  induction pointers generalizing r owner with
  | nil => exact ⟨hbefore slot hid, .inl hid⟩
  | cons p pointers ih =>
    obtain ⟨p, now⟩ := p
    have heq := p.toEvDevEvents_eq w h r now
    have hfirst {slot : Nat} (hslot : (p.toEvDevEvents w h r now).2.mIdMap.lookup id = some slot) :
        r.mIdMap.lookup id = some slot ∨ r.mIdMap.lookup id = none ∧ id = p.toTouch.identifier ∧
          ⟨.EV_ABS, .ABS_MT_TRACKING_ID, UInt32.ofNat slot⟩ ∈ (p.toEvDevEvents w h r now).1 := by
      rw [heq] at hslot ⊢
      rcases p.toTouch.announces w h now hslot with hold | ⟨hnone, hsame, hmem⟩
      · exact .inl hold
      · exact .inr ⟨hnone, hsame, List.mem_append_right _ hmem⟩
    have hmiddle (slot : Nat) (hslot : (p.toEvDevEvents w h r now).2.mIdMap.lookup id = some slot) :
        owner.touch display r p.toTouch id = some display := by
      rcases hfirst hslot with hold | ⟨hnone, hsame, -⟩
      · rw [Owners.touch_registered hold]
        exact hbefore slot hold
      · rw [Owners.touch, ← hsame, SlotRegistry.isIdentifierRegistered_eq_false hnone, if_neg Bool.false_ne_true,
          Function.update_self]
    obtain ⟨howner, hslot⟩ := ih _ hmiddle hid
    refine ⟨howner, ?_⟩
    rcases hslot with hold | hmem
    · rcases hfirst hold with hold | ⟨-, -, hmem⟩
      · exact .inl hold
      · exact .inr (List.mem_append_left _ hmem)
    · exact .inr (List.mem_append_right _ hmem)

/-- **The contacts that end** in an event belong to its display and are lifted. -/
theorem sendPointers_lifts (w h : UInt32) (pointers : List (Pointer × Time))
    (hapart : PointersApart display w h pointers r owner) {id : UInt32} {slot : Nat}
    (hid : r.mIdMap.lookup id = some slot) :
    ((sendPointers w h pointers r).2.mIdMap.lookup id = some slot ∧
      owner.note display w h pointers r id = owner id) ∨
    owner id = some display ∧ Lifts (UInt32.ofNat slot) (sendPointers w h pointers r).1 := by
  induction pointers generalizing r owner with
  | nil => exact .inl ⟨hid, rfl⟩
  | cons p pointers ih =>
    obtain ⟨p, now⟩ := p
    obtain ⟨hfirst, hrest⟩ := hapart
    have heq := p.toEvDevEvents_eq w h r now
    have howner : owner.touch display r p.toTouch id = owner id := Owners.touch_registered hid p.toTouch
    rcases p.toTouch.lifts w h now hid with hkept | ⟨hsame, hlifts⟩
    · have hkept' : (p.toEvDevEvents w h r now).2.mIdMap.lookup id = some slot := by
        rw [heq]
        exact hkept
      rcases ih hrest hkept' with ⟨hslot, hnote⟩ | ⟨hown, hlifts⟩
      · exact .inl ⟨hslot, hnote.trans howner⟩
      · exact .inr ⟨howner ▸ hown, hlifts.append_left _⟩
    · refine .inr ⟨hsame ▸ hfirst.1 (SlotRegistry.isIdentifierRegistered_eq_true (hsame ▸ hid)), ?_⟩
      refine Lifts.append_right ?_ _
      show Lifts _ (p.toEvDevEvents w h r now).1
      rw [heq]
      exact hlifts.append_left _

end Contacts

/-! ### The contacts of one display -/

variable [DecidableEq Display]

/-- `alone` holds the contacts of the display, with their slots and deadlines. -/
structure Restricts (display : Display) (r : SlotRegistry Time Duration) (owner : Owners Display)
    (alone : SlotRegistry Time Duration) : Prop where
  map : ∀ id, alone.mIdMap.lookup id = if owner id = some display then r.mIdMap.lookup id else none
  epoch : ∀ id, alone.mIdLastUsedEpoch.lookup id =
    if owner id = some display then r.mIdLastUsedEpoch.lookup id else none
  expiration : alone.mSlotExpiration = r.mSlotExpiration

section Restricts

variable {display : Display} {r alone : SlotRegistry Time Duration} {owner : Owners Display}

/-- The slots of the display are some of the slots. -/
theorem Restricts.used (h : Restricts display r owner alone) (halone : alone.WF) (slot : Nat) :
    slot ∈ alone.mUsedSlots ↔ ∃ id, owner id = some display ∧ r.mIdMap.lookup id = some slot := by
  rw [halone.used]
  refine exists_congr fun id => ?_
  rw [h.map]
  by_cases hown : owner id = some display <;> simp [hown]

/-- The first free slot is the same, if each slot of the others lies above a free one. -/
theorem Restricts.findNextFreeSlot_eq (h : Restricts display r owner alone) (hr : r.WF) (halone : alone.WF)
    (hothers : ∀ e ∈ r.mIdMap.entries, owner e.1 ≠ some display →
      ∃ free < e.2, free ∉ r.mUsedSlots) :
    alone.findNextFreeSlot = r.findNextFreeSlot := by
  -- below the first free slot there are contacts of the display only
  have hown {n : Nat} (hbelow : ∀ k < n, k ∈ r.mUsedSlots) : ∀ k < n, k ∈ alone.mUsedSlots := by
    intro k hk
    obtain ⟨id, hid⟩ := (hr.used k).mp (hbelow k hk)
    by_cases howner : owner id = some display
    · exact (h.used halone k).mpr ⟨id, howner, hid⟩
    · obtain ⟨free, hlt, hfree⟩ := hothers ⟨id, k⟩ (AList.mem_lookup_iff.mp hid) howner
      exact absurd (hbelow free (Nat.lt_trans hlt hk)) hfree
  rcases r.findNextFreeSlot_spec with ⟨hfull, hall⟩ | ⟨slot, hfree, hbound, hslot, hbelow⟩
  · rw [hfull]
    exact SlotRegistry.findNextFreeSlot_eq_none (hown hall)
  · rw [hfree]
    refine SlotRegistry.findNextFreeSlot_eq hbound (fun hmem => hslot ?_) (hown hbelow)
    obtain ⟨id, -, hid⟩ := (h.used halone slot).mp hmem
    exact (hr.used slot).mpr ⟨id, hid⟩

/-- An identifier that is not registered may change its display. -/
theorem Restricts.update (h : Restricts display r owner alone) (hr : r.WF) {id : UInt32}
    (hid : r.mIdMap.lookup id = none) (other : Display) :
    Restricts display r (Function.update owner id (some other)) alone where
  map := by
    intro id'
    rw [h.map, Function.update_apply]
    by_cases heq : id' = id
    · subst heq
      simp [hid]
    · rw [if_neg heq]
  epoch := by
    have hepoch := hr.epoch_eq_none hid
    intro id'
    rw [h.epoch, Function.update_apply]
    by_cases heq : id' = id
    · subst heq
      simp [hepoch]
    · rw [if_neg heq]
  expiration := h.expiration

/-- A contact of the display is released. -/
theorem Restricts.release (h : Restricts display r owner alone) {id : UInt32} {slot : Nat}
    (hid : r.mIdMap.lookup id = some slot) (hown : owner id = some display) :
    Restricts display (r.releaseSlot id) owner (alone.releaseSlot id) := by
  have halone : alone.mIdMap.lookup id = some slot := by rw [h.map, if_pos hown, hid]
  constructor
  case map =>
    intro id'
    rw [SlotRegistry.releaseSlot_lookup, SlotRegistry.releaseSlot_lookup, h.map]
    by_cases heq : id' = id <;> simp [heq]
  case epoch =>
    intro id'
    rw [SlotRegistry.releaseSlot_epoch halone, SlotRegistry.releaseSlot_epoch hid, h.epoch]
    by_cases heq : id' = id <;> simp [heq]
  case expiration =>
    simp only [SlotRegistry.releaseSlot, hid, halone]
    exact h.expiration

/-- A contact of another display is released. -/
theorem Restricts.release_other (h : Restricts display r owner alone) {id : UInt32} {slot : Nat}
    (hid : r.mIdMap.lookup id = some slot) (hother : owner id ≠ some display) :
    Restricts display (r.releaseSlot id) owner alone := by
  constructor
  case map =>
    intro id'
    rw [SlotRegistry.releaseSlot_lookup, h.map]
    by_cases heq : id' = id <;> simp [heq, hother]
  case epoch =>
    intro id'
    rw [SlotRegistry.releaseSlot_epoch hid, h.epoch]
    by_cases heq : id' = id <;> simp [heq, hother]
  case expiration =>
    simp only [SlotRegistry.releaseSlot, hid]
    exact h.expiration

variable [HAdd Time Duration Time]

/-- A contact begins on the display. -/
theorem Restricts.enter (h : Restricts display r owner alone) (id : UInt32) (slot : Nat) (now : Time) :
    Restricts display (r.enter id slot now) (Function.update owner id (some display))
      (alone.enter id slot now) := by
  constructor
  case map =>
    intro id'
    simp only [SlotRegistry.enter, SlotRegistry.lookup_insert_eq, h.map, Function.update_apply]
    by_cases heq : id' = id <;> simp [heq]
  case epoch =>
    intro id'
    simp only [SlotRegistry.enter, SlotRegistry.lookup_insert_eq, h.epoch, h.expiration,
      Function.update_apply]
    by_cases heq : id' = id <;> simp [heq]
  case expiration => exact h.expiration

/-- A contact begins on another display. -/
theorem Restricts.enter_other (h : Restricts display r owner alone) {id : UInt32} {other : Display}
    (hother : other ≠ display) (hid : alone.mIdMap.lookup id = none) (halone : alone.WF) (slot : Nat)
    (now : Time) :
    Restricts display (r.enter id slot now) (Function.update owner id (some other)) alone := by
  have hepoch := halone.epoch_eq_none hid
  constructor
  case map =>
    intro id'
    simp only [SlotRegistry.enter, SlotRegistry.lookup_insert_eq, Function.update_apply]
    by_cases heq : id' = id
    · subst heq
      simp [hid, hother]
    · simp [heq, h.map]
  case epoch =>
    intro id'
    simp only [SlotRegistry.enter, SlotRegistry.lookup_insert_eq, Function.update_apply]
    by_cases heq : id' = id
    · subst heq
      simp [hepoch, hother]
    · simp [heq, h.epoch]
  case expiration => exact h.expiration

/-- **A touch on the display** sends the same events as it would without the others. -/
theorem Restricts.touch (h : Restricts display r owner alone) (hr : r.WF) (halone : alone.WF) (t : Touch)
    (hapart : TouchApart display r owner t) (w h' : UInt32) (now : Time) :
    (t.toEvDevEvents w h' alone now).1 = (t.toEvDevEvents w h' r now).1 ∧
    Restricts display (t.toEvDevEvents w h' r now).2 (owner.touch display r t)
      (t.toEvDevEvents w h' alone now).2 := by
  cases hid : r.mIdMap.lookup t.identifier with
  | some slot =>
    -- a known identifier is known to the display alone as well, with the same slot
    have hregistered := SlotRegistry.isIdentifierRegistered_eq_true hid
    have hown := hapart.1 hregistered
    have hid' : alone.mIdMap.lookup t.identifier = some slot := by rw [h.map, if_pos hown, hid]
    rw [t.toEvDevEvents_known w h' now hid, t.toEvDevEvents_known w h' now hid', Owners.touch,
      if_pos hregistered]
    refine ⟨rfl, ?_⟩
    split
    · exact h.release hid hown
    · exact h
  | none =>
    have hregistered := SlotRegistry.isIdentifierRegistered_eq_false hid
    have hid' : alone.mIdMap.lookup t.identifier = none := by rw [h.map, hid, ite_self]
    have howner : owner.touch display r t = Function.update owner t.identifier (some display) := by
      rw [Owners.touch, hregistered]
      rfl
    rw [howner]
    by_cases hp : t.pressure = 0
    · rw [t.toEvDevEvents_dropped w h' now hid hp, t.toEvDevEvents_dropped w h' now hid' hp]
      exact ⟨rfl, h.update hr hid display⟩
    · -- a new contact gets the same slot, or is refused in both
      have hfree := h.findNextFreeSlot_eq hr halone (hapart.2 hregistered hp)
      rcases r.findNextFreeSlot_spec with ⟨hfull, -⟩ | ⟨slot, hslot, -⟩
      · rw [t.toEvDevEvents_refused w h' now hid hp hfull,
          t.toEvDevEvents_refused w h' now hid' hp (hfree.trans hfull)]
        exact ⟨rfl, h.update hr hid display⟩
      · rw [t.toEvDevEvents_begins w h' now hid hp hslot,
          t.toEvDevEvents_begins w h' now hid' hp (hfree.trans hslot)]
        exact ⟨rfl, h.enter t.identifier slot now⟩

/-- **A touch on another display** leaves the contacts of this one as they are. -/
theorem Restricts.touch_other (h : Restricts display r owner alone) (hr : r.WF) (halone : alone.WF)
    {other : Display} (hother : other ≠ display) (t : Touch) (hapart : TouchApart other r owner t)
    (w h' : UInt32) (now : Time) :
    Restricts display (t.toEvDevEvents w h' r now).2 (owner.touch other r t) alone := by
  cases hid : r.mIdMap.lookup t.identifier with
  | some slot =>
    have hregistered := SlotRegistry.isIdentifierRegistered_eq_true hid
    have hforeign : owner t.identifier ≠ some display := by
      rw [hapart.1 hregistered]
      simpa using hother
    rw [t.toEvDevEvents_known w h' now hid, Owners.touch, if_pos hregistered]
    dsimp only
    split
    · exact h.release_other hid hforeign
    · exact h
  | none =>
    have hid' : alone.mIdMap.lookup t.identifier = none := by rw [h.map, hid, ite_self]
    rw [Owners.touch, SlotRegistry.isIdentifierRegistered_eq_false hid, if_neg Bool.false_ne_true]
    rcases t.toEvDevEvents_cases w h' r now with
      ⟨slot, hsome, -⟩ | ⟨-, -, heq⟩ | ⟨slot, -, -, -, -, -, heq⟩ | ⟨-, -, -, heq⟩
    · rw [hid] at hsome
      cases hsome
    · rw [heq]
      exact h.update hr hid other
    · rw [heq]
      exact h.enter_other hother hid' halone slot now
    · rw [heq]
      exact h.update hr hid other

/-- **The elements of an event for the display.** -/
theorem Restricts.pointers (w h' : UInt32) (pointers : List (Pointer × Time))
    (h : Restricts display r owner alone) (hr : r.WF) (halone : alone.WF)
    (hapart : PointersApart display w h' pointers r owner) :
    (sendPointers w h' pointers alone).1 = (sendPointers w h' pointers r).1 ∧
    Restricts display (sendPointers w h' pointers r).2 (owner.note display w h' pointers r)
      (sendPointers w h' pointers alone).2 := by
  induction pointers generalizing r alone owner with
  | nil => exact ⟨rfl, h⟩
  | cons p pointers ih =>
    obtain ⟨p, now⟩ := p
    obtain ⟨hfirst, hrest⟩ := hapart
    obtain ⟨hevents, hrestricts⟩ := h.touch hr halone p.toTouch hfirst w h' now
    have hstep : (p.toEvDevEvents w h' alone now).1 = (p.toEvDevEvents w h' r now).1 ∧
        Restricts display (p.toEvDevEvents w h' r now).2 (owner.touch display r p.toTouch)
          (p.toEvDevEvents w h' alone now).2 := by
      rw [p.toEvDevEvents_eq, p.toEvDevEvents_eq]
      exact ⟨by rw [hevents], hrestricts⟩
    obtain ⟨hmore, hend⟩ := ih hstep.2 (p.toEvDevEvents_wf hr w h' now)
      (p.toEvDevEvents_wf halone w h' now) hrest
    exact ⟨congrArg₂ (· ++ ·) hstep.1 hmore, hend⟩

/-- **The elements of an event for another display.** -/
theorem Restricts.pointers_other (w h' : UInt32) (pointers : List (Pointer × Time))
    (h : Restricts display r owner alone) (hr : r.WF) (halone : alone.WF) {other : Display}
    (hother : other ≠ display) (hapart : PointersApart other w h' pointers r owner) :
    Restricts display (sendPointers w h' pointers r).2 (owner.note other w h' pointers r) alone := by
  induction pointers generalizing r owner with
  | nil => exact h
  | cons p pointers ih =>
    obtain ⟨p, now⟩ := p
    obtain ⟨hfirst, hrest⟩ := hapart
    have hstep : Restricts display (p.toEvDevEvents w h' r now).2 (owner.touch other r p.toTouch) alone := by
      rw [p.toEvDevEvents_eq]
      exact h.touch_other hr halone hother p.toTouch hfirst w h' now
    exact ih hstep (p.toEvDevEvents_wf hr w h' now) hrest

end Restricts

/-! ### Expiry -/

section Expiry

variable [LT Time] [DecidableLT Time] {display : Display} {r alone : SlotRegistry Time Duration}
  {owner : Owners Display}

/-- The entries that are removed, in order, are determined by what they are. -/
theorem Call.expiring_congr (c : Call Time) {m m' : IdMap Time}
    (h : ∀ id deadline, deadline < c.now → (m.lookup id = some deadline ↔ m'.lookup id = some deadline)) :
    c.expiring m = c.expiring m' := by
  have hmem (e : Σ _ : UInt32, Time) : e ∈ c.expiring m ↔ e ∈ c.expiring m' := by
    rw [Call.mem_expiring, Call.mem_expiring]
    exact and_congr_left (h e.1 e.2)
  have hnodup (m : IdMap Time) : (c.expiring m).Nodup :=
    ((c.visit_perm m).nodup_iff.mpr m.nodupKeys.nodup).filter _
  have hsorted (m : IdMap Time) : (c.expiring m).Pairwise c.Before := (c.visit_sorted m).filter _
  -- two sorted lists with the same elements
  refine List.Perm.eq_of_pairwise ?_ (hsorted m) (hsorted m')
    ((List.perm_ext_iff_of_nodup (hnodup m) (hnodup m')).mpr hmem)
  intro a b ha hb hab hba
  have hkey := c.before_antisymm hab hba
  have hvalue : some a.2 = some b.2 := by
    rw [← (Call.mem_expiring.mp ((hmem a).mp ha)).1, ← (Call.mem_expiring.mp hb).1, hkey]
  exact Sigma.ext hkey (heq_of_eq (Option.some.inj hvalue))

/-- What expires for the display alone is what expires of its contacts. -/
theorem Restricts.expired (h : Restricts display r owner alone) (now : Time) (id : UInt32) :
    alone.expired now id = true ↔ owner id = some display ∧ r.expired now id = true := by
  rw [SlotRegistry.expired_iff, SlotRegistry.expired_iff, h.epoch]
  by_cases hown : owner id = some display <;> simp [hown]

/-- Where only contacts of the display expire, the same events are sent. -/
theorem Restricts.expiring (h : Restricts display r owner alone) (c : Call Time)
    (hexpired : ∀ id, r.expired c.now id = true → owner id = some display) :
    (c.expiring alone.mIdLastUsedEpoch).flatMap (fun e => SlotRegistry.upEvents (alone.slotOf e.1)) =
      (c.expiring r.mIdLastUsedEpoch).flatMap fun e => SlotRegistry.upEvents (r.slotOf e.1) := by
  have hown {id : UInt32} {deadline : Time} (hlt : deadline < c.now)
      (hid : r.mIdLastUsedEpoch.lookup id = some deadline) : owner id = some display :=
    hexpired id (SlotRegistry.expired_iff.mpr ⟨deadline, hid, hlt⟩)
  have hsame : c.expiring alone.mIdLastUsedEpoch = c.expiring r.mIdLastUsedEpoch := by
    refine c.expiring_congr fun id deadline hlt => ?_
    rw [h.epoch]
    constructor
    · intro hid
      split_ifs at hid
      exact hid
    · intro hid
      rw [if_pos (hown hlt hid)]
      exact hid
  rw [hsame]
  refine List.flatMap_congr fun e he => ?_
  obtain ⟨hid, hlt⟩ := Call.mem_expiring.mp he
  rw [SlotRegistry.slotOf, SlotRegistry.slotOf, h.map, if_pos (hown hlt hid)]

/-- The contacts of the display after an expiry. -/
theorem Restricts.after (h : Restricts display r owner alone) (now : Time)
    {r' alone' : SlotRegistry Time Duration}
    (hmap : ∀ id, r'.mIdMap.lookup id = if r.expired now id then none else r.mIdMap.lookup id)
    (hepoch : ∀ id, r'.mIdLastUsedEpoch.lookup id =
      if r.expired now id then none else r.mIdLastUsedEpoch.lookup id)
    (hmap' : ∀ id, alone'.mIdMap.lookup id =
      if owner id = some display ∧ r.expired now id = true then none else alone.mIdMap.lookup id)
    (hepoch' : ∀ id, alone'.mIdLastUsedEpoch.lookup id =
      if owner id = some display ∧ r.expired now id = true then none else alone.mIdLastUsedEpoch.lookup id)
    (hexpiration : alone'.mSlotExpiration = r'.mSlotExpiration) : Restricts display r' owner alone' where
  map := by
    intro id
    rw [hmap', h.map, hmap]
    by_cases hown : owner id = some display <;> simp [hown]
  epoch := by
    intro id
    rw [hepoch', h.epoch, hepoch]
    by_cases hown : owner id = some display <;> simp [hown]
  expiration := hexpiration

end Expiry

/-! ### Runs -/

/-- The second dispatcher has seen the calls for the display only. -/
structure Alone (display : Display) (s t : Desk Display Time Duration) : Prop where
  wf : s.registry.WF
  wf' : t.registry.WF
  restricts : Restricts display s.registry s.owner t.registry
  sent : s.sent display = t.sent display

theorem Alone.init (display : Display) (slotExpiration : Duration) :
    Alone display (Desk.init slotExpiration : Desk Display Time Duration) (Desk.init slotExpiration) where
  wf := SlotRegistry.init_wf slotExpiration
  wf' := SlotRegistry.init_wf slotExpiration
  restricts := ⟨fun id => by simp [Desk.init, SlotRegistry.init],
    fun id => by simp [Desk.init, SlotRegistry.init], rfl⟩
  sent := rfl

section Runs

variable [HAdd Time Duration Time] [LT Time] [DecidableLT Time]

/-- A call as a whole. -/
theorem Desk.step_spec (s : Desk Display Time Duration) (a : Addressed Display Time) (hr : s.registry.WF) :
    ∃ s' touched events, s.step a = .ok s' ∧
      sendPointers a.call.w a.call.h a.call.pointers s.registry = (events, touched) ∧
      s'.sent = Function.update s.sent a.display (s.sent a.display ++ (events
        ++ (a.call.expiring touched.mIdLastUsedEpoch).flatMap
          (fun e => SlotRegistry.upEvents (touched.slotOf e.1))
        ++ [⟨.EV_SYN, .SYN_REPORT, 0⟩])) ∧
      s'.owner = s.owner.note a.display a.call.w a.call.h a.call.pointers s.registry ∧
      touched.WF ∧ s'.registry.WF ∧ s'.registry.mSlotExpiration = touched.mSlotExpiration ∧
      (∀ id, s'.registry.mIdMap.lookup id =
        if touched.expired a.call.now id then none else touched.mIdMap.lookup id) ∧
      ∀ id, s'.registry.mIdLastUsedEpoch.lookup id =
        if touched.expired a.call.now id then none else touched.mIdLastUsedEpoch.lookup id := by
  have hpointers := (Prod.mk.eta (p := sendPointers a.call.w a.call.h a.call.pointers s.registry)).symm
  obtain ⟨r', hrun, hspec⟩ := sendEvents_spec a.call hr hpointers
  exact ⟨_, _, _, by simp only [Desk.step, hrun, ok_bind]; rfl, hpointers, rfl, rfl,
    sendPointers_wf hr _ _ _, hspec⟩

omit [DecidableEq Display] in
/-- The condition on the expiry, for what has expired. -/
theorem Desk.Apart.expired {s : Desk Display Time Duration} {a : Addressed Display Time} (h : s.Apart a)
    {touched : SlotRegistry Time Duration} {events : List EvDevEvent}
    (hpointers : sendPointers a.call.w a.call.h a.call.pointers s.registry = (events, touched))
    (id : UInt32) (hid : touched.expired a.call.now id = true) :
    s.owner.note a.display a.call.w a.call.h a.call.pointers s.registry id = some a.display := by
  obtain ⟨deadline, hdeadline, hlt⟩ := SlotRegistry.expired_iff.mp hid
  have hexpired := h.2 ⟨id, deadline⟩
  rw [hpointers] at hexpired
  exact hexpired (AList.mem_lookup_iff.mp hdeadline) hlt

/-- A call for the display. -/
theorem Alone.step {display : Display} {s t : Desk Display Time Duration} (h : Alone display s t)
    (a : Addressed Display Time) (hapart : s.Apart a) (ha : a.display = display) :
    ∃ s' t', s.step a = .ok s' ∧ t.step a = .ok t' ∧ Alone display s' t' := by
  subst ha
  obtain ⟨s', touched, events, hs, hpointers, hsent, howner, -, hwf, hexpiration, hmap, hepoch⟩ :=
    s.step_spec a h.wf
  obtain ⟨t', touched', events', ht, hpointers', hsent', -, -, hwf', hexpiration', hmap', hepoch'⟩ :=
    t.step_spec a h.wf'
  obtain ⟨hsame, hrestricts⟩ := h.restricts.pointers a.call.w a.call.h a.call.pointers h.wf h.wf' hapart.1
  rw [hpointers, hpointers'] at hsame hrestricts
  dsimp only at hsame hrestricts
  refine ⟨s', t', hs, ht, hwf, hwf', ?_, ?_⟩
  · rw [howner]
    refine hrestricts.after a.call.now hmap hepoch (fun id => ?_) (fun id => ?_) ?_
    · rw [hmap']
      exact if_congr (hrestricts.expired a.call.now id) rfl rfl
    · rw [hepoch']
      exact if_congr (hrestricts.expired a.call.now id) rfl rfl
    · rw [hexpiration, hexpiration']
      exact hrestricts.expiration
  · rw [hsent, hsent', Function.update_self, Function.update_self, h.sent, hsame,
      hrestricts.expiring a.call (hapart.expired hpointers)]

/-- A call for another display. -/
theorem Alone.step_other {display : Display} {s t : Desk Display Time Duration} (h : Alone display s t)
    (a : Addressed Display Time) (hapart : s.Apart a) (ha : a.display ≠ display) :
    ∃ s', s.step a = .ok s' ∧ Alone display s' t := by
  obtain ⟨s', touched, events, hs, hpointers, hsent, howner, -, hwf, hexpiration, hmap, hepoch⟩ :=
    s.step_spec a h.wf
  have hrestricts :=
    h.restricts.pointers_other a.call.w a.call.h a.call.pointers h.wf h.wf' ha hapart.1
  rw [hpointers] at hrestricts
  dsimp only at hrestricts
  -- what expires belongs to the display of the call
  have hkept (id : UInt32) : ¬ (s.owner.note a.display a.call.w a.call.h a.call.pointers s.registry id =
      some display ∧ touched.expired a.call.now id = true) := by
    intro hboth
    rw [hapart.expired hpointers id hboth.2] at hboth
    exact ha (Option.some.inj hboth.1)
  refine ⟨s', hs, hwf, h.wf', ?_, ?_⟩
  · rw [howner]
    refine hrestricts.after a.call.now hmap hepoch (fun id => ?_) (fun id => ?_) ?_
    · rw [if_neg (hkept id)]
    · rw [if_neg (hkept id)]
    · rw [hexpiration]
      exact hrestricts.expiration
  · rw [hsent, Function.update_of_ne (Ne.symm ha), h.sent]

/-- Where the contacts of a call begin and end. -/
theorem Desk.step_contacts (s : Desk Display Time Duration) (a : Addressed Display Time)
    (hr : s.registry.WF) (hapart : s.Apart a) :
    ∃ s' events, s.step a = .ok s' ∧
      s'.sent = Function.update s.sent a.display (s.sent a.display ++ events) ∧
      (∀ id slot, s.registry.mIdMap.lookup id = none → s'.registry.mIdMap.lookup id = some slot →
        s'.owner id = some a.display ∧
        ⟨.EV_ABS, .ABS_MT_TRACKING_ID, UInt32.ofNat slot⟩ ∈ events) ∧
      ∀ id slot, s.registry.mIdMap.lookup id = some slot → s'.registry.mIdMap.lookup id = none →
        s.owner id = some a.display ∧ Lifts (UInt32.ofNat slot) events := by
  obtain ⟨s', touched, events, hs, hpointers, hsent, howner, -, -, -, hmap, -⟩ := s.step_spec a hr
  refine ⟨s', _, hs, hsent, fun id slot hnone hid => ?_, fun id slot hid hnone => ?_⟩
  · rw [hmap] at hid
    split_ifs at hid
    obtain ⟨hown, hannounced⟩ := sendPointers_announces a.display s.owner a.call.w a.call.h
      a.call.pointers (fun slot' hslot' => by rw [hnone] at hslot'; cases hslot')
      (by rw [hpointers]; exact hid)
    refine ⟨howner ▸ hown, ?_⟩
    rcases hannounced with hold | hmem
    · rw [hnone] at hold
      cases hold
    · rw [hpointers] at hmem
      simp [hmem]
  · have hends := sendPointers_lifts a.call.w a.call.h a.call.pointers hapart.1 hid
    rw [hpointers] at hends
    rcases hends with ⟨hkept, hnote⟩ | ⟨hown, hlifts⟩
    · -- the contact is still there after the touches, so it has expired
      dsimp only at hkept
      rw [hmap, hkept] at hnone
      have hexpired : touched.expired a.call.now id = true := by
        by_contra hnot
        rw [if_neg hnot] at hnone
        cases hnone
      refine ⟨hnote ▸ hapart.expired hpointers id hexpired, ?_⟩
      obtain ⟨deadline, hdeadline⟩ := SlotRegistry.expired_iff.mp hexpired
      obtain ⟨first, rest, hentries⟩ := List.append_of_mem
        (Call.mem_expiring (e := ⟨id, deadline⟩).mpr hdeadline)
      rw [hentries, List.flatMap_append, List.flatMap_cons, SlotRegistry.slotOf_eq hkept]
      exact ((((lifts_upEvents _).append_right _).append_left _).append_left _).append_right _
    · exact ⟨hown, (hlifts.append_right _).append_right _⟩

/-- **Calls that keep to their displays.** Each display is sent what it would be sent without the
calls for the others. A contact that begins is announced on the display of the call, which is then
its display, and a contact that ends is lifted there: this is the display on which it
began. -/
theorem displays_do_not_interfere (slotExpiration : Duration) (calls : List (Addressed Display Time))
    (hcalls : Along Desk.step Desk.Apart (Desk.init slotExpiration) calls) :
    (∀ display, ∃ s t, calls.foldlM Desk.step (Desk.init slotExpiration) = .ok s ∧
      (calls.filter fun a => decide (a.display = display)).foldlM Desk.step (Desk.init slotExpiration) =
        .ok t ∧
      s.sent display = t.sent display) ∧
    ∀ before a after, calls = before ++ a :: after →
      ∃ s s' events, before.foldlM Desk.step (Desk.init slotExpiration) = .ok s ∧ s.step a = .ok s' ∧
        s'.sent = Function.update s.sent a.display (s.sent a.display ++ events) ∧
        (∀ id slot, s.registry.mIdMap.lookup id = none → s'.registry.mIdMap.lookup id = some slot →
          s'.owner id = some a.display ∧
          ⟨.EV_ABS, .ABS_MT_TRACKING_ID, UInt32.ofNat slot⟩ ∈ events) ∧
        ∀ id slot, s.registry.mIdMap.lookup id = some slot → s'.registry.mIdMap.lookup id = none →
          s.owner id = some a.display ∧ Lifts (UInt32.ofNat slot) events := by
  refine ⟨fun display => ?_, fun before a after hsplit => ?_⟩
  · obtain ⟨s, t, hs, ht, halone⟩ := hcalls.filter_related (R := Alone display)
      (fun s t a h hapart ha => Alone.step h a hapart (of_decide_eq_true ha))
      (fun s t a h hapart ha => Alone.step_other h a hapart (of_decide_eq_false ha))
      (Alone.init display slotExpiration)
    exact ⟨s, t, hs, ht, halone.sent⟩
  · obtain ⟨s, hs, hwf, hapart⟩ := hcalls.split (I := fun s => s.registry.WF) (fun s a hr _ => by
      obtain ⟨s', -, -, hs', -, -, -, -, hwf, -⟩ := s.step_spec a hr
      exact ⟨s', hs', hwf⟩) (SlotRegistry.init_wf slotExpiration) hsplit
    obtain ⟨s', events, hs', hsent, hbegins, hends⟩ := s.step_contacts a hwf hapart
    exact ⟨s, s', events, hs, hs', hsent, hbegins, hends⟩

end Runs

/-- A finger on one display and, when it is lifted, two fingers on the other. -/
def twoDisplays : List (Addressed Nat Int) :=
  [⟨0, .touches 0 [.plain 1 5 10 10]⟩, ⟨0, .touches 1 [.plain 1 0 10 10]⟩,
    ⟨1, .touches 2 [.plain 1 5 10 10, .plain 2 5 20 20]⟩, ⟨1, .touches 300 []⟩]

theorem displays_do_not_interfere_twoDisplays :
    ∃ s t : Desk Nat Int Int, twoDisplays.foldlM Desk.step (Desk.init 120) = .ok s ∧
      (twoDisplays.filter fun a => decide (a.display = 1)).foldlM Desk.step (Desk.init 120) = .ok t ∧
      s.sent 1 = t.sent 1 :=
  (displays_do_not_interfere (120 : Int) twoDisplays (by decide +kernel)).1 1

/-- A finger stays on one display; much later there is one on the other. -/
def leftBehind : List (Addressed Nat Int) :=
  [⟨0, .touches 0 [.plain 1 5 10 10]⟩, ⟨1, .touches 200 [.plain 2 5 20 20]⟩]

/-- The first finger expires in the call for the other display, and is lifted there. -/
theorem displays_interfere :
    ∃ s t : Desk Nat Int Int, leftBehind.foldlM Desk.step (Desk.init 120) = .ok s ∧
      (leftBehind.filter fun a => decide (a.display = 1)).foldlM Desk.step (Desk.init 120) = .ok t ∧
      s.sent 1 ≠ t.sent 1 ∧
      ⟨.EV_ABS, .ABS_MT_TRACKING_ID, MTS_POINTER_UP⟩ ∈ s.sent 1 ∧
      ⟨.EV_ABS, .ABS_MT_TRACKING_ID, MTS_POINTER_UP⟩ ∉ s.sent 0 := by
  have hrun : (fun s : Desk Nat Int Int => (s.sent 0, s.sent 1)) <$>
      leftBehind.foldlM Desk.step (Desk.init 120) = .ok
        ([⟨.EV_ABS, .ABS_MT_TRACKING_ID, 0⟩, ⟨.EV_ABS, .ABS_MT_SLOT, 0⟩, ⟨.EV_ABS, .ABS_MT_PRESSURE, 5⟩,
          ⟨.EV_ABS, .ABS_MT_POSITION_X, 3276⟩, ⟨.EV_ABS, .ABS_MT_POSITION_Y, 3276⟩,
          ⟨.EV_SYN, .SYN_REPORT, 0⟩],
        [⟨.EV_ABS, .ABS_MT_TRACKING_ID, 1⟩, ⟨.EV_ABS, .ABS_MT_SLOT, 1⟩, ⟨.EV_ABS, .ABS_MT_PRESSURE, 5⟩,
          ⟨.EV_ABS, .ABS_MT_POSITION_X, 6553⟩, ⟨.EV_ABS, .ABS_MT_POSITION_Y, 6553⟩,
          ⟨.EV_ABS, .ABS_MT_SLOT, 0⟩, ⟨.EV_ABS, .ABS_MT_TRACKING_ID, MTS_POINTER_UP⟩,
          ⟨.EV_SYN, .SYN_REPORT, 0⟩]) := by
    decide +kernel
  have halone : (fun t : Desk Nat Int Int => t.sent 1) <$>
      (leftBehind.filter fun a => decide (a.display = 1)).foldlM Desk.step (Desk.init 120) = .ok
        [⟨.EV_ABS, .ABS_MT_TRACKING_ID, 0⟩, ⟨.EV_ABS, .ABS_MT_SLOT, 0⟩, ⟨.EV_ABS, .ABS_MT_PRESSURE, 5⟩,
          ⟨.EV_ABS, .ABS_MT_POSITION_X, 6553⟩, ⟨.EV_ABS, .ABS_MT_POSITION_Y, 6553⟩,
          ⟨.EV_SYN, .SYN_REPORT, 0⟩] := by
    decide +kernel
  obtain ⟨s, hs, hsent⟩ := map_eq_ok.mp hrun
  obtain ⟨t, ht, hsent'⟩ := map_eq_ok.mp halone
  obtain ⟨h0, h1⟩ := Prod.mk.inj hsent
  refine ⟨s, t, hs, ht, ?_, ?_, ?_⟩
  · rw [h1, hsent']
    decide
  · rw [h1]
    decide
  · rw [h0]
    decide

end Goldfish.Input
