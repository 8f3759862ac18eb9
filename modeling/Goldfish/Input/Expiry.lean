import Goldfish.Input.PointerEvents
import Mathlib.Order.Basic

/-!
# Goldfish.Input.Expiry

**When a contact expires.** A contact should expire when it was not used for the expiration duration.
The registry has `updateSlotExpiration` for this, but no touch calls it: the deadline of a
contact is the time it began plus the duration, however often it is used
(`Timed.deadline`).

So a contact that is not used any more does expire (`Watch.DropsIdle`), and a contact in use is
kept (`Watch.KeepsUsed`) exactly as long as it did not begin longer than the duration ago
(`Watch.Recent`).
-/

namespace Goldfish.Input

open Goldfish.Lib Goldfish.Lib.EvDev

variable {Time Duration : Type}

/-! ### The times of the contacts -/

/-- When the contact of an identifier began, and when the identifier was in an event last. -/
structure Times (Time : Type) where
  began : UInt32 → Option Time
  last : UInt32 → Option Time

/-- The times after a touch. -/
def Times.touch (times : Times Time) (r : SlotRegistry Time Duration) (t : Touch) (now : Time) :
    Times Time where
  began :=
    if r.isIdentifierRegistered t.identifier then times.began
    else Function.update times.began t.identifier (some now)
  last := Function.update times.last t.identifier (some now)

/-- A dispatcher, and the times of its contacts. -/
structure Watch (Time Duration : Type) where
  registry : SlotRegistry Time Duration
  times : Times Time

/-- No identifier was used yet. -/
def Watch.init (slotExpiration : Duration) : Watch Time Duration where
  registry := SlotRegistry.init slotExpiration
  times := { began := fun _ => none, last := fun _ => none }

/-- The readings of the clock during a call. -/
def Call.readings (c : Call Time) : List Time := c.pointers.map (·.2) ++ [c.now]

section Clock

variable [HAdd Time Duration Time]

/-- One element of an event. -/
def Watch.touch (w h : UInt32) (s : Watch Time Duration) (p : Pointer × Time) : Watch Time Duration where
  registry := (p.1.toEvDevEvents w h s.registry p.2).2
  times := s.times.touch s.registry p.1.toTouch p.2

/-- A call as far as the expiry. -/
def Watch.touched (s : Watch Time Duration) (c : Call Time) : Watch Time Duration :=
  c.pointers.foldl (Watch.touch c.w c.h) s

section Order

variable [LT Time] [DecidableLT Time]

/-- A call of `sendEvents`. -/
def Watch.step (s : Watch Time Duration) (c : Call Time) : Except Fault (Watch Time Duration) := do
  let (_, registry) ← sendEvents c s.registry
  return { registry := registry, times := (s.touched c).times }

/-- The expiry of a call. -/
def Watch.expiry (s : Watch Time Duration) (c : Call Time) :
    Except Fault (List EvDevEvent × SlotRegistry Time Duration) :=
  (s.touched c).registry.expireOldSlots c.now (c.visit (s.touched c).registry.mIdLastUsedEpoch)

/-- A contact that was used within the duration is not removed, and nothing is sent for it. -/
def Watch.KeepsUsed [LE Time] (s : Watch Time Duration) (c : Call Time) : Prop :=
  ∀ id slot last, (s.touched c).registry.mIdMap.lookup id = some slot →
    (s.touched c).times.last id = some last → c.now ≤ last + s.registry.mSlotExpiration →
    ∃ up r, s.expiry c = .ok (up, r) ∧ r.mIdMap.lookup id = some slot ∧
      ⟨.EV_ABS, .ABS_MT_SLOT, UInt32.ofNat slot⟩ ∉ up

/-- A contact that was not used within the duration is removed. -/
def Watch.DropsIdle (s : Watch Time Duration) (c : Call Time) : Prop :=
  ∀ id slot last, (s.touched c).registry.mIdMap.lookup id = some slot →
    (s.touched c).times.last id = some last → last + s.registry.mSlotExpiration < c.now →
    ∃ up r, s.expiry c = .ok (up, r) ∧ r.mIdMap.lookup id = none

end Order

/-- A contact that was used within the duration also began within it. -/
def Watch.Recent [LE Time] (s : Watch Time Duration) (c : Call Time) : Prop :=
  ∀ e ∈ (s.touched c).registry.mIdMap.entries, ∀ began ∈ (s.touched c).times.began e.1,
    ∀ last ∈ (s.touched c).times.last e.1, c.now ≤ last + s.registry.mSlotExpiration →
      c.now ≤ began + s.registry.mSlotExpiration

instance Watch.decidableRecent [LE Time] [DecidableLE Time] (s : Watch Time Duration) (c : Call Time) :
    Decidable (s.Recent c) :=
  inferInstanceAs (Decidable (∀ e ∈ _, ∀ began ∈ _, ∀ last ∈ _, _ → _))

/-! ### Deadlines -/

/-- The deadline of a contact is the duration after it began, and it was not used before. -/
structure Timed [LE Time] (slotExpiration : Duration) (s : Watch Time Duration) : Prop where
  wf : s.registry.WF
  expiration : s.registry.mSlotExpiration = slotExpiration
  deadline : ∀ id slot, s.registry.mIdMap.lookup id = some slot →
    ∃ began last, s.times.began id = some began ∧ s.times.last id = some last ∧ began ≤ last ∧
      s.registry.mIdLastUsedEpoch.lookup id = some (began + slotExpiration)

/-- Nothing was used after a time. -/
def NotAfter [LE Time] (s : Watch Time Duration) (t : Time) : Prop :=
  ∀ id last, s.times.last id = some last → last ≤ t

theorem timed_init [LE Time] (slotExpiration : Duration) :
    Timed slotExpiration (Watch.init slotExpiration : Watch Time Duration) where
  wf := SlotRegistry.init_wf slotExpiration
  expiration := rfl
  deadline := by simp [Watch.init, SlotRegistry.init]

section Steps

variable [Preorder Time] {slotExpiration : Duration} {s : Watch Time Duration}

/-- The last use is now, and nothing was used after now. -/
theorem NotAfter.touch {now : Time} (h : NotAfter s now) (w h' : UInt32) (p : Pointer) :
    NotAfter (s.touch w h' (p, now)) now := by
  intro id last hlast
  simp only [Watch.touch, Times.touch, Function.update_apply] at hlast
  split_ifs at hlast with heq
  · exact le_of_eq (Option.some.inj hlast).symm
  · exact h id last hlast

/-- **One touch.** -/
theorem Timed.touch (h : Timed slotExpiration s) (w h' : UInt32) (p : Pointer) {now : Time}
    (hnow : NotAfter s now) : Timed slotExpiration (s.touch w h' (p, now)) := by
  have heq : (s.touch w h' (p, now)).registry = (p.toTouch.toEvDevEvents w h' s.registry now).2 := by
    show (p.toEvDevEvents w h' s.registry now).2 = _
    rw [p.toEvDevEvents_eq]
  have hlast (id : UInt32) : (s.touch w h' (p, now)).times.last id =
      if id = p.toTouch.identifier then some now else s.times.last id := by
    simp only [Watch.touch, Times.touch, Function.update_apply]
  -- the contacts of other identifiers are as they were
  have hother {id : UInt32} (hne : id ≠ p.toTouch.identifier) :
      (s.touch w h' (p, now)).times.began id = s.times.began id := by
    simp only [Watch.touch, Times.touch]
    split
    · rfl
    · rw [Function.update_of_ne hne]
  constructor
  case wf =>
    rw [heq]
    exact p.toTouch.toEvDevEvents_wf h.wf w h' now
  case expiration =>
    rw [heq, p.toTouch.toEvDevEvents_expiration]
    exact h.expiration
  case deadline =>
    intro id slot hid
    rw [heq] at hid ⊢
    by_cases hsame : id = p.toTouch.identifier
    · subst hsame
      rw [hlast, if_pos rfl]
      rcases p.toTouch.toEvDevEvents_self w h' s.registry now hid with
        ⟨hold, hunchanged⟩ | ⟨hnone, -, hepoch⟩
      · -- the contact is used, and its deadline stays as it was
        obtain ⟨began, last, hbegan, huse, hle, hepoch⟩ := h.deadline _ _ hold
        have hkept : (s.touch w h' (p, now)).times.began p.toTouch.identifier = some began := by
          simp only [Watch.touch, Times.touch, SlotRegistry.isIdentifierRegistered_eq_true hold, if_true]
          exact hbegan
        exact ⟨began, now, hkept, rfl, hle.trans (hnow _ _ huse), by rw [hunchanged]; exact hepoch⟩
      · -- it begins now
        have hbegins : (s.touch w h' (p, now)).times.began p.toTouch.identifier = some now := by
          simp only [Watch.touch, Times.touch, SlotRegistry.isIdentifierRegistered_eq_false hnone]
          exact Function.update_self _ _ _
        exact ⟨now, now, hbegins, rfl, le_refl now, by rw [hepoch, h.expiration]⟩
    · obtain ⟨hmap, hepoch⟩ := p.toTouch.toEvDevEvents_other w h' s.registry now hsame
      rw [hlast, if_neg hsame, hother hsame, hepoch]
      exact h.deadline id slot (hmap ▸ hid)

/-- The touches of an event. -/
theorem Timed.touched (w h' : UInt32) (pointers : List (Pointer × Time)) (h : Timed slotExpiration s)
    (hsorted : (pointers.map (·.2)).Pairwise (· ≤ ·)) (hnow : ∀ t ∈ pointers.map (·.2), NotAfter s t) :
    Timed slotExpiration (pointers.foldl (Watch.touch w h') s) ∧
    ∀ t, NotAfter s t → (∀ t' ∈ pointers.map (·.2), t' ≤ t) →
      NotAfter (pointers.foldl (Watch.touch w h') s) t := by
  induction pointers generalizing s with
  | nil => exact ⟨h, fun t ht _ => ht⟩
  | cons p pointers ih =>
    obtain ⟨p, now⟩ := p
    rw [List.map_cons, List.pairwise_cons] at hsorted
    have hfirst := hnow now (by simp)
    have hlater {t : Time} (ht : now ≤ t) : NotAfter (s.touch w h' (p, now)) t :=
      fun id last hlast => (hfirst.touch w h' p id last hlast).trans ht
    obtain ⟨htimed, hafter⟩ := ih (h.touch w h' p hfirst) hsorted.2
      fun t ht => hlater (hsorted.1 t ht)
    refine ⟨htimed, fun t ht hall => hafter t (hlater (hall now (by simp))) fun t' ht' => hall t' ?_⟩
    exact List.mem_cons_of_mem _ ht'

end Steps

theorem Watch.touched_registry (s : Watch Time Duration) (c : Call Time) :
    (s.touched c).registry = (sendPointers c.w c.h c.pointers s.registry).2 := by
  have hfold (pointers : List (Pointer × Time)) (s : Watch Time Duration) :
      (pointers.foldl (Watch.touch c.w c.h) s).registry =
        (sendPointers c.w c.h pointers s.registry).2 := by
    induction pointers generalizing s with
    | nil => rfl
    | cons p pointers ih => exact ih (s.touch c.w c.h p)
  exact hfold c.pointers s

/-! ### Calls -/

section Calls

variable [LinearOrder Time] {slotExpiration : Duration} {s : Watch Time Duration}

/-- A call goes through, and deadlines stay what they are. -/
theorem Timed.step (h : Timed slotExpiration s) (c : Call Time) (hsorted : c.readings.Pairwise (· ≤ ·))
    (hnow : ∀ t ∈ c.readings, NotAfter s t) :
    Timed slotExpiration (s.touched c) ∧
    ∃ s', s.step c = .ok s' ∧ Timed slotExpiration s' ∧ NotAfter s' c.now := by
  rw [Call.readings, List.pairwise_append] at hsorted
  obtain ⟨htimed, hafter⟩ := h.touched c.w c.h c.pointers hsorted.1
    fun t ht => hnow t (List.mem_append_left _ ht)
  have hlast := hafter c.now (hnow c.now (by simp [Call.readings]))
    fun t ht => hsorted.2.2 t ht c.now (by simp)
  refine ⟨htimed, ?_⟩
  obtain ⟨r', hrun, hwf, hexpiration, hmap, hepoch⟩ := sendEvents_spec c h.wf
    (Prod.mk.eta (p := sendPointers c.w c.h c.pointers s.registry)).symm
  rw [← s.touched_registry] at hexpiration hmap hepoch
  refine ⟨⟨r', (s.touched c).times⟩, by simp only [Watch.step, hrun, ok_bind]; rfl, ⟨hwf, ?_, ?_⟩, hlast⟩
  · rw [hexpiration]
    exact htimed.expiration
  · intro id slot hid
    rw [hmap] at hid
    split_ifs at hid with hkept
    obtain ⟨began, last, hbegan, huse, hle, hdeadline⟩ := htimed.deadline id slot hid
    refine ⟨began, last, hbegan, huse, hle, ?_⟩
    rw [hepoch, if_neg hkept]
    exact hdeadline

/-- What an expiry does to a contact. -/
theorem Watch.expiry_spec {c : Call Time} (hr : (s.touched c).registry.WF) {id : UInt32} {slot : Nat}
    (hid : (s.touched c).registry.mIdMap.lookup id = some slot) :
    ∃ up r, s.expiry c = .ok (up, r) ∧
      ((s.touched c).registry.expired c.now id = true → r.mIdMap.lookup id = none) ∧
      ((s.touched c).registry.expired c.now id = false → r.mIdMap.lookup id = some slot ∧
        ⟨.EV_ABS, .ABS_MT_SLOT, UInt32.ofNat slot⟩ ∉ up) := by
  obtain ⟨r, hrun, -, -, hmap, -⟩ := SlotRegistry.expireOldSlots_spec hr c.now (c.visit_perm _)
  refine ⟨_, r, hrun, fun hexpired => ?_, fun hkept => ⟨?_, fun hsent => ?_⟩⟩
  · rw [hmap, if_pos hexpired]
  · rw [hmap, hkept]
    exact hid
  · -- an event for this slot is one for this contact
    obtain ⟨e, he, hmem⟩ := List.mem_flatMap.mp hsent
    obtain ⟨hentry, hlt⟩ := Call.mem_expiring.mp he
    obtain ⟨m, hm⟩ := hr.exists_slot hentry
    have hslot : UInt32.ofNat slot = UInt32.ofNat m := by
      simpa [SlotRegistry.upEvents, SlotRegistry.slotOf_eq hm] using hmem
    have hne : id ≠ e.1 := by
      intro hsame
      rw [hsame, SlotRegistry.expired_iff.mpr ⟨e.2, hentry, hlt⟩] at hkept
      cases hkept
    exact hr.slot_ne hm hid hne hslot

/-- A contact has expired if it began longer than the duration ago. -/
theorem Timed.expired_iff {c : Call Time} (h : Timed slotExpiration (s.touched c)) {id : UInt32} {slot : Nat}
    (hid : (s.touched c).registry.mIdMap.lookup id = some slot) {began : Time}
    (hbegan : (s.touched c).times.began id = some began) :
    (s.touched c).registry.expired c.now id = true ↔ began + slotExpiration < c.now := by
  obtain ⟨began', -, hbegan', -, -, hepoch⟩ := h.deadline id slot hid
  rw [hbegan] at hbegan'
  cases hbegan'
  rw [SlotRegistry.expired_iff, hepoch]
  simp

/-- **A contact in use is kept** exactly if it began within the duration. -/
theorem Timed.keepsUsed_iff {c : Call Time} (h : Timed slotExpiration (s.touched c))
    (hexpiration : s.registry.mSlotExpiration = slotExpiration) : s.KeepsUsed c ↔ s.Recent c := by
  unfold Watch.KeepsUsed Watch.Recent
  rw [hexpiration]
  constructor
  · intro hkeeps e he began hbegan last hlast hle
    have hid : (s.touched c).registry.mIdMap.lookup e.1 = some e.2 := AList.mem_lookup_iff.mpr he
    obtain ⟨up, r, hrun, hkept, -⟩ := hkeeps e.1 e.2 last hid hlast hle
    obtain ⟨up', r', hrun', hgone, -⟩ := Watch.expiry_spec h.wf hid
    rw [hrun] at hrun'
    cases hrun'
    by_contra hlt
    rw [hgone ((h.expired_iff hid hbegan).mpr (not_le.mp hlt))] at hkept
    cases hkept
  · intro hrecent id slot last hid hlast hle
    obtain ⟨began, -, hbegan, -⟩ := h.deadline id slot hid
    obtain ⟨up, r, hrun, -, hkept⟩ := Watch.expiry_spec h.wf hid
    refine ⟨up, r, hrun, hkept ?_⟩
    rw [← Bool.not_eq_true, h.expired_iff hid hbegan, not_lt]
    exact hrecent ⟨id, slot⟩ (AList.mem_lookup_iff.mp hid) began hbegan last hlast hle

/-- **A contact that is not used any more** is removed, since it began before it was used last. -/
theorem Timed.dropsIdle {c : Call Time} (h : Timed slotExpiration (s.touched c))
    (hexpiration : s.registry.mSlotExpiration = slotExpiration)
    (hadd : ∀ (t t' : Time) (d : Duration), t ≤ t' → t + d ≤ t' + d) : s.DropsIdle c := by
  intro id slot last hid hlast hlt
  rw [hexpiration] at hlt
  obtain ⟨began, last', hbegan, hlast', hle, -⟩ := h.deadline id slot hid
  rw [hlast] at hlast'
  cases hlast'
  obtain ⟨up, r, hrun, hgone, -⟩ := Watch.expiry_spec h.wf hid
  exact ⟨up, r, hrun, hgone ((h.expired_iff hid hbegan).mpr ((hadd began last _ hle).trans_lt hlt))⟩

/-! ### Runs -/

/-- Runs from a state in which deadlines are what they should be. -/
theorem Timed.runs (hadd : ∀ (t t' : Time) (d : Duration), t ≤ t' → t + d ≤ t' + d)
    (calls : List (Call Time)) (h : Timed slotExpiration s)
    (hclock : (calls.flatMap Call.readings).Pairwise (· ≤ ·))
    (hnow : ∀ t ∈ calls.flatMap Call.readings, NotAfter s t) :
    (∃ s', calls.foldlM Watch.step s = .ok s') ∧
    (Along Watch.step (fun s c => s.KeepsUsed c ∧ s.DropsIdle c) s calls ↔
      Along Watch.step Watch.Recent s calls) ∧
    Along Watch.step Watch.DropsIdle s calls := by
  induction calls generalizing s with
  | nil => exact ⟨⟨s, rfl⟩, Iff.rfl, trivial⟩
  | cons c calls ih =>
    rw [List.flatMap_cons, List.pairwise_append] at hclock
    obtain ⟨htouched, s', hs', htimed, hlast⟩ := h.step c hclock.1
      fun t ht => hnow t (by rw [List.flatMap_cons]; exact List.mem_append_left _ ht)
    have hidle := htouched.dropsIdle h.expiration hadd
    obtain ⟨⟨s'', hrun⟩, hiff, hdrops⟩ := ih htimed hclock.2.1 fun t ht id last huse =>
      (hlast id last huse).trans (hclock.2.2 c.now (by simp [Call.readings]) t ht)
    refine ⟨⟨s'', ?_⟩, ?_, ?_⟩
    · rw [List.foldlM_cons, hs', ok_bind]
      exact hrun
    · rw [along_cons_iff hs', along_cons_iff hs', hiff, htouched.keepsUsed_iff h.expiration,
        and_iff_left hidle]
    · exact (along_cons_iff hs').mpr ⟨hidle, hdrops⟩

/-- **Only idle contacts expire**, in a run with a clock that does not go back, exactly if every
contact that is in use at an expiry began no longer than the duration before. Contacts
that are idle do expire in every such run. -/
theorem only_idle_contacts_expire_iff
    (hadd : ∀ (t t' : Time) (d : Duration), t ≤ t' → t + d ≤ t' + d) (slotExpiration : Duration)
    (calls : List (Call Time)) (hclock : (calls.flatMap Call.readings).Pairwise (· ≤ ·)) :
    (∃ s, calls.foldlM Watch.step (Watch.init slotExpiration) = .ok s) ∧
    (Along Watch.step (fun s c => s.KeepsUsed c ∧ s.DropsIdle c) (Watch.init slotExpiration) calls ↔
      Along Watch.step Watch.Recent (Watch.init slotExpiration) calls) ∧
    Along Watch.step Watch.DropsIdle (Watch.init slotExpiration) calls :=
  (timed_init slotExpiration).runs hadd calls hclock fun t _ id last hlast => by cases hlast

end Calls

end Clock

/-- A finger goes down, moves, and moves again. -/
def longDrag : List (Call Int) :=
  [.touches 0 [.plain 1 5 10 10], .touches 100 [.plain 1 5 20 20], .touches 130 [.plain 1 5 30 30]]

theorem only_idle_contacts_expire_longDrag :
    Along Watch.step (fun s c => s.KeepsUsed c ∧ s.DropsIdle c) (Watch.init (150 : Int)) longDrag :=
  (only_idle_contacts_expire_iff (fun t t' d h => by omega) (150 : Int) longDrag
    (by decide +kernel)).2.1.mpr (by decide +kernel)

/-- With a duration of 120, the finger is removed in the call in which it moved. -/
theorem longDrag_expires :
    ∃ s : Watch Int Int, longDrag.foldlM Watch.step (Watch.init 120) = .ok s ∧
      s.times.began 1 = some 0 ∧ s.times.last 1 = some 130 ∧ s.registry.mIdMap.lookup 1 = none := by
  have hrun : (fun s : Watch Int Int => (s.times.began 1, s.times.last 1, s.registry.mIdMap.lookup 1)) <$>
      longDrag.foldlM Watch.step (Watch.init 120) = .ok (some 0, some 130, none) := by
    decide +kernel
  obtain ⟨s, hs, htimes⟩ := map_eq_ok.mp hrun
  simp only [Prod.mk.injEq] at htimes
  exact ⟨s, hs, htimes⟩

end Goldfish.Input
