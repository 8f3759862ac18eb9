import Goldfish.Lib.EvDev
import Goldfish.Lib.Trace
import Mathlib.Data.List.AList
import Mathlib.Data.List.Sort
import Mathlib.Data.Finset.Insert
import Mathlib.Data.Finset.Erase

/-!
# Goldfish.Input.SlotRegistry

The **`SlotRegistry`** (`SlotRegistry.h`, `SlotRegistry.cpp`): which touch identifier of a
client has which slot of the guest's touch screen, and until when.

Three containers describe the same contacts. `SlotRegistry.WF` says that they agree; every
operation keeps it, and with it the two assertions of the source hold. A failed assertion is a
`Fault` here.

Time is what `absl::Now` returns. Nothing is assumed about it, so the type of time and the
addition of a duration are parameters. The order in which a hash map is visited
is not specified: `expireOldSlots` takes the entries in the order of the visit.
-/

namespace Goldfish.Input

open Goldfish.Lib Goldfish.Lib.EvDev

/-- `MTS_POINTERS_NUM`. -/
def MTS_POINTERS_NUM : Nat := 10

/-- `MTS_POINTER_UP`, a `uint32_t`. -/
def MTS_POINTER_UP : UInt32 := 0xFFFFFFFF

/-- How a call can go wrong. -/
inductive Fault where
  | assertFailed
deriving DecidableEq, Repr

/-- `absl::flat_hash_map<int, V>`. The keys are identifiers, which are `uint32_t` elsewhere. -/
abbrev IdMap (V : Type) := AList (fun _ : UInt32 => V)

/-- A `SlotRegistry`. The bit set is the set of the positions that are set. -/
structure SlotRegistry (Time Duration : Type) where
  mUsedSlots : Finset Nat
  mIdMap : IdMap Nat
  mIdLastUsedEpoch : IdMap Time
  mSlotExpiration : Duration

namespace SlotRegistry

variable {Time Duration : Type}

/-- A new registry. -/
def init (slotExpiration : Duration) : SlotRegistry Time Duration where
  mUsedSlots := ∅
  mIdMap := ∅
  mIdLastUsedEpoch := ∅
  mSlotExpiration := slotExpiration

/-- The loop of `findNextFreeSlot`, with `left` slots to go. -/
def findFreeFrom (used : Finset Nat) (i : Nat) : (left : Nat) → Int
  | 0 => -1
  | left + 1 => if i ∉ used then i else findFreeFrom used (i + 1) left

/-- `findNextFreeSlot`. -/
def findNextFreeSlot (r : SlotRegistry Time Duration) : Int :=
  findFreeFrom r.mUsedSlots 0 MTS_POINTERS_NUM

/-- `isIdentifierRegistered`. -/
def isIdentifierRegistered (r : SlotRegistry Time Duration) (identifier : UInt32) : Bool :=
  (r.mIdMap.lookup identifier).isSome

section Time

variable [HAdd Time Duration Time]

/-- `acquireSlot`. The clock is read for a new identifier only. -/
def acquireSlot (r : SlotRegistry Time Duration) (identifier : UInt32) (now : Time) :
    Int × SlotRegistry Time Duration :=
  match r.mIdMap.lookup identifier with
  | none =>
      -- pick the next available slot
      let slot := r.findNextFreeSlot
      if slot < 0 then (slot, r)
      else
        (slot,
          { r with
            mIdMap := r.mIdMap.insert identifier slot.toNat
            mUsedSlots := insert slot.toNat r.mUsedSlots
            mIdLastUsedEpoch := r.mIdLastUsedEpoch.insert identifier (now + r.mSlotExpiration) })
  | some slot => (slot, r)

/-- `updateSlotExpiration`, with the assertion that the identifier is known. -/
def updateSlotExpiration (r : SlotRegistry Time Duration) (identifier : UInt32) (now : Time) :
    Except Fault (SlotRegistry Time Duration) :=
  if identifier ∈ r.mIdLastUsedEpoch then
    .ok { r with
      mIdLastUsedEpoch := r.mIdLastUsedEpoch.insert identifier (now + r.mSlotExpiration) }
  else .error .assertFailed

end Time

/-- `releaseSlot`. -/
def releaseSlot (r : SlotRegistry Time Duration) (identifier : UInt32) : SlotRegistry Time Duration :=
  match r.mIdMap.lookup identifier with
  | none => r
  | some slot =>
      { r with
        mIdMap := r.mIdMap.erase identifier
        mUsedSlots := r.mUsedSlots.erase slot
        mIdLastUsedEpoch := r.mIdLastUsedEpoch.erase identifier }

/-- The two events for a contact that is gone. -/
def upEvents (slot : UInt32) : List EvDevEvent :=
  [⟨.EV_ABS, .ABS_MT_SLOT, slot⟩, ⟨.EV_ABS, .ABS_MT_TRACKING_ID, MTS_POINTER_UP⟩]

section Order

variable [LT Time] [DecidableLT Time]

/-- The body of the loop of `expireOldSlots`, for the entry the iterator is at. -/
def expireOne (now : Time) (acc : List EvDevEvent × SlotRegistry Time Duration)
    (entry : Σ _ : UInt32, Time) : Except Fault (List EvDevEvent × SlotRegistry Time Duration) :=
  let (events, r) := acc
  if entry.2 < now then
    match r.mIdMap.lookup entry.1 with
    | none => .error .assertFailed
    | some removeSlot =>
        -- first the up event, then the mappings go
        .ok (events ++ upEvents (UInt32.ofNat removeSlot),
          { r with
            mIdMap := r.mIdMap.erase entry.1
            mIdLastUsedEpoch := r.mIdLastUsedEpoch.erase entry.1
            mUsedSlots := r.mUsedSlots.erase removeSlot })
  else .ok acc

/-- `expireOldSlots`, for the entries of `mIdLastUsedEpoch` in the order they are visited. -/
def expireOldSlots (r : SlotRegistry Time Duration) (now : Time) (visit : List (Σ _ : UInt32, Time)) :
    Except Fault (List EvDevEvent × SlotRegistry Time Duration) :=
  visit.foldlM (expireOne now) ([], r)

end Order

/-! ### The invariant -/

/-- The three containers agree. -/
structure WF (r : SlotRegistry Time Duration) : Prop where
  /-- Two identifiers do not share a slot. -/
  injective : ∀ {id id' : UInt32} {slot : Nat}, r.mIdMap.lookup id = some slot →
    r.mIdMap.lookup id' = some slot → id = id'
  bound : ∀ {id : UInt32} {slot : Nat}, r.mIdMap.lookup id = some slot → slot < MTS_POINTERS_NUM
  used : ∀ slot, slot ∈ r.mUsedSlots ↔ ∃ id, r.mIdMap.lookup id = some slot
  keys : ∀ id, id ∈ r.mIdMap ↔ id ∈ r.mIdLastUsedEpoch

theorem init_wf (slotExpiration : Duration) : (init slotExpiration : SlotRegistry Time Duration).WF where
  injective := by simp [init]
  bound := by simp [init]
  used := by simp [init]
  keys := by simp [init]

theorem ofNat_inj {m n : Nat} (hm : m < MTS_POINTERS_NUM) (hn : n < MTS_POINTERS_NUM)
    (h : UInt32.ofNat m = UInt32.ofNat n) : m = n := by
  unfold MTS_POINTERS_NUM at hm hn
  rw [← UInt32.toNat_inj, UInt32.toNat_ofNat', UInt32.toNat_ofNat'] at h
  omega

/-- Another identifier has another slot, also as it is sent. -/
theorem WF.slot_ne {r : SlotRegistry Time Duration} (hr : r.WF) {id id' : UInt32} {m n : Nat}
    (hid : r.mIdMap.lookup id = some n) (hid' : r.mIdMap.lookup id' = some m) (hne : id' ≠ id) :
    UInt32.ofNat m ≠ UInt32.ofNat n := by
  intro hsame
  have hmn := ofNat_inj (hr.bound hid') (hr.bound hid) hsame
  exact hne (hr.injective (hmn ▸ hid') hid)

/-- An identifier with a deadline has a slot. -/
theorem WF.exists_slot {r : SlotRegistry Time Duration} (hr : r.WF) {id : UInt32} {deadline : Time}
    (hid : r.mIdLastUsedEpoch.lookup id = some deadline) : ∃ slot, r.mIdMap.lookup id = some slot := by
  have hmem : id ∈ r.mIdMap := by
    rw [hr.keys, ← AList.lookup_isSome, hid]
    rfl
  exact Option.isSome_iff_exists.mp (AList.lookup_isSome.mpr hmem)

/-- And one without a slot has no deadline. -/
theorem WF.epoch_eq_none {r : SlotRegistry Time Duration} (hr : r.WF) {id : UInt32}
    (hid : r.mIdMap.lookup id = none) : r.mIdLastUsedEpoch.lookup id = none := by
  rw [AList.lookup_eq_none, ← hr.keys, ← AList.lookup_eq_none]
  exact hid

/-! ### Maps -/

theorem lookup_insert_eq {V : Type} (m : IdMap V) (id id' : UInt32) (v : V) :
    (m.insert id v).lookup id' = if id' = id then some v else m.lookup id' := by
  by_cases h : id' = id
  · subst h
    rw [AList.lookup_insert, if_pos rfl]
  · rw [AList.lookup_insert_ne h, if_neg h]

theorem lookup_erase_eq {V : Type} (m : IdMap V) (id id' : UInt32) :
    (m.erase id).lookup id' = if id' = id then none else m.lookup id' := by
  by_cases h : id' = id
  · subst h
    rw [AList.lookup_erase, if_pos rfl]
  · rw [AList.lookup_erase_ne h, if_neg h]

theorem isIdentifierRegistered_eq_true {r : SlotRegistry Time Duration} {id : UInt32} {slot : Nat}
    (hid : r.mIdMap.lookup id = some slot) : r.isIdentifierRegistered id = true := by
  rw [isIdentifierRegistered, hid]
  rfl

theorem isIdentifierRegistered_eq_false {r : SlotRegistry Time Duration} {id : UInt32}
    (hid : r.mIdMap.lookup id = none) : r.isIdentifierRegistered id = false := by
  rw [isIdentifierRegistered, hid]
  rfl

/-! ### The free slot -/

theorem findFreeFrom_spec (used : Finset Nat) (i left : Nat) :
    (findFreeFrom used i left = -1 ∧ ∀ j, i ≤ j → j < i + left → j ∈ used) ∨
    ∃ j : Nat, findFreeFrom used i left = j ∧ i ≤ j ∧ j < i + left ∧ j ∉ used ∧
      ∀ k, i ≤ k → k < j → k ∈ used := by
  induction left generalizing i with
  | zero => exact .inl ⟨rfl, fun j h1 h2 => absurd h2 (by omega)⟩
  | succ left ih =>
    rw [findFreeFrom]
    by_cases hi : i ∈ used
    · rw [if_neg (not_not.mpr hi)]
      rcases ih (i + 1) with ⟨hnone, hall⟩ | ⟨j, hj, h1, h2, h3, h4⟩
      · refine .inl ⟨hnone, fun j h1 h2 => ?_⟩
        rcases Nat.eq_or_lt_of_le h1 with rfl | hlt
        · exact hi
        · exact hall j hlt (by omega)
      · refine .inr ⟨j, hj, by omega, by omega, h3, fun k h1 h2 => ?_⟩
        rcases Nat.eq_or_lt_of_le h1 with rfl | hlt
        · exact hi
        · exact h4 k hlt h2
    · rw [if_pos hi]
      exact .inr ⟨i, rfl, Nat.le_refl i, by omega, hi, fun k h1 h2 => absurd h2 (by omega)⟩

/-- All slots are in use, or the first one that is not is found. -/
theorem findNextFreeSlot_spec (r : SlotRegistry Time Duration) :
    (r.findNextFreeSlot = -1 ∧ ∀ slot < MTS_POINTERS_NUM, slot ∈ r.mUsedSlots) ∨
    ∃ slot : Nat, r.findNextFreeSlot = slot ∧ slot < MTS_POINTERS_NUM ∧ slot ∉ r.mUsedSlots ∧
      ∀ k < slot, k ∈ r.mUsedSlots := by
  rcases findFreeFrom_spec r.mUsedSlots 0 MTS_POINTERS_NUM with ⟨hnone, hall⟩ | ⟨j, hj, -, h2, h3, h4⟩
  · exact .inl ⟨hnone, fun slot h => hall slot (Nat.zero_le _) (by omega)⟩
  · exact .inr ⟨j, hj, by omega, h3, fun k h => h4 k (Nat.zero_le _) h⟩

/-- There is one such slot only. -/
theorem findNextFreeSlot_eq {r : SlotRegistry Time Duration} {slot : Nat} (hbound : slot < MTS_POINTERS_NUM)
    (hslot : slot ∉ r.mUsedSlots) (hbelow : ∀ k < slot, k ∈ r.mUsedSlots) :
    r.findNextFreeSlot = slot := by
  rcases r.findNextFreeSlot_spec with ⟨-, hall⟩ | ⟨slot', hfree, -, hslot', hbelow'⟩
  · exact absurd (hall slot hbound) hslot
  · rcases Nat.lt_trichotomy slot slot' with hlt | heq | hgt
    · exact absurd (hbelow' slot hlt) hslot
    · rw [hfree, heq]
    · exact absurd (hbelow slot' hgt) hslot'

theorem findNextFreeSlot_eq_none {r : SlotRegistry Time Duration}
    (hall : ∀ slot < MTS_POINTERS_NUM, slot ∈ r.mUsedSlots) : r.findNextFreeSlot = -1 := by
  rcases r.findNextFreeSlot_spec with ⟨hfull, -⟩ | ⟨slot, -, hbound, hslot, -⟩
  · exact hfull
  · exact absurd (hall slot hbound) hslot

/-! ### One contact more, one contact less -/

/-- A contact is entered into the three containers. -/
theorem WF.insert {r : SlotRegistry Time Duration} (h : r.WF) {id : UInt32} {slot : Nat}
    (hslot : slot ∉ r.mUsedSlots) (hbound : slot < MTS_POINTERS_NUM) (deadline : Time)
    (hid : r.mIdMap.lookup id = none) :
    WF { r with
      mIdMap := r.mIdMap.insert id slot
      mUsedSlots := insert slot r.mUsedSlots
      mIdLastUsedEpoch := r.mIdLastUsedEpoch.insert id deadline } where
  injective := by
    intro id1 id2 slot' h1 h2
    rw [lookup_insert_eq] at h1 h2
    -- a slot that is not used belongs to nobody else
    have hfree (id' : UInt32) : r.mIdMap.lookup id' ≠ some slot :=
      fun hmem => hslot ((h.used slot).mpr ⟨id', hmem⟩)
    split_ifs at h1 h2 with e1 e2 e2
    · exact e1.trans e2.symm
    · exact absurd (Option.some.inj h1 ▸ h2) (hfree id2)
    · exact absurd (Option.some.inj h2 ▸ h1) (hfree id1)
    · exact h.injective h1 h2
  bound := by
    intro id' slot' h'
    rw [lookup_insert_eq] at h'
    split_ifs at h' with e
    · exact Option.some.inj h' ▸ hbound
    · exact h.bound h'
  used := by
    intro slot'
    simp only [Finset.mem_insert, lookup_insert_eq, h.used]
    constructor
    · rintro (rfl | ⟨id', hid'⟩)
      · exact ⟨id, if_pos rfl⟩
      · have hne : id' ≠ id := by
          rintro rfl
          rw [hid] at hid'
          cases hid'
        exact ⟨id', by rw [if_neg hne]; exact hid'⟩
    · intro hregistered
      obtain ⟨id', hid'⟩ := hregistered
      split_ifs at hid' with e
      · exact .inl (Option.some.inj hid').symm
      · exact .inr ⟨id', hid'⟩
  keys := by
    intro id'
    simp only [AList.mem_insert, h.keys]

/-- A contact is removed from them. -/
theorem WF.remove {r : SlotRegistry Time Duration} (h : r.WF) {id : UInt32} {slot : Nat}
    (hid : r.mIdMap.lookup id = some slot) :
    WF { r with
      mIdMap := r.mIdMap.erase id
      mIdLastUsedEpoch := r.mIdLastUsedEpoch.erase id
      mUsedSlots := r.mUsedSlots.erase slot } where
  injective := by
    intro id1 id2 slot' h1 h2
    rw [lookup_erase_eq] at h1 h2
    split_ifs at h1 h2
    exact h.injective h1 h2
  bound := by
    intro id' slot' h'
    rw [lookup_erase_eq] at h'
    split_ifs at h'
    exact h.bound h'
  used := by
    intro slot'
    simp only [Finset.mem_erase, lookup_erase_eq, h.used]
    constructor
    · intro hkept
      obtain ⟨hne, id', hid'⟩ := hkept
      refine ⟨id', ?_⟩
      rw [if_neg (fun e => ?_)]
      · exact hid'
      · rw [e, hid] at hid'
        exact hne (Option.some.inj hid').symm
    · intro hregistered
      obtain ⟨id', hid'⟩ := hregistered
      split_ifs at hid' with e
      refine ⟨fun heq => e ?_, id', hid'⟩
      rw [heq] at hid'
      exact h.injective hid' hid
  keys := by
    intro id'
    simp only [AList.mem_erase, h.keys]

/-! ### The operations -/

section Time

variable [HAdd Time Duration Time]

/-- The registry with a new contact. -/
def enter (r : SlotRegistry Time Duration) (id : UInt32) (slot : Nat) (now : Time) :
    SlotRegistry Time Duration :=
  { r with
    mIdMap := r.mIdMap.insert id slot
    mUsedSlots := insert slot r.mUsedSlots
    mIdLastUsedEpoch := r.mIdLastUsedEpoch.insert id (now + r.mSlotExpiration) }

/-- **What `acquireSlot` does**: nothing for a known identifier or without a free slot, and
otherwise it enters the identifier with the first free slot. -/
theorem acquireSlot_cases (r : SlotRegistry Time Duration) (id : UInt32) (now : Time) :
    (∃ slot, r.mIdMap.lookup id = some slot ∧ r.acquireSlot id now = ((slot : Int), r)) ∨
    (r.mIdMap.lookup id = none ∧ r.findNextFreeSlot = -1 ∧
      (∀ slot < MTS_POINTERS_NUM, slot ∈ r.mUsedSlots) ∧ r.acquireSlot id now = (-1, r)) ∨
    ∃ slot : Nat, r.mIdMap.lookup id = none ∧ r.findNextFreeSlot = slot ∧ slot < MTS_POINTERS_NUM ∧
      slot ∉ r.mUsedSlots ∧ r.acquireSlot id now = ((slot : Int), r.enter id slot now) := by
  unfold acquireSlot
  cases hid : r.mIdMap.lookup id with
  | some slot => exact .inl ⟨slot, rfl, rfl⟩
  | none =>
    rcases r.findNextFreeSlot_spec with ⟨hfull, hall⟩ | ⟨slot, hfree, hbound, hslot, -⟩
    · refine .inr (.inl ⟨rfl, hfull, hall, ?_⟩)
      rw [hfull]
      rfl
    · refine .inr (.inr ⟨slot, rfl, hfree, hbound, hslot, ?_⟩)
      simp only [hfree, Int.toNat_natCast]
      rw [if_neg (by omega)]
      rfl

theorem acquireSlot_wf {r : SlotRegistry Time Duration} (h : r.WF) (id : UInt32) (now : Time) :
    (r.acquireSlot id now).2.WF := by
  rcases r.acquireSlot_cases id now with ⟨_, -, heq⟩ | ⟨-, -, -, heq⟩ | ⟨slot, hid, -, hb, hs, heq⟩
  · rwa [heq]
  · rwa [heq]
  · rw [heq]
    exact h.insert hs hb _ hid

/-- A known identifier gets a new deadline. -/
theorem updateSlotExpiration_of_mem {r : SlotRegistry Time Duration} (h : r.WF) {id : UInt32}
    (hid : id ∈ r.mIdMap) (now : Time) :
    ∃ r', r.updateSlotExpiration id now = .ok r' ∧ r'.WF ∧ r'.mIdMap = r.mIdMap := by
  unfold updateSlotExpiration
  rw [if_pos ((h.keys id).mp hid)]
  refine ⟨_, rfl, ⟨h.injective, h.bound, h.used, fun id' => ?_⟩, rfl⟩
  rw [AList.mem_insert, h.keys id']
  constructor
  · exact .inr
  · rintro (rfl | hmem)
    · exact (h.keys id').mp hid
    · exact hmem

/-- `acquireSlot` refuses exactly a new identifier when all slots are in use, and then changes
nothing. -/
theorem acquireSlot_refuses (r : SlotRegistry Time Duration) (id : UInt32) (now : Time) :
    ((r.acquireSlot id now).1 = -1 ↔
      id ∉ r.mIdMap ∧ ∀ slot < MTS_POINTERS_NUM, slot ∈ r.mUsedSlots) ∧
    ((r.acquireSlot id now).1 = -1 → (r.acquireSlot id now).2 = r) := by
  rw [← AList.lookup_eq_none]
  rcases r.acquireSlot_cases id now with
    ⟨slot, hid, heq⟩ | ⟨hid, -, hall, heq⟩ | ⟨slot, hid, -, hbound, hslot, heq⟩
  · rw [heq, hid]
    refine ⟨⟨fun h => absurd h (by simp), fun h => absurd h.1 (by simp)⟩, fun _ => rfl⟩
  · rw [heq]
    exact ⟨⟨fun _ => ⟨hid, hall⟩, fun _ => rfl⟩, fun _ => rfl⟩
  · rw [heq]
    refine ⟨⟨fun h => absurd h (by simp), fun h => absurd (h.2 slot hbound) hslot⟩,
      fun h => absurd h (by simp)⟩

end Time

theorem releaseSlot_wf {r : SlotRegistry Time Duration} (h : r.WF) (id : UInt32) :
    (r.releaseSlot id).WF := by
  unfold releaseSlot
  cases hid : r.mIdMap.lookup id with
  | none => exact h
  | some slot => exact h.remove hid

theorem releaseSlot_lookup (r : SlotRegistry Time Duration) (id id' : UInt32) :
    (r.releaseSlot id).mIdMap.lookup id' = if id' = id then none else r.mIdMap.lookup id' := by
  unfold releaseSlot
  cases hid : r.mIdMap.lookup id with
  | none =>
    by_cases h : id' = id
    · rw [if_pos h, h]
      exact hid
    · rw [if_neg h]
  | some slot => exact lookup_erase_eq r.mIdMap id id'

/-- The deadline goes with the slot. -/
theorem releaseSlot_epoch {r : SlotRegistry Time Duration} {id : UInt32} {slot : Nat}
    (hid : r.mIdMap.lookup id = some slot) (id' : UInt32) :
    (r.releaseSlot id).mIdLastUsedEpoch.lookup id' =
      if id' = id then none else r.mIdLastUsedEpoch.lookup id' := by
  unfold releaseSlot
  rw [hid]
  exact lookup_erase_eq r.mIdLastUsedEpoch id id'

/-! ### Expiry -/

/-- The slot of an identifier, as it is sent. -/
def slotOf (r : SlotRegistry Time Duration) (id : UInt32) : UInt32 :=
  UInt32.ofNat ((r.mIdMap.lookup id).getD 0)

theorem slotOf_eq {r : SlotRegistry Time Duration} {id : UInt32} {slot : Nat}
    (hid : r.mIdMap.lookup id = some slot) : r.slotOf id = UInt32.ofNat slot := by
  rw [slotOf, hid]
  rfl

section Order

variable [LT Time] [DecidableLT Time]

/-- The deadline of the identifier has passed. -/
def expired (r : SlotRegistry Time Duration) (now : Time) (id : UInt32) : Bool :=
  match r.mIdLastUsedEpoch.lookup id with
  | none => false
  | some deadline => deadline < now

theorem expired_iff {r : SlotRegistry Time Duration} {now : Time} {id : UInt32} :
    r.expired now id = true ↔ ∃ deadline, r.mIdLastUsedEpoch.lookup id = some deadline ∧ deadline < now := by
  unfold expired
  cases r.mIdLastUsedEpoch.lookup id with
  | none => simp
  | some deadline => simp

/-- An entry for the identifier will be removed. -/
def due (now : Time) (visit : List (Σ _ : UInt32, Time)) (id : UInt32) : Bool :=
  visit.any fun e => e.1 == id && decide (e.2 < now)

theorem due_cons_of_not_lt {now : Time} {e : Σ _ : UInt32, Time} (h : ¬ e.2 < now)
    (visit : List (Σ _ : UInt32, Time)) (id : UInt32) : due now (e :: visit) id = due now visit id := by
  rw [due, List.any_cons, decide_eq_false h, Bool.and_false, Bool.false_or]
  rfl

/-- What is left in a map once the first entry and those behind it are gone. -/
theorem lookup_due_cons {V : Type} {now : Time} {e : Σ _ : UInt32, Time} (h : e.2 < now)
    (visit : List (Σ _ : UInt32, Time)) (m : IdMap V) (id : UInt32) :
    (if due now visit id then none else (m.erase e.1).lookup id) =
      if due now (e :: visit) id then none else m.lookup id := by
  have hdue : due now (e :: visit) id = (e.1 == id || due now visit id) := by
    rw [due, List.any_cons, decide_eq_true h, Bool.and_true]
    rfl
  rw [hdue, lookup_erase_eq]
  by_cases hid : id = e.1
  · simp [hid]
  · have hbeq : (e.1 == id) = false := beq_eq_false_iff_ne.mpr (Ne.symm hid)
    rw [if_neg hid, hbeq, Bool.false_or]

/-- The loop: `visit` are entries that were not visited yet. -/
theorem foldlM_expireOne (now : Time) (visit : List (Σ _ : UInt32, Time)) (events : List EvDevEvent)
    {r : SlotRegistry Time Duration} (h : r.WF) (hnodup : (visit.map (·.1)).Nodup)
    (hvisit : ∀ e ∈ visit, r.mIdLastUsedEpoch.lookup e.1 = some e.2) :
    ∃ r', visit.foldlM (expireOne now) (events, r) =
        .ok (events ++ (visit.filter fun e => decide (e.2 < now)).flatMap
          fun e => upEvents (r.slotOf e.1), r') ∧ r'.WF ∧
      r'.mSlotExpiration = r.mSlotExpiration ∧
      (∀ id, r'.mIdMap.lookup id = if due now visit id then none else r.mIdMap.lookup id) ∧
      ∀ id, r'.mIdLastUsedEpoch.lookup id =
        if due now visit id then none else r.mIdLastUsedEpoch.lookup id := by
  induction visit generalizing events r with
  | nil => exact ⟨r, by simp [pure, Except.pure], h, rfl, fun id => by simp [due], fun id => by simp [due]⟩
  | cons e visit ih =>
    rw [List.map_cons, List.nodup_cons] at hnodup
    obtain ⟨hfresh, hnodup⟩ := hnodup
    by_cases hlt : e.2 < now
    · -- the entry is removed; the assertion holds because the maps have the same keys
      obtain ⟨slot, hslot⟩ := h.exists_slot (hvisit e List.mem_cons_self)
      have hne : ∀ e' ∈ visit, e'.1 ≠ e.1 := fun e' he' heq =>
        hfresh (heq ▸ List.mem_map_of_mem he')
      obtain ⟨r', hrun, hwf, hexp, hmap, hepoch⟩ :=
        ih (events ++ upEvents (UInt32.ofNat slot)) (h.remove hslot) hnodup fun e' he' => by
          rw [lookup_erase_eq, if_neg (hne e' he')]
          exact hvisit e' (List.mem_cons_of_mem _ he')
      refine ⟨r', ?_, hwf, hexp, fun id => ?_, fun id => ?_⟩
      · have hfirst : expireOne now (events, r) e = .ok (events ++ upEvents (UInt32.ofNat slot),
            { r with
              mIdMap := r.mIdMap.erase e.1
              mIdLastUsedEpoch := r.mIdLastUsedEpoch.erase e.1
              mUsedSlots := r.mUsedSlots.erase slot }) := by
          simp only [expireOne, if_pos hlt, hslot]
        rw [List.foldlM_cons, hfirst]
        refine hrun.trans ?_
        rw [List.filter_cons_of_pos (by simpa using hlt), List.flatMap_cons, List.append_assoc]
        congr 4
        · rw [slotOf_eq hslot]
        · refine List.flatMap_congr fun e' he' => ?_
          rw [slotOf, slotOf, lookup_erase_eq, if_neg (hne e' (List.mem_filter.mp he').1)]
      · rw [hmap, lookup_due_cons hlt]
      · rw [hepoch, lookup_due_cons hlt]
    · obtain ⟨r', hrun, hwf, hexp, hmap, hepoch⟩ :=
        ih events h hnodup fun e' he' => hvisit e' (List.mem_cons_of_mem _ he')
      refine ⟨r', ?_, hwf, hexp, fun id => ?_, fun id => ?_⟩
      · have hfirst : expireOne now (events, r) e = .ok (events, r) := by
          simp only [expireOne, if_neg hlt]
        rw [List.foldlM_cons, hfirst, List.filter_cons_of_neg (by simpa using hlt)]
        exact hrun
      · rw [hmap, due_cons_of_not_lt hlt]
      · rw [hepoch, due_cons_of_not_lt hlt]

/-- **What `expireOldSlots` does**: it removes the identifiers whose deadline has passed, and
sends two events for each. -/
theorem expireOldSlots_spec {r : SlotRegistry Time Duration} (h : r.WF) (now : Time)
    {visit : List (Σ _ : UInt32, Time)} (hvisit : visit.Perm r.mIdLastUsedEpoch.entries) :
    ∃ r', r.expireOldSlots now visit =
        .ok ((visit.filter fun e => decide (e.2 < now)).flatMap fun e => upEvents (r.slotOf e.1), r') ∧
      r'.WF ∧ r'.mSlotExpiration = r.mSlotExpiration ∧
      (∀ id, r'.mIdMap.lookup id = if r.expired now id then none else r.mIdMap.lookup id) ∧
      ∀ id, r'.mIdLastUsedEpoch.lookup id =
        if r.expired now id then none else r.mIdLastUsedEpoch.lookup id := by
  have hmem : ∀ e : Σ _ : UInt32, Time, e ∈ visit ↔ r.mIdLastUsedEpoch.lookup e.1 = some e.2 := by
    intro e
    rw [hvisit.mem_iff, ← Option.mem_def, AList.mem_lookup_iff]
  have hnodup : (visit.map (·.1)).Nodup :=
    (hvisit.map _).nodup_iff.mpr r.mIdLastUsedEpoch.nodupKeys
  obtain ⟨r', hrun, hwf, hexp, hmap, hepoch⟩ :=
    foldlM_expireOne now visit [] h hnodup fun e he => (hmem e).mp he
  have hdue (id : UInt32) : due now visit id = r.expired now id := by
    rw [Bool.eq_iff_iff, due, List.any_eq_true]
    unfold expired
    constructor
    · intro hany
      obtain ⟨e, he, hcond⟩ := hany
      simp only [Bool.and_eq_true, beq_iff_eq, decide_eq_true_eq] at hcond
      obtain ⟨rfl, hlt⟩ := hcond
      rw [(hmem e).mp he]
      exact decide_eq_true hlt
    · intro hexpired
      cases hid : r.mIdLastUsedEpoch.lookup id with
      | none =>
        rw [hid] at hexpired
        cases hexpired
      | some deadline =>
        rw [hid] at hexpired
        exact ⟨⟨id, deadline⟩, (hmem _).mpr hid, by simpa using hexpired⟩
  refine ⟨r', hrun, hwf, hexp, fun id => ?_, fun id => ?_⟩
  · rw [hmap, hdue]
  · rw [hepoch, hdue]

/-- The entries of a visit that are gone in `r'`. -/
def removedOf (r' : SlotRegistry Time Duration) (visit : List (Σ _ : UInt32, Time)) :
    List (Σ _ : UInt32, Time) :=
  visit.filter fun e => !r'.isIdentifierRegistered e.1

/-- `expireOldSlots` sends the two events for every identifier it removes, and for no other. -/
theorem expireOldSlots_events {r : SlotRegistry Time Duration} (h : r.WF) (now : Time)
    {visit : List (Σ _ : UInt32, Time)} (hvisit : visit.Perm r.mIdLastUsedEpoch.entries) :
    ∃ events r', r.expireOldSlots now visit = .ok (events, r') ∧
      events = (r'.removedOf visit).flatMap fun e => upEvents (r.slotOf e.1) := by
  obtain ⟨r', hrun, -, -, hmap, -⟩ := expireOldSlots_spec h now hvisit
  refine ⟨_, r', hrun, ?_⟩
  rw [removedOf]
  congr 1
  refine List.filter_congr fun e he => ?_
  have hentry : r.mIdLastUsedEpoch.lookup e.1 = some e.2 := by
    rw [← Option.mem_def, AList.mem_lookup_iff]
    exact hvisit.mem_iff.mp he
  have hmem : (r.mIdMap.lookup e.1).isSome = true := by
    rw [AList.lookup_isSome, h.keys, ← AList.lookup_isSome, hentry]
    rfl
  rw [isIdentifierRegistered, hmap, expired, hentry]
  by_cases hlt : e.2 < now
  · simp only [decide_eq_true hlt, if_true, Option.isSome_none, Bool.not_false]
  · simp only [decide_eq_false hlt, Bool.false_eq_true, if_false, hmem, Bool.not_true]

end Order

/-! ### Runs -/

/-- The operations, with the readings of the clock and the order of the visit. -/
inductive Op (Time Duration : Type) where
  | acquireSlot (identifier : UInt32) (now : Time)
  | updateSlotExpiration (identifier : UInt32) (now : Time)
  | releaseSlot (identifier : UInt32)
  | expireOldSlots (now : Time) (visit : List (Σ _ : UInt32, Time))
  | setSlotExpiration (slotExpiration : Duration)

section Runs

variable [HAdd Time Duration Time] [LT Time] [DecidableLT Time]

/-- One operation. -/
def Op.step (r : SlotRegistry Time Duration) : Op Time Duration → Except Fault (SlotRegistry Time Duration)
  | .acquireSlot id now => .ok (r.acquireSlot id now).2
  | .updateSlotExpiration id now => r.updateSlotExpiration id now
  | .releaseSlot id => .ok (r.releaseSlot id)
  | .expireOldSlots now visit => (r.expireOldSlots now visit).map Prod.snd
  | .setSlotExpiration d => .ok { r with mSlotExpiration := d }

/-- `updateSlotExpiration` is for registered identifiers, and a visit sees every entry once. -/
def Op.Allowed (r : SlotRegistry Time Duration) : Op Time Duration → Prop
  | .updateSlotExpiration id _ => id ∈ r.mIdMap
  | .expireOldSlots _ visit => visit.Perm r.mIdLastUsedEpoch.entries
  | _ => True

instance [DecidableEq Time] (r : SlotRegistry Time Duration) (op : Op Time Duration) : Decidable (op.Allowed r) :=
  match op with
  | .updateSlotExpiration id _ => inferInstanceAs (Decidable (id ∈ r.mIdMap))
  | .expireOldSlots _ visit => inferInstanceAs (Decidable (visit.Perm r.mIdLastUsedEpoch.entries))
  | .acquireSlot _ _ | .releaseSlot _ | .setSlotExpiration _ => isTrue trivial

/-- No operation fails, and each keeps the containers in step. -/
theorem Op.step_wf (r : SlotRegistry Time Duration) (op : Op Time Duration) (h : r.WF)
    (hop : op.Allowed r) : ∃ r', op.step r = .ok r' ∧ r'.WF := by
  cases op with
  | acquireSlot id now => exact ⟨_, rfl, acquireSlot_wf h id now⟩
  | updateSlotExpiration id now =>
    obtain ⟨r', hrun, hwf, -⟩ := updateSlotExpiration_of_mem h hop now
    exact ⟨r', hrun, hwf⟩
  | releaseSlot id => exact ⟨_, rfl, releaseSlot_wf h id⟩
  | expireOldSlots now visit =>
    obtain ⟨r', hrun, hwf, -⟩ := expireOldSlots_spec h now hop
    exact ⟨r', by simp only [Op.step, hrun, Except.map], hwf⟩
  | setSlotExpiration d => exact ⟨_, rfl, h.injective, h.bound, h.used, h.keys⟩

/-- A contact keeps its slot until it is released or expires. -/
theorem Op.step_keeps {r r' : SlotRegistry Time Duration} {op : Op Time Duration} (h : r.WF)
    (hop : op.Allowed r) (hrun : op.step r = .ok r') {id : UInt32} {slot : Nat}
    (hid : r.mIdMap.lookup id = some slot) :
    r'.mIdMap.lookup id = some slot ∨ op = .releaseSlot id ∨
      ∃ now visit, op = .expireOldSlots now visit ∧ r.expired now id = true := by
  cases op with
  | acquireSlot id' now =>
    cases hrun
    refine .inl ?_
    rcases r.acquireSlot_cases id' now with ⟨_, -, heq⟩ | ⟨-, -, -, heq⟩ | ⟨slot', hnone, -, -, -, heq⟩
    · rwa [heq]
    · rwa [heq]
    · have hne : id ≠ id' := by
        rintro rfl
        rw [hid] at hnone
        cases hnone
      rw [heq, enter, lookup_insert_eq, if_neg hne]
      exact hid
  | updateSlotExpiration id' now =>
    obtain ⟨r'', hrun', -, hmap⟩ := updateSlotExpiration_of_mem h hop now
    rw [Op.step, hrun'] at hrun
    cases hrun
    exact .inl (hmap ▸ hid)
  | releaseSlot id' =>
    cases hrun
    by_cases heq : id = id'
    · exact .inr (.inl (by rw [heq]))
    · exact .inl (by rw [releaseSlot_lookup, if_neg heq]; exact hid)
  | expireOldSlots now visit =>
    obtain ⟨r'', hrun', -, -, hmap, -⟩ := expireOldSlots_spec h now hop
    simp only [Op.step, hrun', Except.map] at hrun
    cases hrun
    cases hexpired : r.expired now id with
    | true => exact .inr (.inr ⟨now, visit, rfl, hexpired⟩)
    | false => exact .inl (by rw [hmap, hexpired]; exact hid)
  | setSlotExpiration d =>
    cases hrun
    exact .inl hid

/-- **The registry in every run**, with any identifiers and any readings of the clock: no assertion
fails, the three containers agree, a contact keeps its slot until it is released or
expires, a refused identifier changes nothing, and an expiry sends the two events of each
contact it removes. -/
theorem slotRegistry_runs (slotExpiration : Duration) (ops : List (Op Time Duration))
    (hops : Along Op.step (fun r op => op.Allowed r) (init slotExpiration) ops) :
    ∃ r, ops.foldlM Op.step (init slotExpiration) = .ok r ∧
      (∀ id slot, r.mIdMap.lookup id = some slot → slot < MTS_POINTERS_NUM) ∧
      (∀ id id' slot, r.mIdMap.lookup id = some slot → r.mIdMap.lookup id' = some slot → id = id') ∧
      (∀ slot, slot ∈ r.mUsedSlots ↔ ∃ id, r.mIdMap.lookup id = some slot) ∧
      (∀ id, id ∈ r.mIdMap ↔ id ∈ r.mIdLastUsedEpoch) ∧
      (∀ (op : Op Time Duration) r', op.Allowed r → op.step r = .ok r' → ∀ id slot, r.mIdMap.lookup id = some slot →
        r'.mIdMap.lookup id = some slot ∨ op = .releaseSlot id ∨
          ∃ now visit, op = .expireOldSlots now visit ∧ r.expired now id = true) ∧
      (∀ id now, ((r.acquireSlot id now).1 = -1 ↔
          id ∉ r.mIdMap ∧ ∀ slot < MTS_POINTERS_NUM, slot ∈ r.mUsedSlots) ∧
        ((r.acquireSlot id now).1 = -1 → (r.acquireSlot id now).2 = r)) ∧
      ∀ now visit, visit.Perm r.mIdLastUsedEpoch.entries →
        ∃ events r', r.expireOldSlots now visit = .ok (events, r') ∧
          events = (r'.removedOf visit).flatMap fun e => upEvents (r.slotOf e.1) := by
  obtain ⟨r, hrun, h⟩ := hops.progress Op.step_wf (init_wf slotExpiration)
  refine ⟨r, hrun, fun id slot hid => h.bound hid, fun id id' slot h1 h2 => h.injective h1 h2, h.used,
    h.keys, ?_, fun id now => r.acquireSlot_refuses id now, ?_⟩
  · intro op r' hop hstep id slot hid
    exact Op.step_keeps h hop hstep hid
  · intro now visit hvisit
    exact expireOldSlots_events h now hvisit

end Runs

/-- Two presses, of which the first is held longer; the other one expires, and a third press follows a release. -/
theorem slotRegistry_runs_press :
    ∃ r : SlotRegistry Int Int, [Op.acquireSlot 7 0, .acquireSlot 8 5, .updateSlotExpiration 7 100,
        .expireOldSlots 130 [⟨7, 220⟩, ⟨8, 125⟩], .releaseSlot 7, .acquireSlot 9 140].foldlM Op.step (init 120) =
          .ok r ∧
      ∀ slot, slot ∈ r.mUsedSlots ↔ ∃ id, r.mIdMap.lookup id = some slot := by
  obtain ⟨r, hrun, -, -, hused, -⟩ := slotRegistry_runs (120 : Int)
    [Op.acquireSlot 7 (0 : Int), .acquireSlot 8 5, .updateSlotExpiration 7 100,
      .expireOldSlots 130 [⟨7, 220⟩, ⟨8, 125⟩], .releaseSlot 7, .acquireSlot 9 140]
    ⟨trivial, fun _ h1 => ⟨trivial, fun _ h2 => ⟨by cases h1; cases h2; decide, fun _ h3 =>
      ⟨by cases h1; cases h2; cases h3; decide, fun _ _ => ⟨trivial, fun _ _ => ⟨trivial, fun _ _ => trivial⟩⟩⟩⟩⟩⟩
  exact ⟨r, hrun, hused⟩

end SlotRegistry

end Goldfish.Input
