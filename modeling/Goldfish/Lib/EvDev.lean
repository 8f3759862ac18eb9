import Mathlib.Logic.Function.Basic

/-!
# Goldfish.Lib.EvDev

**Input events** and what a Linux kernel makes of the multi-touch ones (protocol type B).

The kernel keeps a state for each slot. `ABS_MT_SLOT` selects a slot, every other
`ABS_MT_*` event writes one value of the slot that is selected, and a slot holds a contact
as long as its tracking id is not negative. `Guest` is that state; the rules for the events that
matter here are `receive_select` and `receive_write`.
-/

namespace Goldfish.Lib.EvDev

/-- The types of events. -/
inductive EvType where
  | EV_SYN | EV_KEY | EV_ABS
deriving DecidableEq, Repr

/-- The codes of events: `SYN_*`, `BTN_*` and `ABS_MT_*`. -/
inductive EvCode where
  | SYN_REPORT
  | BTN_TOOL_RUBBER | BTN_STYLUS
  | ABS_MT_SLOT | ABS_MT_TOUCH_MAJOR | ABS_MT_TOUCH_MINOR | ABS_MT_ORIENTATION
  | ABS_MT_POSITION_X | ABS_MT_POSITION_Y | ABS_MT_TOOL_TYPE | ABS_MT_TRACKING_ID | ABS_MT_PRESSURE
deriving DecidableEq, Repr

/-- One event. -/
structure EvDevEvent where
  type : EvType
  code : EvCode
  value : UInt32
deriving DecidableEq, Repr

/-- The multi-touch state of a guest. -/
structure Guest where
  /-- The slot that is selected. -/
  current : UInt32
  /-- The values of each slot. -/
  axes : UInt32 → EvCode → UInt32

/-- Slot 0 is selected and no slot holds a contact. -/
def Guest.init : Guest where
  current := 0
  axes := fun _ code => if code = .ABS_MT_TRACKING_ID then 0xFFFFFFFF else 0

/-- An event of type B. -/
def Guest.receive (g : Guest) (e : EvDevEvent) : Guest :=
  match e.type, e.code with
  | .EV_ABS, .ABS_MT_SLOT => { g with current := e.value }
  | .EV_ABS, code =>
      { g with
        axes := Function.update g.axes g.current (Function.update (g.axes g.current) code e.value) }
  | _, _ => g

/-- The events of a device, one after the other. -/
def Guest.receiveAll (g : Guest) (es : List EvDevEvent) : Guest := es.foldl Guest.receive g

/-- The slot holds a contact: its tracking id is not negative, as a signed number. -/
def Guest.Active (g : Guest) (slot : UInt32) : Prop :=
  0 ≤ (g.axes slot .ABS_MT_TRACKING_ID).toInt32

instance Guest.decidableActive (g : Guest) (slot : UInt32) : Decidable (g.Active slot) :=
  inferInstanceAs (Decidable (_ ≤ _))

@[simp] theorem Guest.receiveAll_nil (g : Guest) : g.receiveAll [] = g := rfl

@[simp] theorem Guest.receiveAll_cons (g : Guest) (e : EvDevEvent) (es : List EvDevEvent) :
    g.receiveAll (e :: es) = (g.receive e).receiveAll es := rfl

theorem Guest.receiveAll_append (g : Guest) (es es' : List EvDevEvent) :
    g.receiveAll (es ++ es') = (g.receiveAll es).receiveAll es' := List.foldl_append

/-- The selection changes the selection. -/
@[simp] theorem Guest.receive_select (g : Guest) (slot : UInt32) :
    g.receive ⟨.EV_ABS, .ABS_MT_SLOT, slot⟩ = { g with current := slot } := rfl

/-- Every other event keeps the selection. -/
theorem Guest.current_receive (g : Guest) {e : EvDevEvent} (h : e.code ≠ .ABS_MT_SLOT) :
    (g.receive e).current = g.current := by
  obtain ⟨type, code, value⟩ := e
  cases type <;> cases code <;> first | rfl | exact absurd rfl h

/-- And writes one value of the selected slot. -/
theorem Guest.axes_receive (g : Guest) {code : EvCode} (h : code ≠ .ABS_MT_SLOT) (value slot : UInt32)
    (code' : EvCode) :
    (g.receive ⟨.EV_ABS, code, value⟩).axes slot code' =
      if slot = g.current ∧ code' = code then value else g.axes slot code' := by
  have hwrite : (g.receive ⟨.EV_ABS, code, value⟩).axes =
      Function.update g.axes g.current (Function.update (g.axes g.current) code value) := by
    cases code <;> first | rfl | exact absurd rfl h
  rw [hwrite]
  by_cases hslot : slot = g.current
  · subst hslot
    rw [Function.update_self, Function.update_apply]
    simp
  · rw [Function.update_of_ne hslot, if_neg (fun hboth => hslot hboth.1)]

/-! ### Runs of writes -/

/-- No event of the list selects a slot. -/
def NoSelect (es : List EvDevEvent) : Prop := ∀ e ∈ es, e.code ≠ .ABS_MT_SLOT

/-- The value the events of a list leave in a slot, if they write it at all. -/
def written (code : EvCode) : List EvDevEvent → Option UInt32
  | [] => none
  | e :: es => (written code es).or (if e.type = .EV_ABS ∧ e.code = code then some e.value else none)

@[simp] theorem written_append (code : EvCode) (es es' : List EvDevEvent) :
    written code (es ++ es') = (written code es').or (written code es) := by
  induction es with
  | nil => simp [written]
  | cons e es ih => rw [List.cons_append, written, ih, written, Option.or_assoc]

@[simp] theorem noSelect_nil : NoSelect [] := fun _ h => absurd h List.not_mem_nil

@[simp] theorem noSelect_cons {e : EvDevEvent} {es : List EvDevEvent} :
    NoSelect (e :: es) ↔ e.code ≠ .ABS_MT_SLOT ∧ NoSelect es := List.forall_mem_cons

@[simp] theorem noSelect_append {es es' : List EvDevEvent} :
    NoSelect (es ++ es') ↔ NoSelect es ∧ NoSelect es' := List.forall_mem_append

theorem Guest.current_receiveAll {es : List EvDevEvent} (h : NoSelect es) (g : Guest) :
    (g.receiveAll es).current = g.current := by
  induction es generalizing g with
  | nil => rfl
  | cons e es ih =>
    rw [noSelect_cons] at h
    rw [Guest.receiveAll_cons, ih h.2, g.current_receive h.1]

/-- **What a run of writes does**: the selected slot has what was written last, every other slot
is as it was. -/
theorem Guest.axes_receiveAll {es : List EvDevEvent} (h : NoSelect es) (g : Guest) (slot : UInt32)
    (code : EvCode) :
    (g.receiveAll es).axes slot code =
      if slot = g.current then (written code es).getD (g.axes slot code) else g.axes slot code := by
  induction es generalizing g with
  | nil => simp [written]
  | cons e es ih =>
    rw [noSelect_cons] at h
    rw [Guest.receiveAll_cons, ih h.2, g.current_receive h.1, written]
    have hfirst : (g.receive e).axes slot code =
        if slot = g.current ∧ e.type = .EV_ABS ∧ e.code = code then e.value
        else g.axes slot code := by
      obtain ⟨type, code', value⟩ := e
      cases type with
      | EV_ABS =>
        rw [g.axes_receive h.1]
        simp [eq_comm]
      | EV_SYN => simp [Guest.receive]
      | EV_KEY => simp [Guest.receive]
    rw [hfirst]
    by_cases hslot : slot = g.current
    · cases written code es with
      | some v => simp [hslot]
      | none => by_cases hcode : e.type = .EV_ABS ∧ e.code = code <;> simp [hslot, hcode]
    · simp [hslot]

/-! ### Where a code is written -/

/-- The slots that receive a value for a code, in order. -/
def Guest.targets (code : EvCode) : Guest → List EvDevEvent → List UInt32
  | _, [] => []
  | g, e :: es =>
      (if e.type = .EV_ABS ∧ e.code = code then [g.current] else []) ++ (g.receive e).targets code es

theorem Guest.targets_append (code : EvCode) (g : Guest) (es es' : List EvDevEvent) :
    g.targets code (es ++ es') = g.targets code es ++ (g.receiveAll es).targets code es' := by
  induction es generalizing g with
  | nil => rfl
  | cons e es ih =>
    rw [List.cons_append, Guest.targets, Guest.targets, ih, Guest.receiveAll_cons, List.append_assoc]

/-- A run of writes goes to the selected slot. -/
theorem Guest.mem_targets_of_noSelect {code : EvCode} {es : List EvDevEvent} (h : NoSelect es) {g : Guest}
    {slot : UInt32} :
    slot ∈ g.targets code es ↔ slot = g.current ∧ (written code es).isSome = true := by
  induction es generalizing g with
  | nil => simp [Guest.targets, written]
  | cons e es ih =>
    rw [noSelect_cons] at h
    rw [Guest.targets, List.mem_append, ih h.2, g.current_receive h.1, written, Option.isSome_or]
    by_cases hcode : e.type = .EV_ABS ∧ e.code = code
    · simp +contextual [hcode]
    · simp [hcode]

end Goldfish.Lib.EvDev
