import Goldfish.VirtioInput.Device
import Mathlib.Data.List.Induction

/-!
# Goldfish.VirtioInput.Buttons

**The guest's view of the device.** Two results, both about whole runs:

* the emulation of mouse buttons is right as long as no multi-touch event is passed on
  (`buttons_are_shown`): a slot is active exactly if its button is down, and then it holds the
  position of the pointer;
* the cache of the selected slot is right (`Link.CacheTrue`) exactly as long as every multi-touch
  event that is passed on and selects a slot meets a cache that is empty or has this slot
  (`cache_is_true_iff`), since such an event changes the selection and not the cache.

`receiveAll_selectEvents` is the one place where the cache matters: with a true cache, the
selection that a handler sends or leaves out has the slot selected.
-/

namespace Goldfish.VirtioInput

open Goldfish.Lib.EvDev

/-! ### Runs -/

/-- The device and the guest it sends its events to. -/
structure Link where
  dev : VirtIOInputAndroidHID
  guest : Guest

/-- A device that was just added. -/
def Link.init (wheel_axis : Bool) : Link where
  dev := VirtIOInputAndroidHID.init wheel_axis
  guest := Guest.init

/-- One call of the handler. -/
def Link.step (s : Link) (a : Act) : Link where
  dev := (s.dev.handle a).2
  guest := s.guest.receiveAll (s.dev.handle a).1

/-- A run from the start. -/
def Link.run (wheel_axis : Bool) (acts : List Act) : Link := acts.foldl Link.step (Link.init wheel_axis)

theorem Link.run_concat (wheel_axis : Bool) (acts : List Act) (a : Act) :
    Link.run wheel_axis (acts ++ [a]) = (Link.run wheel_axis acts).step a := by
  rw [Link.run, List.foldl_append]
  rfl

/-- The cache is empty, or it has the slot that is selected in the guest. -/
def CacheTrue (vahid : VirtIOInputAndroidHID) (g : Guest) : Prop :=
  vahid.current_slot = -1 ∨ g.current = vahid.current_slot.toUInt32

/-- The slot of a button, as it is sent. -/
def InputButton.slot (b : InputButton) : UInt32 := b.toInt.toUInt32

theorem InputButton.toInt_ne (b : InputButton) : b.toInt ≠ -1 := by
  cases b <;> decide

theorem InputButton.slot_injective {b b' : InputButton} (h : b.slot = b'.slot) : b = b' := by
  cases b <;> cases b' <;> first | rfl | exact absurd h (by decide)

theorem InputButton.slot_active (b : InputButton) : 0 ≤ b.slot.toInt32 := by
  cases b <;> decide

/-- The device with the record of a button changed. -/
def VirtIOInputAndroidHID.setDown (vahid : VirtIOInputAndroidHID) (b : InputButton) (down : Bool) :
    VirtIOInputAndroidHID :=
  { vahid with keymap_button_down := Function.update vahid.keymap_button_down b down }

/-! ### Selections -/

/-- **The cache at work**: sent or left out, the selection takes place. -/
theorem receiveAll_selectEvents {vahid : VirtIOInputAndroidHID} {g : Guest} (h : CacheTrue vahid g)
    (b : InputButton) :
    g.receiveAll (vahid.selectEvents b.toInt) = { g with current := b.slot } := by
  unfold VirtIOInputAndroidHID.selectEvents
  split
  · rfl
  · rename_i hsame
    have hcurrent : b.toInt = vahid.current_slot := not_not.mp hsame
    rcases h with hempty | hcache
    · exact absurd (hcurrent.trans hempty) b.toInt_ne
    · rw [← hcurrent] at hcache
      rw [Guest.receiveAll_nil, InputButton.slot, ← hcache]

/-- A selection and then writes: the writes go to the slot of the button. -/
theorem receiveAll_select_writes {vahid : VirtIOInputAndroidHID} {g : Guest} (h : CacheTrue vahid g)
    (b : InputButton) {writes : List EvDevEvent} (hwrites : NoSelect writes) :
    (g.receiveAll (vahid.selectEvents b.toInt ++ writes)).current = b.slot ∧
    ∀ slot code, (g.receiveAll (vahid.selectEvents b.toInt ++ writes)).axes slot code =
      if slot = b.slot then (written code writes).getD (g.axes slot code) else g.axes slot code := by
  rw [Guest.receiveAll_append, receiveAll_selectEvents h b]
  exact ⟨Guest.current_receiveAll hwrites _, Guest.axes_receiveAll hwrites _⟩

/-- The writes of a move. -/
def moveWrites (ptr_state : MTSPointerState) (x y pressure : Int32) : List EvDevEvent :=
  (if ptr_state.x ≠ x then [⟨.EV_ABS, .ABS_MT_POSITION_X, x.toUInt32⟩] else [])
    ++ ((if ptr_state.y ≠ y then [⟨.EV_ABS, .ABS_MT_POSITION_Y, y.toUInt32⟩] else [])
    ++ (if ptr_state.pressure ≠ pressure then [⟨.EV_ABS, .ABS_MT_PRESSURE, pressure.toUInt32⟩] else []))

theorem moveWrites_noSelect (ptr_state : MTSPointerState) (x y pressure : Int32) :
    NoSelect (moveWrites ptr_state x y pressure) := by
  unfold moveWrites
  rw [noSelect_append, noSelect_append]
  refine ⟨?_, ?_, ?_⟩
  all_goals
    split
    · simp
    · simp

/-- What a move writes is what has changed. -/
theorem written_moveWrites (ptr_state : MTSPointerState) (x y pressure : Int32) :
    written .ABS_MT_TRACKING_ID (moveWrites ptr_state x y pressure) = none ∧
    written .ABS_MT_POSITION_X (moveWrites ptr_state x y pressure) =
      (if ptr_state.x ≠ x then some x.toUInt32 else none) ∧
    written .ABS_MT_POSITION_Y (moveWrites ptr_state x y pressure) =
      (if ptr_state.y ≠ y then some y.toUInt32 else none) := by
  simp only [moveWrites, written_append]
  split <;> split <;> split <;> simp [written]

/-- **What a move does**: nothing if the position is the same, else a selection and these writes. -/
theorem mts_pointer_move_cases (vahid : VirtIOInputAndroidHID) (b : InputButton) (x y pressure : Int32) :
    ((vahid.tracked_pointers b).x = x ∧ (vahid.tracked_pointers b).y = y ∧
      vahid.mts_pointer_move b x y pressure = ([], vahid)) ∨
    vahid.mts_pointer_move b x y pressure =
      (vahid.selectEvents b.toInt ++ moveWrites (vahid.tracked_pointers b) x y pressure,
        { vahid with
          current_slot := b.toInt
          tracked_pointers := Function.update vahid.tracked_pointers b
            { vahid.tracked_pointers b with x := x, y := y, pressure := pressure } }) := by
  unfold VirtIOInputAndroidHID.mts_pointer_move
  by_cases hsame : (vahid.tracked_pointers b).x = x ∧ (vahid.tracked_pointers b).y = y
  · exact .inl ⟨hsame.1, hsame.2, if_pos hsame⟩
  · refine .inr ?_
    dsimp only
    rw [if_neg hsame, moveWrites, List.append_assoc, List.append_assoc]

/-- The loop over the buttons: what the move of one button keeps, the loop keeps. -/
theorem moveButtons_invariant {I : VirtIOInputAndroidHID → Guest → Prop} (axis : InputAxis) (value : Int64)
    (hstep : ∀ i vahid g, I vahid g →
      I (vahid.moveButton axis value i).2 (g.receiveAll (vahid.moveButton axis value i).1))
    (buttons : List InputButton) {vahid : VirtIOInputAndroidHID} {g : Guest} (h : I vahid g) :
    I (VirtIOInputAndroidHID.moveButtons axis value buttons vahid).2
      (g.receiveAll (VirtIOInputAndroidHID.moveButtons axis value buttons vahid).1) := by
  induction buttons generalizing vahid g with
  | nil => exact h
  | cons i buttons ih =>
    have hrest := ih (hstep i vahid g h)
    rw [← Guest.receiveAll_append] at hrest
    exact hrest

/-! ### The cache -/

section Cache

variable {vahid vahid' : VirtIOInputAndroidHID} {g : Guest}

theorem CacheTrue.congr (h : CacheTrue vahid g) (hslot : vahid'.current_slot = vahid.current_slot) :
    CacheTrue vahid' g := by
  unfold CacheTrue
  rw [hslot]
  exact h

/-- A handler that addresses a slot leaves a true cache, also if it empties it. -/
theorem CacheTrue.writes (h : CacheTrue vahid g) (b : InputButton) {writes : List EvDevEvent}
    (hwrites : NoSelect writes)
    (hslot : vahid'.current_slot = -1 ∨ vahid'.current_slot = b.toInt) :
    CacheTrue vahid' (g.receiveAll (vahid.selectEvents b.toInt ++ writes)) := by
  rcases hslot with hempty | hslot
  · exact .inl hempty
  · refine .inr ?_
    rw [(receiveAll_select_writes h b hwrites).1, hslot, InputButton.slot]

theorem CacheTrue.moveButton (h : CacheTrue vahid g) (axis : InputAxis) (value : Int64) (i : InputButton) :
    CacheTrue (vahid.moveButton axis value i).2 (g.receiveAll (vahid.moveButton axis value i).1) := by
  unfold VirtIOInputAndroidHID.moveButton
  dsimp only
  split
  · rcases mts_pointer_move_cases vahid i _ _ MTS_PRESSURE_RANGE_MAX with ⟨-, -, heq⟩ | heq
    · rw [heq]
      exact h.congr rfl
    · rw [heq]
      exact h.writes i (moveWrites_noSelect _ _ _ _) (.inr rfl)
  · exact h.congr rfl

theorem CacheTrue.moveButtons (h : CacheTrue vahid g) (axis : InputAxis) (value : Int64)
    (buttons : List InputButton) :
    CacheTrue (VirtIOInputAndroidHID.moveButtons axis value buttons vahid).2
      (g.receiveAll (VirtIOInputAndroidHID.moveButtons axis value buttons vahid).1) := by
  exact moveButtons_invariant axis value (fun i _ _ h => h.moveButton axis value i) buttons h

end Cache

/-- The condition on a call: a multi-touch event that selects a slot meets an empty cache, or one that has
this slot. -/
def Link.SelectsCached (s : Link) : Act → Prop
  | .event (.MTT type slot _ _ _) =>
      type ≠ .DATA → s.dev.current_slot = -1 ∨ s.dev.current_slot.toUInt32 = slot.toInt32.toUInt32
  | _ => True

/-- **One call** keeps the cache true exactly if it meets the condition. -/
theorem Link.step_cacheTrue_iff (s : Link) (a : Act) (h : CacheTrue s.dev s.guest) :
    CacheTrue (s.step a).dev (s.step a).guest ↔ s.SelectsCached a := by
  cases a with
  | sync => exact iff_of_true (h.congr rfl) trivial
  | event evt =>
    cases evt with
    | KEY => exact iff_of_true h trivial
    | REL => exact iff_of_true h trivial
    | ABS axis value => exact iff_of_true (h.moveButtons axis value InputButton.all) trivial
    | BTN b down =>
      refine iff_of_true ?_ trivial
      show CacheTrue (s.dev.handle_event (.BTN b down)).2
        (s.guest.receiveAll (s.dev.handle_event (.BTN b down)).1)
      unfold VirtIOInputAndroidHID.handle_event
      dsimp only
      split
      · exact h
      · split
        · have hdown : CacheTrue (s.dev.setDown b down) s.guest := h
          split
          · exact hdown.writes b (by simp) (.inr rfl)
          · exact hdown.writes b (by simp) (.inl rfl)
        · exact h
    | MTT type slot tracking_id axis value =>
      by_cases hdata : type = .DATA
      · refine iff_of_true ?_ (fun hne => absurd hdata hne)
        have hcode : axismap_tch axis ≠ .ABS_MT_SLOT := by cases axis <;> decide
        have hcurrent : (s.guest.receive ⟨.EV_ABS, axismap_tch axis, value.toInt32.toUInt32⟩).current =
            s.guest.current := s.guest.current_receive hcode
        show CacheTrue (s.dev.handle_event (.MTT type slot tracking_id axis value)).2
          (s.guest.receiveAll (s.dev.handle_event (.MTT type slot tracking_id axis value)).1)
        rw [VirtIOInputAndroidHID.handle_event, if_pos hdata, CacheTrue, Guest.receiveAll_cons,
          Guest.receiveAll_nil, hcurrent]
        exact h
      · -- the selection is passed on, the cache stays as it is
        show CacheTrue (s.dev.handle_event (.MTT type slot tracking_id axis value)).2
          (s.guest.receiveAll (s.dev.handle_event (.MTT type slot tracking_id axis value)).1) ↔
          (type ≠ .DATA → s.dev.current_slot = -1 ∨
            s.dev.current_slot.toUInt32 = slot.toInt32.toUInt32)
        rw [VirtIOInputAndroidHID.handle_event, if_neg hdata, CacheTrue, Guest.receiveAll_cons,
          Guest.receive_select, Guest.receiveAll_cons, Guest.receiveAll_nil,
          Guest.current_receive _ (show EvCode.ABS_MT_TRACKING_ID ≠ .ABS_MT_SLOT by decide),
          eq_comm (b := s.dev.current_slot.toUInt32)]
        exact ⟨fun hslot _ => hslot, fun hslot => hslot hdata⟩

/-- A handler that leaves out the selection of its slot addresses this slot. -/
theorem CacheTrue.addresses {vahid : VirtIOInputAndroidHID} {g : Guest} (h : CacheTrue vahid g)
    {b : InputButton} (hslot : b.toInt = vahid.current_slot) : g.current = b.slot := by
  rcases h with hempty | hcache
  · exact absurd (hslot.trans hempty) b.toInt_ne
  · rw [hcache, ← hslot, InputButton.slot]

/-- **The cache is true** at every point of a run, and so every handler that leaves out a selection addresses
the slot it means, exactly if each multi-touch event of the run that selects a slot
meets an empty cache or one that has this slot. -/
theorem cache_is_true_iff (wheel_axis : Bool) (acts : List Act) :
    (∀ before after, acts = before ++ after →
      CacheTrue (Link.run wheel_axis before).dev (Link.run wheel_axis before).guest ∧
      ∀ b : InputButton, b.toInt = (Link.run wheel_axis before).dev.current_slot →
        (Link.run wheel_axis before).guest.current = b.slot) ↔
    ∀ before a after, acts = before ++ a :: after → (Link.run wheel_axis before).SelectsCached a := by
  constructor
  · intro h before a after hacts
    have hbefore := (h before (a :: after) hacts).1
    have hafter := (h (before ++ [a]) after (by rw [hacts, List.append_assoc]; rfl)).1
    rw [Link.run_concat] at hafter
    exact ((Link.run wheel_axis before).step_cacheTrue_iff a hbefore).mp hafter
  · intro h before after hacts
    have htrue : CacheTrue (Link.run wheel_axis before).dev (Link.run wheel_axis before).guest := by
      -- from the start of the run to this point
      induction before using List.reverseRecOn generalizing after with
      | nil => exact .inr rfl
      | append_singleton before a ih =>
        have hsplit : acts = before ++ a :: after := by rw [hacts, List.append_assoc]; rfl
        rw [Link.run_concat]
        exact ((Link.run wheel_axis before).step_cacheTrue_iff a (ih (a :: after) hsplit)).mpr
          (h before a after hsplit)
    exact ⟨htrue, fun b hslot => htrue.addresses hslot⟩

/-- A touch is passed on and then the left button goes down: the press goes to the slot of the touch. -/
theorem cache_is_not_true :
    ¬ ∀ before after,
      [Act.event (.MTT .BEGIN 3 7 .X 0), .event (.BTN .LEFT true)] = before ++ after →
        CacheTrue (Link.run false before).dev (Link.run false before).guest := by
  intro hclaim
  have htrue := hclaim [.event (.MTT .BEGIN 3 7 .X 0)] [.event (.BTN .LEFT true)] rfl
  rcases htrue with hempty | hcache
  · exact absurd hempty (by decide)
  · exact absurd hcache (by decide)

/-! ### Buttons -/

/-- The active slots are those of the buttons that are down, with their positions. -/
structure Mirrors (vahid : VirtIOInputAndroidHID) (g : Guest) : Prop where
  cache : CacheTrue vahid g
  active : ∀ slot, g.Active slot ↔ ∃ b, vahid.keymap_button_down b = true ∧ b.slot = slot
  position : ∀ b, vahid.keymap_button_down b = true →
    g.axes b.slot .ABS_MT_POSITION_X = (vahid.tracked_pointers b).x.toUInt32 ∧
    g.axes b.slot .ABS_MT_POSITION_Y = (vahid.tracked_pointers b).y.toUInt32

section Mirrors

variable {vahid vahid' : VirtIOInputAndroidHID} {g : Guest}

theorem mirrors_init (wheel_axis : Bool) :
    Mirrors (VirtIOInputAndroidHID.init wheel_axis) Guest.init where
  cache := .inr rfl
  active := by
    intro slot
    simp [VirtIOInputAndroidHID.init, Guest.Active, Guest.init]
  position := by
    intro b hdown
    cases hdown

/-- Only the positions of buttons that are down matter. -/
theorem Mirrors.congr (h : Mirrors vahid g) (hslot : vahid'.current_slot = vahid.current_slot)
    (hdown : vahid'.keymap_button_down = vahid.keymap_button_down)
    (hposition : ∀ b, vahid.keymap_button_down b = true →
      (vahid'.tracked_pointers b).x = (vahid.tracked_pointers b).x ∧
      (vahid'.tracked_pointers b).y = (vahid.tracked_pointers b).y) : Mirrors vahid' g where
  cache := h.cache.congr hslot
  active := by
    intro slot
    rw [hdown]
    exact h.active slot
  position := by
    intro b hb
    rw [hdown] at hb
    rw [(hposition b hb).1, (hposition b hb).2]
    exact h.position b hb

/-- **A handler that addresses the slot of a button**, and what its writes have to be. -/
theorem Mirrors.writes (h : Mirrors vahid g) (b : InputButton) {writes : List EvDevEvent}
    (hwrites : NoSelect writes) (hslot : vahid'.current_slot = -1 ∨ vahid'.current_slot = b.toInt)
    (hdown : ∀ b' ≠ b, vahid'.keymap_button_down b' = vahid.keymap_button_down b')
    (hothers : ∀ b' ≠ b, vahid'.tracked_pointers b' = vahid.tracked_pointers b')
    (hactive : 0 ≤ ((written .ABS_MT_TRACKING_ID writes).getD (g.axes b.slot .ABS_MT_TRACKING_ID)).toInt32 ↔
      vahid'.keymap_button_down b = true)
    (hposition : vahid'.keymap_button_down b = true →
      (written .ABS_MT_POSITION_X writes).getD (g.axes b.slot .ABS_MT_POSITION_X) =
        (vahid'.tracked_pointers b).x.toUInt32 ∧
      (written .ABS_MT_POSITION_Y writes).getD (g.axes b.slot .ABS_MT_POSITION_Y) =
        (vahid'.tracked_pointers b).y.toUInt32) :
    Mirrors vahid' (g.receiveAll (vahid.selectEvents b.toInt ++ writes)) := by
  have haxes := (receiveAll_select_writes h.cache b hwrites).2
  constructor
  case cache => exact h.cache.writes b hwrites hslot
  case active =>
    intro slot
    unfold Guest.Active
    rw [haxes]
    by_cases hown : slot = b.slot
    · subst hown
      rw [if_pos rfl, hactive]
      constructor
      · intro hb
        exact ⟨b, hb, rfl⟩
      · intro hsome
        obtain ⟨b', hb', hsame⟩ := hsome
        rw [← InputButton.slot_injective hsame]
        exact hb'
    · rw [if_neg hown]
      refine (h.active slot).trans (exists_congr fun b' => and_congr_left fun hb' => ?_)
      rw [hdown b' (fun heq => hown (by rw [← hb', heq]))]
  case position =>
    intro b' hb'
    rw [haxes, haxes]
    by_cases hown : b' = b
    · subst hown
      rw [if_pos rfl, if_pos rfl]
      exact hposition hb'
    · have hne : b'.slot ≠ b.slot := fun hsame => hown (InputButton.slot_injective hsame)
      rw [if_neg hne, if_neg hne, hothers b' hown]
      rw [hdown b' hown] at hb'
      exact h.position b' hb'

/-- A button goes down, or is pressed again. -/
theorem Mirrors.mts_pointer_down (h : Mirrors vahid g) (b : InputButton) (x y pressure : Int32) :
    Mirrors ((vahid.setDown b true).mts_pointer_down b x y pressure).2
      (g.receiveAll ((vahid.setDown b true).mts_pointer_down b x y pressure).1) := by
  refine h.writes b (by simp) (.inr rfl) (fun b' hne => Function.update_of_ne hne _ _)
    (fun b' hne => Function.update_of_ne hne _ _) ?_ ?_
  · refine iff_of_true b.slot_active ?_
    simp [VirtIOInputAndroidHID.mts_pointer_down, VirtIOInputAndroidHID.setDown]
  · intro _
    simp [written, VirtIOInputAndroidHID.mts_pointer_down]

/-- A button goes up, or is released again. -/
theorem Mirrors.mts_pointer_up (h : Mirrors vahid g) (b : InputButton) :
    Mirrors ((vahid.setDown b false).mts_pointer_up b).2
      (g.receiveAll ((vahid.setDown b false).mts_pointer_up b).1) := by
  refine h.writes b (by simp) (.inl rfl) (fun b' hne => Function.update_of_ne hne _ _)
    (fun b' hne => Function.update_of_ne hne _ _) ?_ ?_
  · simp [written, VirtIOInputAndroidHID.mts_pointer_up, VirtIOInputAndroidHID.setDown, MTS_POINTER_UP]
  · intro hdown
    simp [VirtIOInputAndroidHID.mts_pointer_up, VirtIOInputAndroidHID.setDown] at hdown

/-- A button that is down moves. -/
theorem Mirrors.mts_pointer_move (h : Mirrors vahid g) {b : InputButton}
    (hdown : vahid.keymap_button_down b = true) (x y pressure : Int32) :
    Mirrors (vahid.mts_pointer_move b x y pressure).2
      (g.receiveAll (vahid.mts_pointer_move b x y pressure).1) := by
  rcases mts_pointer_move_cases vahid b x y pressure with ⟨-, -, heq⟩ | heq
  · rw [heq]
    exact h
  · rw [heq]
    obtain ⟨htracking, hx, hy⟩ := written_moveWrites (vahid.tracked_pointers b) x y pressure
    obtain ⟨hposx, hposy⟩ := h.position b hdown
    refine h.writes b (moveWrites_noSelect _ _ _ _) (.inr rfl) (fun b' _ => rfl)
      (fun b' hne => Function.update_of_ne hne _ _) ?_ ?_
    · rw [htracking, Option.getD_none]
      exact iff_of_true ((h.active b.slot).mpr ⟨b, hdown, rfl⟩) hdown
    · intro _
      rw [hx, hy, hposx, hposy]
      dsimp only
      rw [Function.update_self]
      constructor
      · split
        · rfl
        · rename_i hsame
          rw [Option.getD_none, not_not.mp hsame]
      · split
        · rfl
        · rename_i hsame
          rw [Option.getD_none, not_not.mp hsame]

/-- **One button of the loop.** -/
theorem Mirrors.moveButton (h : Mirrors vahid g) (axis : InputAxis) (value : Int64) (i : InputButton) :
    Mirrors (vahid.moveButton axis value i).2 (g.receiveAll (vahid.moveButton axis value i).1) := by
  unfold VirtIOInputAndroidHID.moveButton
  dsimp only
  split
  · -- the position is stored once more, which changes nothing
    rename_i hdown
    refine (h.mts_pointer_move hdown _ _ _).congr rfl rfl fun b _ => ?_
    by_cases hown : b = i
    · subst hown
      dsimp only
      rw [Function.update_self]
      rcases mts_pointer_move_cases vahid b (if axis = .X then value.toInt32 else (vahid.tracked_pointers b).x)
        (if axis = .Y then value.toInt32 else (vahid.tracked_pointers b).y) MTS_PRESSURE_RANGE_MAX with
        ⟨hx, hy, heq⟩ | heq
      · rw [heq]
        exact ⟨hx.symm, hy.symm⟩
      · rw [heq]
        dsimp only
        rw [Function.update_self]
        cases axis <;> simp
    · dsimp only
      rw [Function.update_of_ne hown]
      exact ⟨rfl, rfl⟩
  · rename_i hup
    refine h.congr rfl rfl fun b hb => ?_
    have hne : b ≠ i := by
      rintro rfl
      exact hup hb
    dsimp only
    rw [Function.update_of_ne hne]
    exact ⟨rfl, rfl⟩

theorem Mirrors.moveButtons (h : Mirrors vahid g) (axis : InputAxis) (value : Int64)
    (buttons : List InputButton) :
    Mirrors (VirtIOInputAndroidHID.moveButtons axis value buttons vahid).2
      (g.receiveAll (VirtIOInputAndroidHID.moveButtons axis value buttons vahid).1) := by
  exact moveButtons_invariant axis value (fun i _ _ h => h.moveButton axis value i) buttons h

end Mirrors

/-- Not a multi-touch event. -/
def Act.IsMouse : Act → Prop
  | .event (.MTT ..) => False
  | _ => True

/-- **One call.** -/
theorem Mirrors.step {s : Link} (h : Mirrors s.dev s.guest) {a : Act} (ha : a.IsMouse) :
    Mirrors (s.step a).dev (s.step a).guest := by
  cases a with
  | sync => exact h
  | event evt =>
    cases evt with
    | KEY => exact h
    | REL => exact h
    | ABS axis value => exact h.moveButtons axis value InputButton.all
    | MTT type slot tracking_id axis value => exact ha.elim
    | BTN b down =>
      show Mirrors (s.dev.handle_event (.BTN b down)).2
        (s.guest.receiveAll (s.dev.handle_event (.BTN b down)).1)
      unfold VirtIOInputAndroidHID.handle_event
      dsimp only
      split
      · exact h
      · split
        · cases down with
          | true => exact h.mts_pointer_down b _ _ _
          | false => exact h.mts_pointer_up b
        · exact h

/-- **The guest sees the buttons.** In every run of buttons, moves and reports, in any order, the slot of
a button is active exactly if the button is down, no other slot is, an active slot holds the position
that is tracked for its button, and two buttons do not share a slot. -/
theorem buttons_are_shown (wheel_axis : Bool) (acts : List Act) (hacts : ∀ a ∈ acts, a.IsMouse) :
    (∀ b : InputButton, (Link.run wheel_axis acts).guest.Active b.slot ↔
      (Link.run wheel_axis acts).dev.keymap_button_down b = true) ∧
    (∀ slot, (Link.run wheel_axis acts).guest.Active slot → ∃ b : InputButton, b.slot = slot ∧
      (Link.run wheel_axis acts).guest.axes slot .ABS_MT_POSITION_X =
        ((Link.run wheel_axis acts).dev.tracked_pointers b).x.toUInt32 ∧
      (Link.run wheel_axis acts).guest.axes slot .ABS_MT_POSITION_Y =
        ((Link.run wheel_axis acts).dev.tracked_pointers b).y.toUInt32) ∧
    ∀ b b' : InputButton, (Link.run wheel_axis acts).dev.keymap_button_down b = true →
      (Link.run wheel_axis acts).dev.keymap_button_down b' = true → b ≠ b' → b.slot ≠ b'.slot := by
  have hmirrors : Mirrors (Link.run wheel_axis acts).dev (Link.run wheel_axis acts).guest := by
    induction acts using List.reverseRecOn with
    | nil => exact mirrors_init wheel_axis
    | append_singleton acts a ih =>
      rw [Link.run_concat]
      exact (ih fun a ha => hacts a (by simp [ha])).step (hacts a (by simp))
  refine ⟨fun b => ?_, fun slot hslot => ?_, fun b b' _ _ hne hsame => hne (InputButton.slot_injective hsame)⟩
  · rw [hmirrors.active]
    constructor
    · intro hsome
      obtain ⟨b', hb', hsame⟩ := hsome
      rw [← InputButton.slot_injective hsame]
      exact hb'
    · intro hb
      exact ⟨b, hb, rfl⟩
  · obtain ⟨b, hb, rfl⟩ := (hmirrors.active slot).mp hslot
    exact ⟨b, rfl, hmirrors.position b hb⟩

/-- Two buttons, a move, a release and a second press. -/
def twoButtons : List Act :=
  [.event (.BTN .LEFT true), .event (.BTN .RIGHT true), .event (.ABS .X 5), .sync,
    .event (.BTN .LEFT false), .event (.BTN .RIGHT true), .sync]

theorem buttons_are_shown_twoButtons :
    (Link.run false twoButtons).guest.Active InputButton.RIGHT.slot ∧
    ¬ (Link.run false twoButtons).guest.Active InputButton.LEFT.slot := by
  obtain ⟨hactive, -⟩ := buttons_are_shown false twoButtons (by simp [twoButtons, Act.IsMouse])
  rw [hactive, hactive]
  decide

end Goldfish.VirtioInput
