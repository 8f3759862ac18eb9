import Goldfish.Input.Contacts
import Goldfish.Input.Inputs

/-!
# Goldfish.Input.Contenders

**The pen and the fingers of one display.** A client numbers its fingers as it likes; the pen has the
reserved identifier `penid`. Both share the registry and the code that writes to the guest, so
their contacts stay apart only if neither gets at the slot of the other.

There are two ways to it. A finger may have the number of the pen, and then it *is* the pen for the
registry. And a press that begins a contact sends its tracking id before it selects its
slot, so the id goes to whichever contact was written last. `Panel.Clear` excludes both, and
`panel_spares_iff` says that nothing else is needed.

A contact is live from the press that got a slot to its own release or to its expiry. What happens
to it in between is the doing of other contacts, which is why `live` is kept beside the registry.
-/

namespace Goldfish.Input

open Goldfish.Lib Goldfish.Lib.EvDev

variable {Time Duration : Type}

/-! ### Requests of a client -/

/-- The message `Touch`. -/
structure TouchProto where
  x : Int32
  y : Int32
  identifier : Int32
  pressure : Int32
  touch_major : Int32
  touch_minor : Int32
  orientation : Int32
deriving DecidableEq, Repr

/-- The message `Pen`. -/
structure PenProto where
  location : TouchProto
  button_pressed : Bool
  rubber_pointer : Bool
deriving DecidableEq, Repr

/-- The body of the loop of `MultiTouchEvent::fromProto`. -/
def Touch.fromProto (proto_touch : TouchProto) : Touch where
  x := proto_touch.x.toUInt32
  y := proto_touch.y.toUInt32
  identifier := proto_touch.identifier.toUInt32
  pressure := proto_touch.pressure.toUInt32
  touch_major := proto_touch.touch_major.toUInt32
  touch_minor := proto_touch.touch_minor.toUInt32
  orientation := proto_touch.orientation.toUInt32

/-- The identifier of every pen. -/
def penid : UInt32 := 0x0a

/-- The body of the loop of `PenTouchEvent::fromProto`. -/
def Pen.fromProto (proto_pen : PenProto) : Pen where
  button_pressed := proto_pen.button_pressed
  rubber_pointer := proto_pen.rubber_pointer
  x := proto_pen.location.x.toUInt32
  y := proto_pen.location.y.toUInt32
  identifier := penid
  pressure := proto_pen.location.pressure.toUInt32
  touch_major := proto_pen.location.touch_major.toUInt32
  touch_minor := proto_pen.location.touch_minor.toUInt32
  orientation := proto_pen.location.orientation.toUInt32

/-- What a client touches the display with. -/
inductive Contact where
  | pen
  | finger (identifier : UInt32)
deriving DecidableEq, Repr

/-- The identifier it is registered with. -/
def Contact.identifier : Contact → UInt32
  | .pen => penid
  | .finger identifier => identifier

/-- One is the pen and the other a finger. -/
def Contact.Contends : Contact → Contact → Prop
  | .pen, .finger _ => True
  | .finger _, .pen => True
  | _, _ => False

/-- An element of an event of either kind. -/
inductive Element where
  | touch (proto_touch : TouchProto)
  | pen (proto_pen : PenProto)
deriving DecidableEq, Repr

/-- `fromProto`. -/
def Element.pointer : Element → Pointer
  | .touch proto_touch => .touch (Touch.fromProto proto_touch)
  | .pen proto_pen => .pen (Pen.fromProto proto_pen)

/-- Whose contact the element is about. -/
def Element.contact : Element → Contact
  | .touch proto_touch => .finger proto_touch.identifier.toUInt32
  | .pen _ => .pen

theorem Element.identifier_pointer (e : Element) :
    e.pointer.toTouch.identifier = e.contact.identifier := by
  cases e with
  | touch proto_touch => rfl
  | pen proto_pen => rfl

/-- Contacts of one kind are told apart by their identifiers. -/
theorem Contact.eq_of_identifier {c d : Contact} (hkind : ¬ c.Contends d)
    (hid : c.identifier = d.identifier) : c = d := by
  cases c with
  | pen =>
    cases d with
    | pen => rfl
    | finger identifier => exact absurd trivial hkind
  | finger identifier =>
    cases d with
    | pen => exact absurd trivial hkind
    | finger identifier' => exact congrArg Contact.finger hid

theorem Contact.Contends.symm {c d : Contact} (h : c.Contends d) : d.Contends c := by
  cases c <;> cases d <;> first | exact trivial | exact absurd h id

theorem Contact.Contends.ne {c d : Contact} (h : c.Contends d) : c ≠ d := by
  intro heq
  subst heq
  cases c <;> exact h

/-! ### One display -/

/-- The registry, the guest behind the display, and which contacts are live. -/
structure Panel (Time Duration : Type) where
  registry : SlotRegistry Time Duration
  guest : Guest
  live : Contact → Bool

/-- Nothing was sent yet. -/
def Panel.init (slotExpiration : Duration) : Panel Time Duration where
  registry := SlotRegistry.init slotExpiration
  guest := Guest.init
  live := fun _ => false

/-- One thing that happens at the display. -/
inductive Signal (Time Duration : Type) where
  | element (e : Element) (w h : UInt32) (now : Time)
  | expiry (c : Call Time)
  | setSlotExpiration (slotExpiration : Duration)

/-- What it is for the dispatcher. -/
def Signal.feed : Signal Time Duration → Feed Time Duration
  | .element e w h now => .pointer e.pointer w h now
  | .expiry c => .expiry c
  | .setSlotExpiration slotExpiration => .setSlotExpiration slotExpiration

/-- The contacts that are live once the registry is `registry`. -/
def Panel.liveAfter (s : Panel Time Duration) (registry : SlotRegistry Time Duration) :
    Signal Time Duration → Contact → Bool
  | .element e _ _ _ => Function.update s.live e.contact
      (e.pointer.toTouch.pressure ≠ 0 && registry.isIdentifierRegistered e.contact.identifier)
  | _ => fun c => s.live c && registry.isIdentifierRegistered c.identifier

/-- The state once the events are sent and the registry is `registry`. -/
def Panel.after (s : Panel Time Duration) (g : Signal Time Duration)
    (sent : List EvDevEvent × SlotRegistry Time Duration) : Panel Time Duration where
  registry := sent.2
  guest := s.guest.receiveAll sent.1
  live := s.liveAfter sent.2 g

section Clock

variable [HAdd Time Duration Time] [LT Time] [DecidableLT Time]

/-- One step. -/
def Panel.step (s : Panel Time Duration) (g : Signal Time Duration) :
    Except Fault (Panel Time Duration) := do
  let sent ← g.feed.run s.registry
  return s.after g sent

end Clock

/-- The pen and a finger are not in one slot. -/
def Panel.Apart (s : Panel Time Duration) : Prop :=
  ∀ c d, c.Contends d → s.live c = true → s.live d = true → ∀ n, s.registry.mIdMap.lookup c.identifier = some n →
    s.registry.mIdMap.lookup d.identifier ≠ some n

section Clock

variable [HAdd Time Duration Time]

/-- An element leaves the live contacts of the other kind alone: they are neither moved nor pressed
harder or softer, they are sent no tracking id, and they keep their slot. -/
def Panel.LeavesAlone (s : Panel Time Duration) : Signal Time Duration → Prop
  | .element e w h now =>
      let (events, registry) := e.pointer.toEvDevEvents w h s.registry now
      ∀ d, e.contact.Contends d → s.live d = true → ∀ n, s.registry.mIdMap.lookup d.identifier = some n →
        slotReport (s.guest.receiveAll events) (UInt32.ofNat n) = slotReport s.guest (UInt32.ofNat n) ∧
        UInt32.ofNat n ∉ s.guest.targets .ABS_MT_TRACKING_ID events ∧
        registry.mIdMap.lookup d.identifier = some n
  | _ => True

end Clock

/-- The condition on an element: it has not the identifier of a live contact of the other kind, and if it
begins a contact, or tries to, the slot that is selected is not that of such a contact. -/
def Panel.Clear (s : Panel Time Duration) : Signal Time Duration → Prop
  | .element e _ _ _ => ∀ d, e.contact.Contends d → s.live d = true →
      d.identifier ≠ e.contact.identifier ∧
      (e.pointer.toTouch.pressure ≠ 0 →
        s.registry.isIdentifierRegistered e.contact.identifier = false →
        s.registry.slotOf d.identifier ≠ s.guest.current)
  | _ => True

/-! ### What an element does to another contact -/

/-- A touch sends a tracking id to its slot exactly if it lifts the contact. -/
theorem mem_targets_slotEvents (g : Guest) (t : Touch) (w h slot s : UInt32) :
    s ∈ g.targets .ABS_MT_TRACKING_ID (t.slotEvents w h slot) ↔ s = slot ∧ t.pressure = 0 := by
  rw [t.slotEvents_eq, Guest.targets, if_neg (by simp), List.nil_append, Guest.receive_select,
    Guest.mem_targets_of_noSelect (t.slotWrites_noSelect w h), t.slotWrites_trackingId]
  by_cases hp : t.pressure = 0
  · simp [hp]
  · simp [hp]

/-- The same behind a tracking id that is sent first. -/
theorem mem_targets_begins (g : Guest) (t : Touch) (w h slot v s : UInt32) :
    s ∈ g.targets .ABS_MT_TRACKING_ID (⟨.EV_ABS, .ABS_MT_TRACKING_ID, v⟩ :: t.slotEvents w h slot) ↔
      s = g.current ∨ s = slot ∧ t.pressure = 0 := by
  rw [Guest.targets, List.mem_append, mem_targets_slotEvents, if_pos ⟨rfl, rfl⟩, List.mem_singleton]

/-- The events for the tool send no tracking id. -/
theorem targets_toolEvents (g : Guest) (p : Pointer) : g.targets .ABS_MT_TRACKING_ID p.toolEvents = [] := by
  rw [List.eq_nil_iff_forall_not_mem]
  intro slot hslot
  rw [Guest.mem_targets_of_noSelect p.toolEvents_noSelect] at hslot
  have hnone : written .ABS_MT_TRACKING_ID p.toolEvents = none := by
    cases p with
    | touch t => rfl
    | pen p =>
      simp only [Pointer.toolEvents, Pen.toolEvents]
      split <;> simp [written]
  rw [hnone] at hslot
  cases hslot.2

section Clock

variable [HAdd Time Duration Time]

/-- Where an element sends tracking ids: what its touch does, from the slot that is selected. -/
theorem mem_targets_pointer (g : Guest) (p : Pointer) (w h : UInt32) (r : SlotRegistry Time Duration)
    (now : Time) (slot : UInt32) :
    slot ∈ g.targets .ABS_MT_TRACKING_ID (p.toEvDevEvents w h r now).1 ↔
      slot ∈ (g.receiveAll p.toolEvents).targets .ABS_MT_TRACKING_ID
        (p.toTouch.toEvDevEvents w h r now).1 := by
  rw [p.toEvDevEvents_eq, Guest.targets_append, targets_toolEvents, List.nil_append]

section Effects

variable {r : SlotRegistry Time Duration} (g : Guest) (p : Pointer) (w h : UInt32) (now : Time)

/-- The release of a contact sends a tracking id to its slot. -/
theorem mem_targets_release {n : Nat} (hid : r.mIdMap.lookup p.toTouch.identifier = some n)
    (hp : p.toTouch.pressure = 0) :
    UInt32.ofNat n ∈ g.targets .ABS_MT_TRACKING_ID (p.toEvDevEvents w h r now).1 := by
  rw [mem_targets_pointer, p.toTouch.toEvDevEvents_known w h now hid, mem_targets_slotEvents]
  exact ⟨rfl, hp⟩

/-- A press of an unknown identifier sends one to the slot that is selected, whether it gets a slot of its own
or not. -/
theorem mem_targets_press (hid : r.mIdMap.lookup p.toTouch.identifier = none) (hp : p.toTouch.pressure ≠ 0) :
    g.current ∈ g.targets .ABS_MT_TRACKING_ID (p.toEvDevEvents w h r now).1 := by
  have hcurrent : (g.receiveAll p.toolEvents).current = g.current := (receiveAll_toolEvents g p).1
  rw [mem_targets_pointer]
  rcases r.findNextFreeSlot_spec with ⟨hfull, -⟩ | ⟨slot, hfree, -⟩
  · rw [p.toTouch.toEvDevEvents_refused w h now hid hp hfull, mem_targets_begins]
    exact .inl hcurrent.symm
  · rw [p.toTouch.toEvDevEvents_begins w h now hid hp hfree, mem_targets_begins]
    exact .inl hcurrent.symm

/-- **The frame of an element**: a contact with another identifier is left alone, unless a tracking id is
sent to it because its slot is the selected one. -/
theorem Pointer.leaves (hr : r.WF) {id : UInt32} {n : Nat} (hid : r.mIdMap.lookup id = some n)
    (hne : id ≠ p.toTouch.identifier)
    (hbegins : p.toTouch.pressure ≠ 0 → r.mIdMap.lookup p.toTouch.identifier = none →
      UInt32.ofNat n ≠ g.current) :
    slotReport (g.receiveAll (p.toEvDevEvents w h r now).1) (UInt32.ofNat n) =
      slotReport g (UInt32.ofNat n) ∧
    UInt32.ofNat n ∉ g.targets .ABS_MT_TRACKING_ID (p.toEvDevEvents w h r now).1 ∧
    (p.toEvDevEvents w h r now).2.mIdMap.lookup id = some n := by
  obtain ⟨hcurrent, -, hreport⟩ := receiveAll_toolEvents g p
  have hkeeps : (p.toEvDevEvents w h r now).2.mIdMap.lookup id = some n := by
    rw [p.toEvDevEvents_eq, (p.toTouch.toEvDevEvents_other w h r now hne).1, hid]
  rw [mem_targets_pointer]
  refine ⟨?_, ?_, hkeeps⟩
  · rw [p.toEvDevEvents_eq, Guest.receiveAll_append, ← hreport]
    rcases p.toTouch.toEvDevEvents_cases w h r now with
      ⟨slot, hknown, heq⟩ | ⟨-, -, heq⟩ | ⟨slot, -, -, -, hbound, hfree, heq⟩ | ⟨-, -, -, heq⟩
    · rw [heq, slotReport_slotEvents, if_neg (hr.slot_ne hknown hid hne)]
    · rw [heq, Guest.receiveAll_nil]
    · have hslot : UInt32.ofNat n ≠ UInt32.ofNat slot := by
        intro hsame
        have hn := SlotRegistry.ofNat_inj (hr.bound hid) hbound hsame
        exact hfree ((hr.used slot).mpr ⟨id, hn ▸ hid⟩)
      rw [heq, Guest.receiveAll_cons, slotReport_slotEvents, if_neg hslot, slotReport_trackingId]
    · have hslot : UInt32.ofNat n ≠ UInt32.ofInt (-1) := by
        intro hsame
        have hbound := toNat_ofNat_lt (hr.bound hid)
        rw [hsame] at hbound
        exact absurd hbound (by decide)
      rw [heq, Guest.receiveAll_cons, slotReport_slotEvents, if_neg hslot, slotReport_trackingId]
  · rcases p.toTouch.toEvDevEvents_cases w h r now with
      ⟨slot, hknown, heq⟩ | ⟨-, -, heq⟩ | ⟨slot, hnone, hp, -, -, -, heq⟩ | ⟨hnone, hp, -, heq⟩
    · rw [heq, mem_targets_slotEvents]
      exact fun hsent => hr.slot_ne hknown hid hne hsent.1
    · rw [heq]
      exact List.not_mem_nil
    · rw [heq, mem_targets_begins, hcurrent]
      exact not_or.mpr ⟨hbegins hp hnone, fun hsent => hp hsent.2⟩
    · rw [heq, mem_targets_begins, hcurrent]
      exact not_or.mpr ⟨hbegins hp hnone, fun hsent => hp hsent.2⟩

end Effects

end Clock

/-! ### Steps and runs -/

/-- The invariant: a live contact is registered, and no finger has the identifier of a live pen. -/
structure Panel.Sound (s : Panel Time Duration) : Prop where
  wf : s.registry.WF
  registered : ∀ c, s.live c = true → ∃ n, s.registry.mIdMap.lookup c.identifier = some n
  distinct : ∀ c d, c.Contends d → s.live c = true → s.live d = true → c.identifier ≠ d.identifier

theorem Panel.sound_init (slotExpiration : Duration) :
    (Panel.init slotExpiration : Panel Time Duration).Sound where
  wf := SlotRegistry.init_wf slotExpiration
  registered := fun _ hlive => absurd hlive (by simp [Panel.init])
  distinct := fun _ _ _ hlive => absurd hlive (by simp [Panel.init])

/-- Contacts with different identifiers are in different slots. -/
theorem Panel.Sound.apart {s : Panel Time Duration} (h : s.Sound) : s.Apart := by
  intro c d hkind hc hd n hcn hdn
  exact h.distinct c d hkind hc hd (h.wf.injective hcn hdn)

/-- After anything that is no element. -/
theorem Panel.Sound.shrink {s s' : Panel Time Duration} (h : s.Sound) (hr : s'.registry.WF)
    (hlive : ∀ c, s'.live c = (s.live c && s'.registry.isIdentifierRegistered c.identifier)) : s'.Sound where
  wf := hr
  registered := by
    intro c hc
    rw [hlive, Bool.and_eq_true] at hc
    exact Option.isSome_iff_exists.mp hc.2
  distinct := by
    intro c d hkind hc hd
    rw [hlive, Bool.and_eq_true] at hc hd
    exact h.distinct c d hkind hc.1 hd.1

section Element

variable (s : Panel Time Duration) (e : Element) (w h : UInt32) (now : Time)
  (sent : List EvDevEvent × SlotRegistry Time Duration)

/-- The contact of an element is live afterwards if it is pressed and has a slot. -/
theorem Panel.live_after_self : (s.after (.element e w h now) sent).live e.contact = true ↔
    e.pointer.toTouch.pressure ≠ 0 ∧ ∃ n, sent.2.mIdMap.lookup e.contact.identifier = some n := by
  have hlive : (s.after (.element e w h now) sent).live e.contact =
      (e.pointer.toTouch.pressure ≠ 0 && sent.2.isIdentifierRegistered e.contact.identifier) :=
    Function.update_self ..
  rw [hlive, Bool.and_eq_true, decide_eq_true_iff, SlotRegistry.isIdentifierRegistered,
    Option.isSome_iff_exists]

/-- Every other one stays as it is. -/
theorem Panel.live_after_other {d : Contact} (hne : d ≠ e.contact) :
    (s.after (.element e w h now) sent).live d = s.live d :=
  Function.update_of_ne hne ..

end Element

section Clock

variable [HAdd Time Duration Time]

/-- After an element that is not of the identifiers of the other kind. -/
theorem Panel.Sound.element {s : Panel Time Duration} (h : s.Sound) (e : Element) (w h' : UInt32) (now : Time)
    (hclear : s.Clear (.element e w h' now)) :
    (s.after (.element e w h' now) (e.pointer.toEvDevEvents w h' s.registry now)).Sound := by
  -- a contact other than that of the element was live before and has another identifier
  have hother (d : Contact) (hne : d ≠ e.contact)
      (hlive : (s.after (.element e w h' now)
        (e.pointer.toEvDevEvents w h' s.registry now)).live d = true) :
      s.live d = true ∧ d.identifier ≠ e.contact.identifier := by
    rw [s.live_after_other e w h' now _ hne] at hlive
    refine ⟨hlive, fun hid => ?_⟩
    by_cases hkind : e.contact.Contends d
    · exact (hclear d hkind hlive).1 hid
    · exact hne (Contact.eq_of_identifier hkind hid.symm).symm
  constructor
  case wf => exact e.pointer.toEvDevEvents_wf h.wf w h' now
  case registered =>
    intro d hlive
    by_cases hd : d = e.contact
    · subst hd
      exact ((s.live_after_self e w h' now _).mp hlive).2
    · obtain ⟨hbefore, hne⟩ := hother d hd hlive
      obtain ⟨n, hn⟩ := h.registered d hbefore
      refine ⟨n, ?_⟩
      rw [← e.identifier_pointer] at hne
      rw [Panel.after, e.pointer.toEvDevEvents_eq,
        (e.pointer.toTouch.toEvDevEvents_other w h' s.registry now hne).1, hn]
  case distinct =>
    intro c d hkind hc hd
    by_cases hce : c = e.contact
    · subst hce
      exact (hother d hkind.ne.symm hd).2.symm
    · by_cases hde : d = e.contact
      · subst hde
        exact (hother c hce hc).2
      · exact h.distinct c d hkind (hother c hce hc).1 (hother d hde hd).1

variable [LT Time] [DecidableLT Time]

/-- No step fails, and one that is clear keeps the invariant. -/
theorem Panel.step_sound (s : Panel Time Duration) (g : Signal Time Duration) (h : s.Sound)
    (hclear : s.Clear g) : ∃ s', s.step g = .ok s' ∧ s'.Sound := by
  cases g with
  | element e w h' now => exact ⟨_, rfl, h.element e w h' now hclear⟩
  | expiry c =>
    obtain ⟨r', hrun, hwf, -⟩ := SlotRegistry.expireOldSlots_spec h.wf c.now (c.visit_perm _)
    exact ⟨_, by rw [Panel.step, Signal.feed, Feed.run, hrun]; rfl, h.shrink hwf fun c => rfl⟩
  | setSlotExpiration slotExpiration =>
    obtain ⟨events, r', hrun, hwf⟩ := Feed.run_wf h.wf (.setSlotExpiration slotExpiration)
    exact ⟨_, by rw [Panel.step, Signal.feed, hrun]; rfl, h.shrink hwf fun c => rfl⟩

/-- The contacts of the other kind are left alone, and pen and fingers are in different slots afterwards. -/
def Panel.Spares (s : Panel Time Duration) (g : Signal Time Duration) : Prop :=
  s.LeavesAlone g ∧ ∃ s', s.step g = .ok s' ∧ s'.Apart

/-- **One step** is as it should be exactly if it is clear. -/
theorem Panel.spares_iff (s : Panel Time Duration) (g : Signal Time Duration) (h : s.Sound) :
    s.Spares g ↔ s.Clear g := by
  constructor
  · intro hspares
    cases g with
    | element e w h' now =>
      obtain ⟨halone, s', hs', hapart⟩ := hspares
      intro d hkind hd
      obtain ⟨n, hn⟩ := h.registered d hd
      obtain ⟨-, htargets, hkeeps⟩ := halone d hkind hd n hn
      constructor
      · -- with the same identifier, a release hits the contact and a press puts both in one slot
        intro hid
        rw [hid, ← e.identifier_pointer] at hn
        by_cases hp : e.pointer.toTouch.pressure = 0
        · exact htargets (mem_targets_release s.guest e.pointer w h' now hn hp)
        · rw [Panel.step, Signal.feed, Feed.run, ok_bind] at hs'
          cases hs'
          rw [hid] at hkeeps
          refine hapart e.contact d hkind ?_ ?_ n hkeeps (by rw [hid]; exact hkeeps)
          · exact (s.live_after_self e w h' now _).mpr ⟨hp, n, hkeeps⟩
          · rw [s.live_after_other e w h' now _ hkind.ne.symm]
            exact hd
      · intro hp hnew hselected
        rw [← e.identifier_pointer, SlotRegistry.isIdentifierRegistered, Option.isSome_eq_false_iff,
          Option.isNone_iff_eq_none] at hnew
        rw [SlotRegistry.slotOf_eq hn] at hselected
        exact htargets (hselected ▸ mem_targets_press s.guest e.pointer w h' now hnew hp)
    | expiry c => trivial
    | setSlotExpiration slotExpiration => trivial
  · intro hclear
    obtain ⟨s', hs', hsound⟩ := s.step_sound g h hclear
    refine ⟨?_, s', hs', hsound.apart⟩
    cases g with
    | element e w h' now =>
      intro d hkind hd n hn
      obtain ⟨hne, hselected⟩ := hclear d hkind hd
      refine e.pointer.leaves s.guest w h' now h.wf hn (e.identifier_pointer ▸ hne) fun hp hnew => ?_
      rw [← SlotRegistry.slotOf_eq hn]
      refine hselected hp ?_
      rw [← e.identifier_pointer]
      exact SlotRegistry.isIdentifierRegistered_eq_false hnew
    | expiry c => trivial
    | setSlotExpiration slotExpiration => trivial

/-- **Pen and fingers in every run**, with any identifiers, any readings of the clock and expiries anywhere:
every element leaves the live contacts of the other kind alone, and the slots of pen and fingers differ
in every state, exactly if every element is clear when its turn comes. -/
theorem panel_spares_iff (slotExpiration : Duration) (signals : List (Signal Time Duration)) :
    Along Panel.step Panel.Spares (Panel.init slotExpiration) signals ↔
      Along Panel.step Panel.Clear (Panel.init slotExpiration) signals := by
  refine along_iff_along (fun s g h => s.spares_iff g h) (fun s g s' h hclear hs' => ?_)
    (Panel.sound_init slotExpiration)
  obtain ⟨s'', hs'', hsound⟩ := s.step_sound g h hclear
  rw [hs'] at hs''
  exact Except.ok.inj hs'' ▸ hsound

end Clock

/-- A pen at the left, and a finger with the number 10 at the right. -/
def penAndTenthFinger : List (Signal Int Int) :=
  [.element (.pen ⟨⟨10, 10, 0, 5, 0, 0, 0⟩, false, false⟩) 100 100 0,
    .element (.touch ⟨90, 10, 10, 5, 0, 0, 0⟩) 100 100 1]

/-- The finger moves the pen, whose slot it gets. -/
theorem penAndTenthFinger_not_spared :
    ¬ Along Panel.step Panel.Spares (Panel.init 120) penAndTenthFinger := by
  intro hspares
  obtain ⟨-, hrest⟩ := hspares
  obtain ⟨halone, -⟩ := (hrest _ rfl).1
  have hmoved := congrArg Report.x (halone .pen trivial rfl 0 rfl).1
  revert hmoved
  decide

end Goldfish.Input
