import Goldfish.Battery.Device

/-!
# Goldfish.Battery.Snapshot

The battery in a **snapshot**: what a guest reads from a device that was saved and loaded
into a fresh one.

The list of saved fields was not extended when the device got more registers. The fields it
misses have the values of a fresh device after a load, so the host's changes to four properties
are lost (`battery_snapshot_iff`).
-/

namespace Goldfish.Battery

/-! ### The save format -/

/-- The fields of `goldfish_battery_vmsd`. -/
structure SavedBattery where
  int_status : UInt32
  int_enable : UInt32
  ac_online : UInt32
  status : UInt32
  health : UInt32
  present : UInt32
  capacity : UInt32
  hw_has_battery : UInt32
  deriving DecidableEq, Repr

/-- What a snapshot has of the device. -/
def BatteryState.save (s : BatteryState) : SavedBattery where
  int_status := s.int_status
  int_enable := s.int_enable
  ac_online := s.ac_online
  status := s.status
  health := s.health
  present := s.present
  capacity := s.capacity
  hw_has_battery := s.hw_has_battery

/-- Only the fields of the list are replaced. -/
def BatteryState.load (s : BatteryState) (saved : SavedBattery) : BatteryState :=
  { s with
    int_status := saved.int_status
    int_enable := saved.int_enable
    ac_online := saved.ac_online
    status := saved.status
    health := saved.health
    present := saved.present
    capacity := saved.capacity
    hw_has_battery := saved.hw_has_battery }

/-- A device that was just realized. -/
def BatteryState.fresh (sDeviceHasBattery : Int32) : BatteryState :=
  { BatteryState.reset with sDeviceHasBattery }.realize

/-! ### What the list misses -/

/-- The properties that can be set and are not saved. -/
def unsavedProps : List PowerSupplyProp := [.CURRENT_NOW, .CURRENT_AVG, .CHARGE_FULL, .CYCLE_COUNT]

/-- The field of such a property. -/
def BatteryState.unsaved (s : BatteryState) : PowerSupplyProp → UInt32
  | .CURRENT_NOW => s.current_now
  | .CURRENT_AVG => s.current_avg
  | .CHARGE_FULL => s.charge_full_uah
  | _ => s.cycle_count

/-- The value the host set last, behind an operation; realizing the device forgets it. -/
def Op.lastSet (property : PowerSupplyProp) (last : Option Int32) : Op → Option Int32
  | .setProp ac property' value => if ac = 0 ∧ property' = property then some value else last
  | .realize => none
  | _ => last

/-- The value that was set last, if any was. -/
def lastSet (property : PowerSupplyProp) (ops : List Op) : Option Int32 :=
  ops.foldl (Op.lastSet property) none

/-- The other registers that are not saved. Nothing sets them. -/
def BatteryState.fixed (s : BatteryState) : List UInt32 :=
  [s.voltage, s.temp, s.charge_counter, s.voltage_max, s.current_max]

/-! ### What a run leaves in these fields -/

/-- Everything but the interrupt and the saved registers is the same. -/
structure SameBattery (s s' : BatteryState) : Prop where
  realized : s'.sBatteryIsRealized = s.sBatteryIsRealized
  deviceHasBattery : s'.sDeviceHasBattery = s.sDeviceHasBattery
  hw_has_battery : s'.hw_has_battery = s.hw_has_battery
  fixed : s'.fixed = s.fixed
  unsaved : ∀ property, s'.unsaved property = s.unsaved property

theorem SameBattery.refl (s : BatteryState) : SameBattery s s := ⟨rfl, rfl, rfl, rfl, fun _ => rfl⟩

theorem read_sameBattery (s : BatteryState) (offset : UInt64) : SameBattery s (s.read offset).2 := by
  unfold BatteryState.read
  split
  · dsimp only
    split
    · exact ⟨rfl, rfl, rfl, rfl, fun property => by cases property <;> rfl⟩
    · exact .refl s
  all_goals exact .refl s

theorem write_sameBattery (s : BatteryState) (offset val : UInt64) : SameBattery s (s.write offset val) := by
  unfold BatteryState.write
  dsimp only
  split
  · split <;> exact ⟨rfl, rfl, rfl, rfl, fun property => by cases property <;> rfl⟩
  · exact .refl s

/-- Signalling a change. -/
theorem set_prop_sameBattery {s : BatteryState} (hrealized : s.sBatteryIsRealized = true)
    (hbattery : s.hw_has_battery ≠ 0) (ac : Int32) (property : PowerSupplyProp) (value : Int32) :
    SameBattery (s.store ac property value) (s.set_prop ac property value) := by
  unfold BatteryState.set_prop
  rw [if_neg (by simp [hrealized]), if_neg hbattery]
  dsimp only
  split
  · exact ⟨rfl, rfl, rfl, rfl, fun property => by cases property <;> rfl⟩
  · exact .refl _

theorem store_unsaved (s : BatteryState) (ac : Int32) (property' : PowerSupplyProp) (value : Int32)
    {property : PowerSupplyProp} (hproperty : property ∈ unsavedProps) :
    (s.store ac property' value).unsaved property =
      if ac = 0 ∧ property' = property then value.toUInt32 else s.unsaved property := by
  unfold BatteryState.store
  by_cases hac : ac = 0
  · rw [if_neg (not_not.mpr hac)]
    simp only [unsavedProps, List.mem_cons, List.not_mem_nil, or_false] at hproperty
    rcases hproperty with rfl | rfl | rfl | rfl <;> cases property' <;> simp [hac, BatteryState.unsaved]
  · rw [if_pos hac, if_neg fun h => hac h.1]
    cases property' <;> cases property <;> rfl

/-- The value of a property that is not saved: what the host set last, if the device has a battery. -/
def expected (hasBattery : Int32) (last : PowerSupplyProp → Option Int32) (property : PowerSupplyProp) : UInt32 :=
  if hasBattery = 0 then (BatteryState.fresh hasBattery).unsaved property
  else ((last property).map Int32.toUInt32).getD ((BatteryState.fresh hasBattery).unsaved property)

/-- A device that was realized with or without a battery, and has seen the host's last values. -/
structure Configured (hasBattery : Int32) (last : PowerSupplyProp → Option Int32) (s : BatteryState) :
    Prop where
  realized : s.sBatteryIsRealized = true
  deviceHasBattery : s.sDeviceHasBattery = hasBattery
  hw_has_battery : s.hw_has_battery = (BatteryState.fresh hasBattery).hw_has_battery
  fixed : s.fixed = (BatteryState.fresh hasBattery).fixed
  unsaved : ∀ property ∈ unsavedProps, s.unsaved property = expected hasBattery last property

theorem Configured.same {hasBattery : Int32} {last : PowerSupplyProp → Option Int32} {s s' : BatteryState}
    (h : Configured hasBattery last s) (hsame : SameBattery s s') : Configured hasBattery last s' where
  realized := hsame.realized.trans h.realized
  deviceHasBattery := hsame.deviceHasBattery.trans h.deviceHasBattery
  hw_has_battery := hsame.hw_has_battery.trans h.hw_has_battery
  fixed := hsame.fixed.trans h.fixed
  unsaved property hproperty := (hsame.unsaved property).trans (h.unsaved property hproperty)

theorem fresh_hw_has_battery (hasBattery : Int32) :
    (BatteryState.fresh hasBattery).hw_has_battery = 0 ↔ hasBattery = 0 := by
  by_cases hbattery : hasBattery = 0 <;> simp [BatteryState.fresh, BatteryState.realize, hbattery]

theorem realize_configured (s : BatteryState) :
    Configured s.sDeviceHasBattery (fun _ => none) s.realize := by
  have hunsaved : ∀ property, s.realize.unsaved property =
      (BatteryState.fresh s.sDeviceHasBattery).unsaved property := by
    intro property
    by_cases hbattery : s.sDeviceHasBattery = 0 <;>
      cases property <;> simp [BatteryState.realize, BatteryState.fresh, BatteryState.unsaved, hbattery]
  refine ⟨rfl, ?_, ?_, ?_, fun property _ => ?_⟩
  · by_cases hbattery : s.sDeviceHasBattery = 0 <;> simp [BatteryState.realize, hbattery]
  · by_cases hbattery : s.sDeviceHasBattery = 0 <;>
      simp [BatteryState.realize, BatteryState.fresh, hbattery]
  · by_cases hbattery : s.sDeviceHasBattery = 0 <;>
      simp [BatteryState.realize, BatteryState.fresh, BatteryState.fixed, hbattery]
  · rw [hunsaved, expected]
    simp

/-- **One step.** -/
theorem Configured.step {hasBattery : Int32} {last : PowerSupplyProp → Option Int32} {s : BatteryState}
    (h : Configured hasBattery last s) (op : Op) :
    Configured hasBattery (fun property => op.lastSet property (last property)) (s.step op) := by
  cases op with
  | realize => exact h.deviceHasBattery ▸ realize_configured s
  | read offset => exact h.same (read_sameBattery s offset)
  | write offset val => exact h.same (write_sameBattery s offset val)
  | setProp ac property' value =>
    by_cases hbattery : hasBattery = 0
    · -- nothing is stored without a battery
      have hnone : s.hw_has_battery = 0 := h.hw_has_battery.trans ((fresh_hw_has_battery hasBattery).mpr hbattery)
      have hstep : s.step (.setProp ac property' value) = s := by
        rw [BatteryState.step, BatteryState.set_prop, if_neg (by simp [h.realized]), if_pos hnone]
      rw [hstep]
      refine ⟨h.realized, h.deviceHasBattery, h.hw_has_battery, h.fixed, fun property hproperty => ?_⟩
      rw [h.unsaved property hproperty, expected, expected, if_pos hbattery, if_pos hbattery]
    · have hsome : s.hw_has_battery ≠ 0 := by
        rw [h.hw_has_battery, Ne, fresh_hw_has_battery]
        exact hbattery
      have hstored : Configured hasBattery
          (fun property => Op.lastSet property (last property) (.setProp ac property' value))
          (s.store ac property' value) := by
        have hother : (s.store ac property' value).sBatteryIsRealized = s.sBatteryIsRealized ∧
            (s.store ac property' value).sDeviceHasBattery = s.sDeviceHasBattery ∧
            (s.store ac property' value).hw_has_battery = s.hw_has_battery ∧
            (s.store ac property' value).fixed = s.fixed := by
          unfold BatteryState.store
          split <;> cases property' <;> exact ⟨rfl, rfl, rfl, rfl⟩
        refine ⟨hother.1.trans h.realized, hother.2.1.trans h.deviceHasBattery,
          hother.2.2.1.trans h.hw_has_battery, hother.2.2.2.trans h.fixed, fun property hproperty => ?_⟩
        rw [store_unsaved s ac property' value hproperty, h.unsaved property hproperty, expected, expected,
          if_neg hbattery, if_neg hbattery, Op.lastSet]
        split <;> rfl
      exact hstored.same (set_prop_sameBattery h.realized hsome ac property' value)

/-- **A run** of a device that was realized. -/
theorem run_configured (hasBattery : Int32) (ops : List Op) :
    Configured hasBattery (fun property => lastSet property ops)
      (ops.foldl BatteryState.step (BatteryState.fresh hasBattery)) := by
  induction ops using List.reverseRecOn with
  | nil => exact realize_configured { BatteryState.reset with sDeviceHasBattery := hasBattery }
  | append_singleton ops op ih =>
    have hlast : ∀ property, lastSet property (ops ++ [op]) = op.lastSet property (lastSet property ops) := by
      intro property
      rw [lastSet, List.foldl_append]
      rfl
    simp only [List.foldl_append, List.foldl_cons, List.foldl_nil, hlast]
    exact ih.step op

/-! ### What the guest reads -/

/-- The guest reads the same everywhere exactly if the fields agree that are not in the list. -/
theorem load_reads_iff (s fresh : BatteryState) :
    (∀ offset, ((fresh.load s.save).read offset).1 = (s.read offset).1) ↔
      fresh.fixed = s.fixed ∧ ∀ property ∈ unsavedProps, fresh.unsaved property = s.unsaved property := by
  simp only [BatteryState.fixed, unsavedProps, List.cons.injEq, List.forall_mem_cons, BatteryState.unsaved]
  constructor
  · intro h
    have hregister : ∀ offset, ∀ register : BatteryState → UInt32,
        (∀ s : BatteryState, (s.read offset).1 = (register s).toUInt64) →
        register (fresh.load s.save) = register s := by
      intro offset register hread
      have hsame := h offset
      rw [hread, hread] at hsame
      exact UInt32.toUInt64_inj.mp hsame
    refine ⟨⟨?_, ?_, ?_, ?_, ?_, trivial⟩, ?_, ?_, ?_, ?_, by simp⟩
    · exact hregister 0x1C (·.voltage) fun _ => rfl
    · exact hregister 0x20 (·.temp) fun _ => rfl
    · exact hregister 0x24 (·.charge_counter) fun _ => rfl
    · exact hregister 0x28 (·.voltage_max) fun _ => rfl
    · exact hregister 0x2C (·.current_max) fun _ => rfl
    · exact hregister 0x30 (·.current_now) fun _ => rfl
    · exact hregister 0x34 (·.current_avg) fun _ => rfl
    · exact hregister 0x38 (·.charge_full_uah) fun _ => rfl
    · exact hregister 0x40 (·.cycle_count) fun _ => rfl
  · intro h offset
    obtain ⟨⟨hvoltage, htemp, hcounter, hvoltageMax, hcurrentMax, -⟩, hnow, havg, hfull, hcycle, -⟩ := h
    have hsame : fresh.load s.save = { s with
        sBatteryIsRealized := fresh.sBatteryIsRealized
        sDeviceHasBattery := fresh.sDeviceHasBattery
        irq := fresh.irq } := by
      simp only [BatteryState.load, BatteryState.save, hvoltage, htemp, hcounter, hvoltageMax, hcurrentMax,
        hnow, havg, hfull, hcycle]
    rw [hsame]
    unfold BatteryState.read
    split
    · dsimp only
      split <;> rfl
    all_goals rfl

/-- **A snapshot of the battery.** A device was realized, with or without a battery, and anything may have
happened to it; it is saved, and loaded into a device that was just realized. The guest reads
the same from both exactly if either both were realized with a battery or none, and what the
host last set of the four properties that are not saved, if there is a battery, is what
they are at first. -/
theorem battery_snapshot_iff (hasBattery hasBattery' : Int32) (ops : List Op) :
    (∀ offset,
      (((BatteryState.fresh hasBattery').load
          (ops.foldl BatteryState.step (BatteryState.fresh hasBattery)).save).read offset).1 =
        ((ops.foldl BatteryState.step (BatteryState.fresh hasBattery)).read offset).1) ↔
      (hasBattery' = 0 ↔ hasBattery = 0) ∧
        (hasBattery ≠ 0 → ∀ property ∈ unsavedProps, ∀ value, lastSet property ops = some value →
          value.toUInt32 = (BatteryState.fresh hasBattery).unsaved property) := by
  have hrun := run_configured hasBattery ops
  have hfixed : (BatteryState.fresh hasBattery').fixed = (BatteryState.fresh hasBattery).fixed ↔
      (hasBattery' = 0 ↔ hasBattery = 0) := by
    by_cases hb : hasBattery = 0 <;> by_cases hb' : hasBattery' = 0 <;>
      simp [BatteryState.fresh, BatteryState.realize, BatteryState.fixed, hb, hb']
  have hdefault : ∀ property, (BatteryState.fresh hasBattery').unsaved property =
      (BatteryState.fresh hasBattery).unsaved property := by
    intro property
    by_cases hb : hasBattery = 0 <;> by_cases hb' : hasBattery' = 0 <;> cases property <;>
      simp [BatteryState.fresh, BatteryState.realize, BatteryState.unsaved, hb, hb']
  rw [load_reads_iff, hrun.fixed, hfixed]
  refine and_congr_right fun _ => ?_
  constructor
  · intro h hbattery property hproperty value hvalue
    have heq := h property hproperty
    rw [hrun.unsaved property hproperty, expected, if_neg hbattery, hvalue, hdefault] at heq
    exact heq.symm
  · intro h property hproperty
    rw [hrun.unsaved property hproperty, expected, hdefault]
    split
    · rfl
    · next hbattery =>
      cases hvalue : lastSet property ops with
      | none => rfl
      | some value => exact (h hbattery property hproperty value hvalue).symm

/-- The host sets the current, and the snapshot forgets it. -/
theorem current_is_forgotten : ¬ ∀ (hasBattery : Int32) (ops : List Op) (offset : UInt64),
    (((BatteryState.fresh hasBattery).load
        (ops.foldl BatteryState.step (BatteryState.fresh hasBattery)).save).read offset).1 =
      ((ops.foldl BatteryState.step (BatteryState.fresh hasBattery)).read offset).1 := by
  intro h
  exact absurd (h 1 [.setProp 0 .CURRENT_NOW 100000] 0x30) (by decide)

end Goldfish.Battery
