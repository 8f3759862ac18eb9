import Goldfish.Lib.Trace
import Mathlib.Tactic.Common

/-!
# Goldfish.Battery.Device

The battery device (`goldfish_battery.c`): the properties the host sets, the register
page of the guest and the interrupt line.

The two static variables of the file (`sBatteryIsRealized`, `sDeviceHasBattery`) are
part of the state, so a run can start before the device is realized, with the one
property that can be set by then. `irq` is the level of the line after the last call
of `qemu_set_irq` or `qemu_irq_lower`.
-/

namespace Goldfish.Battery

/-! ### Registers and properties -/

/-- Offset of the status register. -/
def BATTERY_INT_STATUS : UInt64 := 0x00

/-- Offset of the register that enables the interrupts. -/
def BATTERY_INT_ENABLE : UInt64 := 0x04

/-- The bit of `int_status` for the battery. -/
def BATTERY_STATUS_CHANGED : UInt32 := 1

/-- The bit of `int_status` for the mains. -/
def AC_STATUS_CHANGED : UInt32 := 2

/-- The properties of a power supply (`goldfish_battery.h`). -/
inductive PowerSupplyProp where
  | STATUS
  | HAS_BATTERY
  | HEALTH
  | PRESENT
  | ONLINE
  | TECHNOLOGY
  | CYCLE_COUNT
  | VOLTAGE_MAX
  | VOLTAGE_MIN
  | VOLTAGE_MAX_DESIGN
  | VOLTAGE_MIN_DESIGN
  | VOLTAGE_NOW
  | VOLTAGE_AVG
  | CURRENT_MAX
  | CURRENT_NOW
  | CURRENT_AVG
  | CHARGE_FULL_DESIGN
  | CHARGE_EMPTY_DESIGN
  | CHARGE_FULL
  | CHARGE_EMPTY
  | CHARGE_NOW
  | CHARGE_AVG
  | CHARGE_COUNTER
  | ENERGY_FULL_DESIGN
  | ENERGY_EMPTY_DESIGN
  | ENERGY_FULL
  | ENERGY_EMPTY
  | ENERGY_NOW
  | ENERGY_AVG
  | CAPACITY
  | CAPACITY_LEVEL
  | TEMP
  | TEMP_AMBIENT
  | TIME_TO_EMPTY_NOW
  | TIME_TO_EMPTY_AVG
  | TIME_TO_FULL_NOW
  | TIME_TO_FULL_AVG
  | MODEL_NAME
  | MANUFACTURER
  deriving DecidableEq, Repr

/-- The status of a device that has no battery. -/
def POWER_SUPPLY_STATUS_UNKNOWN : UInt32 := 0

/-- The status of a battery at first. -/
def POWER_SUPPLY_STATUS_CHARGING : UInt32 := 1

/-- The health of a device that has no battery. -/
def POWER_SUPPLY_HEALTH_UNKNOWN : UInt32 := 0

/-- The health of a battery at first. -/
def POWER_SUPPLY_HEALTH_GOOD : UInt32 := 1

/-! ### The state -/

/-- The battery and the static variables of its file. -/
structure BatteryState where
  sBatteryIsRealized : Bool
  sDeviceHasBattery : Int32
  /-- The level of the interrupt line. -/
  irq : Bool
  int_status : UInt32
  /-- The enable mask for `int_status`. -/
  int_enable : UInt32
  ac_online : UInt32
  status : UInt32
  health : UInt32
  present : UInt32
  capacity : UInt32
  hw_has_battery : UInt32
  voltage : UInt32
  temp : UInt32
  charge_counter : UInt32
  voltage_max : UInt32
  current_max : UInt32
  current_now : UInt32
  current_avg : UInt32
  charge_full_uah : UInt32
  cycle_count : UInt32
  deriving DecidableEq, Repr

/-- Before the device is realized: all memory is zero and the line is low. -/
def BatteryState.reset : BatteryState where
  sBatteryIsRealized := false
  sDeviceHasBattery := 0
  irq := false
  int_status := 0
  int_enable := 0
  ac_online := 0
  status := 0
  health := 0
  present := 0
  capacity := 0
  hw_has_battery := 0
  voltage := 0
  temp := 0
  charge_counter := 0
  voltage_max := 0
  current_max := 0
  current_now := 0
  current_avg := 0
  charge_full_uah := 0
  cycle_count := 0

/-- `qemu_set_irq`: any level but `0` raises the line. -/
def BatteryState.qemu_set_irq (s : BatteryState) (level : UInt32) : BatteryState :=
  { s with irq := decide (level ≠ 0) }

/-- `goldfish_battery_realize`. -/
def BatteryState.realize (s : BatteryState) : BatteryState :=
  let s := { s with
    ac_online := 1
    voltage := 5000000
    temp := 250
    voltage_max := 5000000
    current_max := 5000000
    current_now := 900000
    current_avg := 900000
    charge_full_uah := 3000000
    cycle_count := 10 }
  let s :=
    if s.sDeviceHasBattery ≠ 0 then
      { s with
        hw_has_battery := 1
        status := POWER_SUPPLY_STATUS_CHARGING
        health := POWER_SUPPLY_HEALTH_GOOD
        present := 1
        capacity := 100
        charge_counter := 10000 }
    else
      { s with
        hw_has_battery := 0
        status := POWER_SUPPLY_STATUS_UNKNOWN
        health := POWER_SUPPLY_HEALTH_UNKNOWN
        present := 0
        capacity := 0
        charge_counter := 0 }
  { s with sBatteryIsRealized := true }

/-! ### The host's side -/

/-- The bit that a change raises. -/
def newStatus (ac : Int32) : UInt32 := if ac ≠ 0 then AC_STATUS_CHANGED else BATTERY_STATUS_CHANGED

/-- The two switches of `goldfish_battery_set_prop`: which field takes the value. -/
def BatteryState.store (s : BatteryState) (ac : Int32) (property : PowerSupplyProp) (value : Int32) :
    BatteryState :=
  if ac ≠ 0 then
    match property with
    | .ONLINE => { s with ac_online := value.toUInt32 }
    | _ => s
  else
    match property with
    | .STATUS => { s with status := value.toUInt32 }
    | .HEALTH => { s with health := value.toUInt32 }
    | .PRESENT => { s with present := value.toUInt32 }
    | .CAPACITY => { s with capacity := value.toUInt32 }
    | .CURRENT_NOW => { s with current_now := value.toUInt32 }
    | .CURRENT_AVG => { s with current_avg := value.toUInt32 }
    | .CHARGE_FULL => { s with charge_full_uah := value.toUInt32 }
    | .CYCLE_COUNT => { s with cycle_count := value.toUInt32 }
    | _ => s

/-- `goldfish_battery_set_prop`. -/
def BatteryState.set_prop (s : BatteryState) (ac : Int32) (property : PowerSupplyProp) (value : Int32) :
    BatteryState :=
  if s.sBatteryIsRealized = false then
    if property = .HAS_BATTERY then { s with sDeviceHasBattery := value } else s
  else if s.hw_has_battery = 0 then s
  else
    let s := s.store ac property value
    -- a change of the kind that alone is pending is not signalled again
    if newStatus ac ≠ s.int_status then
      let s := { s with int_status := s.int_status ||| newStatus ac }
      s.qemu_set_irq (s.int_status &&& s.int_enable)
    else s

/-! ### The guest's side -/

/-- `goldfish_battery_read`: the value and the state after it. -/
def BatteryState.read (s : BatteryState) (offset : UInt64) : UInt64 × BatteryState :=
  match offset.toNat with
  | 0x00 =>
    let ret := s.int_status &&& s.int_enable
    if ret ≠ 0 then
      -- `qemu_irq_lower`, and every bit is cleared, whether it was returned or not
      (ret.toUInt64, { s with irq := false, int_status := 0 })
    else (ret.toUInt64, s)
  | 0x04 => (s.int_enable.toUInt64, s)
  | 0x08 => (s.ac_online.toUInt64, s)
  | 0x0C => (s.status.toUInt64, s)
  | 0x10 => (s.health.toUInt64, s)
  | 0x14 => (s.present.toUInt64, s)
  | 0x18 => (s.capacity.toUInt64, s)
  | 0x1C => (s.voltage.toUInt64, s)
  | 0x20 => (s.temp.toUInt64, s)
  | 0x24 => (s.charge_counter.toUInt64, s)
  | 0x28 => (s.voltage_max.toUInt64, s)
  | 0x2C => (s.current_max.toUInt64, s)
  | 0x30 => (s.current_now.toUInt64, s)
  | 0x34 => (s.current_avg.toUInt64, s)
  | 0x38 => (s.charge_full_uah.toUInt64, s)
  | 0x40 => (s.cycle_count.toUInt64, s)
  | _ => (0, s)

/-- `goldfish_battery_write`. -/
def BatteryState.write (s : BatteryState) (offset val : UInt64) : BatteryState :=
  if offset = BATTERY_INT_ENABLE then
    let s := { s with int_enable := val.toUInt32 }
    let now_active := s.int_enable &&& s.int_status
    -- the line is only ever raised here
    if now_active ≠ 0 then s.qemu_set_irq now_active else s
  else s

/-! ### Runs -/

/-- What can happen to the device, in any order. -/
inductive Op where
  | realize
  | setProp (ac : Int32) (property : PowerSupplyProp) (value : Int32)
  | read (offset : UInt64)
  | write (offset val : UInt64)
  deriving DecidableEq, Repr

/-- One operation on the device. -/
def BatteryState.step (s : BatteryState) : Op → BatteryState
  | .realize => s.realize
  | .setProp ac property value => s.set_prop ac property value
  | .read offset => (s.read offset).2
  | .write offset val => s.write offset val

/-- A run from reset. -/
def run (ops : List Op) : BatteryState := ops.foldl BatteryState.step BatteryState.reset

@[simp] theorem run_concat (ops : List Op) (op : Op) : run (ops ++ [op]) = (run ops).step op := by
  rw [run, List.foldl_append]
  rfl

end Goldfish.Battery
