import Goldfish.Lib.Trace

/-!
# Goldfish.Devices.Sensors

The sensor device (`SensorDevice.cpp`): the commands of the sensors HAL and the timer.

What the device sends is a `Reply`, one constructor for each format. The values of the
sensors are left out, they come from the physical model and decide nothing here. The two
uses of `absl::SimpleAtoi` are parameters; where it fails, `leftover` is what it has put
into the variable it was given. `mSensors` says which sensors the AVD has, and `mTimer`
the delay of the timer while it is armed.
-/

namespace Goldfish.Devices.Sensors

/-- What is sent over the connection. -/
abbrev Bytes := List UInt8

/-- The bytes of a text. -/
def text (s : String) : Bytes := s.toList.map Char.toUInt8

/-! ### Sensors -/

/-- `SENSORS_LIST` (`Sensors.h`). -/
inductive AndroidSensor where
  | ACCELERATION
  | GYROSCOPE
  | MAGNETIC_FIELD
  | ORIENTATION
  | TEMPERATURE
  | PROXIMITY
  | LIGHT
  | PRESSURE
  | HUMIDITY
  | MAGNETIC_FIELD_UNCALIBRATED
  | GYROSCOPE_UNCALIBRATED
  | HINGE_ANGLE0
  | HINGE_ANGLE1
  | HINGE_ANGLE2
  | HEART_RATE
  | RGBC_LIGHT
  | WRIST_TILT
  | ACCELERATION_UNCALIBRATED
deriving DecidableEq, Repr

namespace AndroidSensor

/-- The sensors in the order of their numbers. -/
def all : List AndroidSensor :=
  [ACCELERATION, GYROSCOPE, MAGNETIC_FIELD, ORIENTATION, TEMPERATURE, PROXIMITY, LIGHT, PRESSURE, HUMIDITY,
    MAGNETIC_FIELD_UNCALIBRATED, GYROSCOPE_UNCALIBRATED, HINGE_ANGLE0, HINGE_ANGLE1, HINGE_ANGLE2,
    HEART_RATE, RGBC_LIGHT, WRIST_TILT, ACCELERATION_UNCALIBRATED]

/-- `kSensors` -/
def name : AndroidSensor → Bytes
  | ACCELERATION => text "acceleration"
  | GYROSCOPE => text "gyroscope"
  | MAGNETIC_FIELD => text "magnetic-field"
  | ORIENTATION => text "orientation"
  | TEMPERATURE => text "temperature"
  | PROXIMITY => text "proximity"
  | LIGHT => text "light"
  | PRESSURE => text "pressure"
  | HUMIDITY => text "humidity"
  | MAGNETIC_FIELD_UNCALIBRATED => text "magnetic-field-uncalibrated"
  | GYROSCOPE_UNCALIBRATED => text "gyroscope-uncalibrated"
  | HINGE_ANGLE0 => text "hinge-angle0"
  | HINGE_ANGLE1 => text "hinge-angle1"
  | HINGE_ANGLE2 => text "hinge-angle2"
  | HEART_RATE => text "heart-rate"
  | RGBC_LIGHT => text "rgbc-light"
  | WRIST_TILT => text "wrist-tilt"
  | ACCELERATION_UNCALIBRATED => text "acceleration-uncalibrated"

/-- `1 << id` -/
def bit (sensor : AndroidSensor) : UInt32 := 1 <<< UInt32.ofNat sensor.ctorIdx

end AndroidSensor

open AndroidSensor (all bit)

/-- `sensorIdFromName`. -/
def sensorIdFromName (name : Bytes) : Option AndroidSensor := all.find? fun sensor => sensor.name = name

/-- The loop at the end of the constructor. -/
def bitmap (mSensors : AndroidSensor → Bool) : UInt32 :=
  all.foldl (fun mask sensor => if mSensors sensor then mask ||| bit sensor else mask) 0

/-! ### The device -/

/-- What the device sends. -/
inductive Reply where
  | listSensors (mask : UInt32)
  | wake
  | report (sensor : AndroidSensor)
  | guestSync (ns : Int64)
  | sync (us : Int64)
deriving DecidableEq

/-- A `SensorDevice`. The timer holds the delay it was set to. -/
structure SensorDevice where
  mSensors : AndroidSensor → Bool
  mEnabledMask : UInt32
  mDelayMs : Int32
  mTimeOffsetNs : Int64
  mTimer : Option Int32

/-- What happens to the device: a message, or its timer. -/
inductive Event where
  | receive (msg : Bytes) (now_ns : Int64) (leftover : Int32)
  | timer (now_ns : Int64)
deriving DecidableEq

/-- The event cannot happen. -/
inductive Blocked where
  | blocked
deriving DecidableEq

/-- The constructor does not set `mTimeOffsetNs`. -/
def SensorDevice.new (mSensors : AndroidSensor → Bool) (mTimeOffsetNs : Int64) : SensorDevice where
  mSensors := mSensors
  mEnabledMask := bitmap mSensors
  mDelayMs := 800
  mTimeOffsetNs := mTimeOffsetNs
  mTimer := none

namespace SensorDevice

/-- The bit of a sensor is set in the mask. -/
def enabled (mEnabledMask : UInt32) (sensor : AndroidSensor) : Bool := mEnabledMask &&& bit sensor ≠ 0

/-- The delay the timer is armed with. -/
def clampDelay (mDelayMs : Int32) : Int32 :=
  if mDelayMs < 10 then 10 else if mDelayMs > 60 * 60 * 1000 then 60 * 60 * 1000 else mDelayMs

/-- `tick`: the sensors that are on are reported, and the timer is set again. -/
def tick (device : SensorDevice) (now_ns : Int64) : SensorDevice × List Reply :=
  let reports := (all.filter (enabled device.mEnabledMask)).map Reply.report
  let replies := reports ++ [.guestSync (now_ns + device.mTimeOffsetNs), .sync (now_ns / 1000)]
  if device.mEnabledMask = 0 then (device, replies)
  else
    let delay := clampDelay device.mDelayMs
    ({ device with mDelayMs := delay, mTimer := some delay }, replies)

end SensorDevice

/-- `absl::ConsumePrefix`, with what is left. -/
def ConsumePrefix (msg expected : Bytes) : Option Bytes :=
  if expected.isPrefixOf msg then some (msg.drop expected.length) else none

section Receive

variable (SimpleAtoi32 : Bytes → Option Int32) (SimpleAtoi64 : Bytes → Option Int64)

namespace SensorDevice

/-- The command `set-delay`. A number that cannot be read leaves `leftover` in the delay. -/
def setDelay (device : SensorDevice) (msg : Bytes) (now_ns : Int64) (leftover : Int32) :
    SensorDevice × List Reply :=
  match SimpleAtoi32 msg with
  | some delay =>
    let device := { device with mDelayMs := delay }
    if device.mEnabledMask ≠ 0 then device.tick now_ns else (device, [])
  | none => ({ device with mDelayMs := leftover }, [])

/-- The command `set`, for one sensor. -/
def set (device : SensorDevice) (msg : Bytes) (now_ns : Int64) : SensorDevice × List Reply :=
  match msg.splitOn ':'.toUInt8 with
  | [name, flag] =>
    match sensorIdFromName name with
    | none => (device, [])
    | some sensor =>
      if !device.mSensors sensor then (device, [])
      else if flag = text "1" then
        { device with mEnabledMask := device.mEnabledMask ||| bit sensor }.tick now_ns
      else { device with mEnabledMask := device.mEnabledMask &&& ~~~ bit sensor }.tick now_ns
  | _ => (device, [])

/-- The command `time`. -/
def time (device : SensorDevice) (msg : Bytes) (now_ns : Int64) : SensorDevice :=
  match SimpleAtoi64 msg with
  | some guest_time_ns => { device with mTimeOffsetNs := guest_time_ns - now_ns }
  | none => device

/-- `onReceive`. The commands are told apart by their prefixes. -/
def onReceive (device : SensorDevice) (msg : Bytes) (now_ns : Int64) (leftover : Int32) :
    SensorDevice × List Reply :=
  if msg = text "list-sensors" then (device, [.listSensors device.mEnabledMask])
  else if msg = text "wake" then (device, [.wake])
  else
    match ConsumePrefix msg (text "set-delay:") with
    | some arg => device.setDelay SimpleAtoi32 arg now_ns leftover
    | none =>
      match ConsumePrefix msg (text "set:") with
      | some arg => device.set arg now_ns
      | none =>
        match ConsumePrefix msg (text "time:") with
        | some arg => (device.time SimpleAtoi64 arg now_ns, [])
        | none => (device, [])

/-- The timer is a one-shot timer: it is not armed any more when it ticks. -/
def step (device : SensorDevice) : Event → Except Blocked (SensorDevice × List Reply)
  | .receive msg now_ns leftover => .ok (device.onReceive SimpleAtoi32 SimpleAtoi64 msg now_ns leftover)
  | .timer now_ns =>
    if device.mTimer.isSome then .ok ({ device with mTimer := none }.tick now_ns) else .error .blocked

end SensorDevice

end Receive

/-! ### Masks -/

open SensorDevice (enabled)

theorem AndroidSensor.mem_all (sensor : AndroidSensor) : sensor ∈ all := by
  cases sensor <;> decide

theorem AndroidSensor.toBitVec_bit (sensor : AndroidSensor) :
    (bit sensor).toBitVec = BitVec.twoPow 32 sensor.ctorIdx := by
  cases sensor <;> rfl

theorem AndroidSensor.ctorIdx_lt (sensor : AndroidSensor) : sensor.ctorIdx < 32 := by
  cases sensor <;> decide

theorem AndroidSensor.ctorIdx_inj {sensor other : AndroidSensor} (h : sensor.ctorIdx = other.ctorIdx) :
    sensor = other := by
  have hall : ∀ s : AndroidSensor, all[s.ctorIdx]? = some s := fun s => by cases s <;> rfl
  exact Option.some.inj ((hall sensor).symm.trans (h ▸ hall other))

/-- The bits of a mask. -/
theorem enabled_eq_getLsbD (mask : UInt32) (sensor : AndroidSensor) :
    enabled mask sensor = mask.toBitVec.getLsbD sensor.ctorIdx := by
  have hbits : mask &&& bit sensor = 0 ↔ mask.toBitVec.getLsbD sensor.ctorIdx = false := by
    rw [← UInt32.toBitVec_inj, UInt32.toBitVec_and, AndroidSensor.toBitVec_bit, BitVec.and_twoPow]
    split
    · next hset =>
      have hne : BitVec.twoPow 32 sensor.ctorIdx ≠ 0 := by cases sensor <;> decide
      simpa [hset] using hne
    · next hclear => simpa using hclear
  cases hbit : mask.toBitVec.getLsbD sensor.ctorIdx
  · simpa [enabled] using hbits.mpr hbit
  · simpa [enabled, hbit] using hbits.not

/-- The bits of the masks the loop of the constructor goes through. -/
theorem getLsbD_foldl (f : AndroidSensor → Bool) (sensors : List AndroidSensor) (mask : UInt32) (i : Nat) :
    (sensors.foldl (fun mask sensor => if f sensor then mask ||| bit sensor else mask) mask).toBitVec.getLsbD i
      = (mask.toBitVec.getLsbD i || sensors.any fun sensor => f sensor && sensor.ctorIdx = i) := by
  induction sensors generalizing mask with
  | nil => simp
  | cons sensor sensors ih =>
    rw [List.foldl_cons, ih, List.any_cons]
    cases hf : f sensor with
    | false => simp
    | true =>
      simp [AndroidSensor.toBitVec_bit, BitVec.getLsbD_twoPow, sensor.ctorIdx_lt, Bool.or_assoc]

theorem getLsbD_bitmap (f : AndroidSensor → Bool) (i : Nat) :
    (bitmap f).toBitVec.getLsbD i = all.any fun sensor => f sensor && sensor.ctorIdx = i := by
  rw [bitmap, getLsbD_foldl]
  simp

theorem enabled_bitmap (f : AndroidSensor → Bool) : enabled (bitmap f) = f := by
  funext sensor
  rw [enabled_eq_getLsbD, getLsbD_bitmap, Bool.eq_iff_iff, List.any_eq_true]
  constructor
  · rintro ⟨other, -, hother⟩
    obtain ⟨hf, hidx⟩ := by simpa using hother
    exact AndroidSensor.ctorIdx_inj hidx ▸ hf
  · intro hf
    exact ⟨sensor, sensor.mem_all, by simp [hf]⟩

@[simp] theorem bitmap_inj {f g : AndroidSensor → Bool} : bitmap f = bitmap g ↔ f = g :=
  ⟨fun h => by rw [← enabled_bitmap f, h, enabled_bitmap], fun h => h ▸ rfl⟩

@[simp] theorem bitmap_false : bitmap (fun _ => false) = 0 := by decide

/-- Setting a bit. -/
theorem bitmap_or_bit (f : AndroidSensor → Bool) (sensor : AndroidSensor) :
    bitmap f ||| bit sensor = bitmap fun other => other = sensor || f other := by
  rw [← UInt32.toBitVec_inj]
  refine BitVec.eq_of_getLsbD_eq fun i hi => ?_
  rw [UInt32.toBitVec_or, BitVec.getLsbD_or, getLsbD_bitmap, getLsbD_bitmap, AndroidSensor.toBitVec_bit,
    BitVec.getLsbD_twoPow, Bool.eq_iff_iff]
  simp only [Bool.or_eq_true, List.any_eq_true, Bool.and_eq_true, decide_eq_true_eq]
  constructor
  · rintro (⟨other, hmem, hf, hidx⟩ | ⟨-, hidx⟩)
    · exact ⟨other, hmem, .inr hf, hidx⟩
    · exact ⟨sensor, sensor.mem_all, .inl rfl, hidx⟩
  · rintro ⟨other, hmem, rfl | hf, hidx⟩
    · exact .inr ⟨other.ctorIdx_lt, hidx⟩
    · exact .inl ⟨other, hmem, hf, hidx⟩

/-- Clearing a bit. -/
theorem bitmap_and_not_bit (f : AndroidSensor → Bool) (sensor : AndroidSensor) :
    bitmap f &&& ~~~ bit sensor = bitmap fun other => other ≠ sensor && f other := by
  rw [← UInt32.toBitVec_inj]
  refine BitVec.eq_of_getLsbD_eq fun i hi => ?_
  rw [UInt32.toBitVec_and, UInt32.toBitVec_not, BitVec.getLsbD_and, BitVec.getLsbD_not, getLsbD_bitmap,
    getLsbD_bitmap, AndroidSensor.toBitVec_bit, BitVec.getLsbD_twoPow, Bool.eq_iff_iff]
  simp only [Bool.and_eq_true, List.any_eq_true, decide_eq_true_eq, Bool.not_eq_true', hi, sensor.ctorIdx_lt,
    decide_true, Bool.true_and, decide_eq_false_iff_not]
  constructor
  · rintro ⟨⟨other, hmem, hf, hidx⟩, hne⟩
    refine ⟨other, hmem, ⟨?_, hf⟩, hidx⟩
    rintro rfl
    exact hne hidx
  · rintro ⟨other, hmem, ⟨hne, hf⟩, hidx⟩
    refine ⟨⟨other, hmem, hf, hidx⟩, fun hidx' => ?_⟩
    exact hne (AndroidSensor.ctorIdx_inj (hidx.trans hidx'.symm))

end Goldfish.Devices.Sensors
