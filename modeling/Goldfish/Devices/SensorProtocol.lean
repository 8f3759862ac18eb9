import Goldfish.Devices.Sensors

/-!
# Goldfish.Devices.SensorProtocol

**When the sensor device keeps to its protocol.** The protocol in front of `onReceive`
has a set of available sensors, which does not change, and a set of enabled sensors,
which is empty at first. The device has one mask for both: it starts with every
available sensor, and `set` changes what `list-sensors` answers.

`World` is the device beside what the HAL has asked for (`asked`). The mask is then the
available sensors without those last disabled (`Inv`), and a run keeps to the protocol
exactly if each step is `Regular` (`protocol_iff_regular`).
-/

namespace Goldfish.Devices.Sensors

open Goldfish.Lib
open AndroidSensor (all bit)
open SensorDevice (enabled clampDelay)

/-! ### Commands -/

/-- The commands of the guest. -/
inductive Command where
  | listSensors
  | wake
  | setDelay (arg : Bytes)
  | set (sensor : AndroidSensor) (flag : Bytes)
  | time (arg : Bytes)
deriving DecidableEq

namespace Command

/-- How a command is written. -/
def text : Command → Bytes
  | listSensors => Sensors.text "list-sensors"
  | wake => Sensors.text "wake"
  | setDelay arg => Sensors.text "set-delay:" ++ arg
  | set sensor flag => Sensors.text "set:" ++ sensor.name ++ ':'.toUInt8 :: flag
  | time arg => Sensors.text "time:" ++ arg

/-- A flag is the rest of the command, up to its end. -/
def Plain : Command → Prop
  | set _ flag => ':'.toUInt8 ∉ flag
  | _ => True

/-- The command that a message is. -/
def read (msg : Bytes) : Option Command :=
  if msg = Sensors.text "list-sensors" then some listSensors
  else if msg = Sensors.text "wake" then some wake
  else
    match ConsumePrefix msg (Sensors.text "set-delay:") with
    | some arg => some (setDelay arg)
    | none =>
      match ConsumePrefix msg (Sensors.text "set:") with
      | some arg =>
        match arg.splitOn ':'.toUInt8 with
        | [name, flag] => (sensorIdFromName name).map (set · flag)
        | _ => none
      | none => (ConsumePrefix msg (Sensors.text "time:")).map time

end Command

theorem consumePrefix_eq_some {msg expected rest : Bytes} :
    ConsumePrefix msg expected = some rest ↔ msg = expected ++ rest := by
  unfold ConsumePrefix
  split
  · next h =>
    obtain ⟨tail, rfl⟩ := List.isPrefixOf_iff_prefix.mp h
    simp
  · next h =>
    refine ⟨fun hsome => (nomatch hsome), ?_⟩
    intro heq
    subst heq
    exact absurd (List.isPrefixOf_iff_prefix.mpr ⟨rest, rfl⟩) h

theorem sensorIdFromName_eq_some {name : Bytes} {sensor : AndroidSensor} :
    sensorIdFromName name = some sensor ↔ sensor.name = name := by
  constructor
  · intro h
    simpa using List.find?_some h
  · intro heq
    subst heq
    cases sensor <;> decide

theorem colon_not_mem_name (sensor : AndroidSensor) : ':'.toUInt8 ∉ sensor.name := by
  cases sensor <;> decide

theorem not_mem_of_mem_splitOn {sep : UInt8} {msg part : Bytes} (h : part ∈ msg.splitOn sep) : sep ∉ part := by
  induction msg generalizing part with
  | nil =>
    obtain rfl : part = [] := by simpa using h
    exact List.not_mem_nil
  | cons b msg ih =>
    rw [List.splitOn_cons_eq_if_modifyHead] at h
    split at h
    · rcases List.mem_cons.mp h with rfl | h
      · exact List.not_mem_nil
      · exact ih h
    · next hne =>
      obtain ⟨first, parts, hparts⟩ := List.exists_cons_of_ne_nil (List.splitOn_ne_nil sep msg)
      rw [hparts, List.modifyHead_cons, List.mem_cons] at h
      rcases h with rfl | h
      · have hfirst : sep ∉ first := ih (by simp [hparts])
        have hb : sep ≠ b := fun heq => hne (by simp [heq])
        simp [hfirst, hb]
      · exact ih (by simp [hparts, h])

theorem splitOn_eq_pair {msg name flag : Bytes} {sep : UInt8} :
    msg.splitOn sep = [name, flag] ↔ msg = name ++ sep :: flag ∧ sep ∉ name ∧ sep ∉ flag := by
  constructor
  · intro h
    have hmsg : [sep].intercalate (msg.splitOn sep) = msg := List.intercalate_splitOn sep
    have hparts : ∀ part ∈ [name, flag], sep ∉ part := h ▸ fun part hpart => not_mem_of_mem_splitOn hpart
    rw [h] at hmsg
    exact ⟨by simpa using hmsg.symm, hparts name (by simp), hparts flag (by simp)⟩
  · intro hgiven
    obtain ⟨rfl, hname, hflag⟩ := hgiven
    have hjoin : ([sep].intercalate [name, flag]).splitOn sep = [name, flag] :=
      List.splitOn_intercalate sep (by simp [hname, hflag]) (by simp)
    simpa using hjoin

/-- Texts that differ before either ends. -/
theorem consumePrefix_append {found expected : Bytes} (hfound : found.isPrefixOf expected = false)
    (hexpected : expected.isPrefixOf found = false) (rest : Bytes) :
    ConsumePrefix (found ++ rest) expected = none := by
  rw [Option.eq_none_iff_forall_not_mem]
  intro arg harg
  have hprefix : expected <+: found ++ rest := ⟨arg, (consumePrefix_eq_some.mp harg).symm⟩
  rcases List.prefix_or_prefix_of_prefix hprefix (List.prefix_append found rest) with h | h
  · rw [List.isPrefixOf_iff_prefix.mpr h] at hexpected
    cases hexpected
  · rw [List.isPrefixOf_iff_prefix.mpr h] at hfound
    cases hfound

theorem append_ne {found whole : Bytes} (h : found.isPrefixOf whole = false) (rest : Bytes) :
    found ++ rest ≠ whole := by
  intro heq
  subst heq
  rw [List.isPrefixOf_iff_prefix.mpr (List.prefix_append found rest)] at h
  cases h

theorem Command.read_eq_some {msg : Bytes} {command : Command} :
    Command.read msg = some command ↔ msg = command.text ∧ command.Plain := by
  constructor
  · intro h
    unfold Command.read at h
    split at h
    · next hmsg => exact Option.some.inj h ▸ ⟨hmsg, trivial⟩
    split at h
    · next hmsg => exact Option.some.inj h ▸ ⟨hmsg, trivial⟩
    split at h
    · next arg harg => exact Option.some.inj h ▸ ⟨consumePrefix_eq_some.mp harg, trivial⟩
    split at h
    · next arg harg =>
      split at h
      · next name flag hparts =>
        obtain ⟨sensor, hsensor, rfl⟩ := Option.map_eq_some_iff.mp h
        obtain ⟨rfl, -, hflag⟩ := splitOn_eq_pair.mp hparts
        obtain rfl := sensorIdFromName_eq_some.mp hsensor
        exact ⟨by rw [consumePrefix_eq_some.mp harg, Command.text, List.append_assoc], hflag⟩
      · cases h
    · obtain ⟨arg, harg, rfl⟩ := Option.map_eq_some_iff.mp h
      exact ⟨consumePrefix_eq_some.mp harg, trivial⟩
  · intro hgiven
    obtain ⟨rfl, hplain⟩ := hgiven
    cases command with
    | listSensors => decide
    | wake => decide
    | setDelay arg =>
      rw [Command.read, Command.text, if_neg (append_ne (by decide) _), if_neg (append_ne (by decide) _),
        consumePrefix_eq_some.mpr rfl]
    | set sensor flag =>
      have hparts : (sensor.name ++ ':'.toUInt8 :: flag).splitOn ':'.toUInt8 = [sensor.name, flag] :=
        splitOn_eq_pair.mpr ⟨rfl, colon_not_mem_name sensor, hplain⟩
      rw [Command.read, Command.text, List.append_assoc, if_neg (append_ne (by decide) _),
        if_neg (append_ne (by decide) _), consumePrefix_append (by decide) (by decide),
        consumePrefix_eq_some.mpr rfl]
      simp only [hparts, sensorIdFromName_eq_some.mpr rfl, Option.map_some]
    | time arg =>
      rw [Command.read, Command.text, if_neg (append_ne (by decide) _), if_neg (append_ne (by decide) _),
        consumePrefix_append (by decide) (by decide), consumePrefix_append (by decide) (by decide),
        consumePrefix_eq_some.mpr rfl]
      rfl

theorem Command.eq_text_iff {msg : Bytes} {command : Command} (hplain : command.Plain) :
    msg = command.text ↔ Command.read msg = some command := by
  rw [read_eq_some]
  exact ⟨fun h => ⟨h, hplain⟩, And.left⟩

/-! ### What a command does -/

section Perform

variable (SimpleAtoi32 : Bytes → Option Int32) (SimpleAtoi64 : Bytes → Option Int64)

/-- The mask after `set`. -/
def setMask (mEnabledMask : UInt32) (sensor : AndroidSensor) (flag : Bytes) : UInt32 :=
  if flag = text "1" then mEnabledMask ||| bit sensor else mEnabledMask &&& ~~~ bit sensor

/-- What a command makes the device do. -/
def SensorDevice.perform (device : SensorDevice) (now_ns : Int64) (leftover : Int32) :
    Command → SensorDevice × List Reply
  | .listSensors => (device, [.listSensors device.mEnabledMask])
  | .wake => (device, [.wake])
  | .setDelay arg => device.setDelay SimpleAtoi32 arg now_ns leftover
  | .set sensor flag =>
    if device.mSensors sensor then
      { device with mEnabledMask := setMask device.mEnabledMask sensor flag }.tick now_ns
    else (device, [])
  | .time arg => (device.time SimpleAtoi64 arg now_ns, [])

theorem onReceive_eq (device : SensorDevice) (msg : Bytes) (now_ns : Int64) (leftover : Int32) :
    device.onReceive SimpleAtoi32 SimpleAtoi64 msg now_ns leftover =
      match Command.read msg with
      | some command => device.perform SimpleAtoi32 SimpleAtoi64 now_ns leftover command
      | none => (device, []) := by
  unfold SensorDevice.onReceive Command.read
  split
  · rfl
  split
  · rfl
  cases ConsumePrefix msg (text "set-delay:") with
  | some arg => rfl
  | none =>
    cases ConsumePrefix msg (text "set:") with
    | some arg =>
      dsimp only [SensorDevice.set]
      rcases arg.splitOn ':'.toUInt8 with _ | ⟨name, _ | ⟨flag, _ | ⟨_, _⟩⟩⟩
      · rfl
      · rfl
      · cases hname : sensorIdFromName name with
        | none => simp only [hname, Option.map_none]
        | some sensor =>
          cases hsensor : device.mSensors sensor with
          | false => simp [SensorDevice.perform, hname, hsensor]
          | true =>
            simp only [SensorDevice.perform, hname, hsensor, Bool.not_true, Bool.false_eq_true, if_false,
              Option.map_some, if_true, setMask]
            split <;> rfl
      · rfl
    | none => cases ConsumePrefix msg (text "time:") <;> rfl

end Perform

/-! ### One tick -/

/-- The sensors whose values were sent. -/
def reported (replies : List Reply) : List AndroidSensor :=
  replies.filterMap fun
    | .report sensor => some sensor
    | _ => none

/-- 10 ms to an hour. -/
def InRange (delay : Int32) : Prop := 10 ≤ delay ∧ delay ≤ 60 * 60 * 1000

instance : DecidablePred InRange := fun delay => inferInstanceAs (Decidable (10 ≤ delay ∧ delay ≤ 60 * 60 * 1000))

theorem clampDelay_inRange (mDelayMs : Int32) : InRange (clampDelay mDelayMs) := by
  unfold clampDelay
  split
  · exact ⟨by decide, by decide⟩
  · next hlow =>
    split
    · exact ⟨by decide, by decide⟩
    · next hhigh => exact ⟨Int32.not_lt.mp hlow, Int32.not_lt.mp hhigh⟩

theorem clampDelay_of_inRange {mDelayMs : Int32} (h : InRange mDelayMs) : clampDelay mDelayMs = mDelayMs := by
  rw [clampDelay, if_neg (Int32.not_lt.mpr h.1), if_neg (Int32.not_lt.mpr h.2)]

namespace SensorDevice

variable (device : SensorDevice) (now_ns : Int64)

@[simp] theorem tick_mSensors : (device.tick now_ns).1.mSensors = device.mSensors := by
  unfold tick
  split <;> rfl

@[simp] theorem tick_mEnabledMask : (device.tick now_ns).1.mEnabledMask = device.mEnabledMask := by
  unfold tick
  split <;> rfl

@[simp] theorem tick_mTimeOffsetNs : (device.tick now_ns).1.mTimeOffsetNs = device.mTimeOffsetNs := by
  unfold tick
  split <;> rfl

theorem tick_mTimer : (device.tick now_ns).1.mTimer =
    if device.mEnabledMask = 0 then device.mTimer else some (clampDelay device.mDelayMs) := by
  unfold tick
  split <;> rfl

theorem tick_mDelayMs : (device.tick now_ns).1.mDelayMs =
    if device.mEnabledMask = 0 then device.mDelayMs else clampDelay device.mDelayMs := by
  unfold tick
  split <;> rfl

theorem tick_replies : (device.tick now_ns).2 = (all.filter (enabled device.mEnabledMask)).map Reply.report ++
    [.guestSync (now_ns + device.mTimeOffsetNs), .sync (now_ns / 1000)] := by
  unfold tick
  split <;> rfl

@[simp] theorem tick_reported : reported (device.tick now_ns).2 = all.filter (enabled device.mEnabledMask) := by
  rw [tick_replies, reported, List.filterMap_append, List.filterMap_map]
  simp

theorem tick_sync : .sync (now_ns / 1000) ∈ (device.tick now_ns).2 := by
  simp [tick_replies]

end SensorDevice

/-! ### The protocol -/

/-- The device, and what the HAL last asked for each sensor. -/
structure World where
  device : SensorDevice
  asked : AndroidSensor → Option Bool

/-- What the HAL has asked for after a message. -/
def hears (asked : AndroidSensor → Option Bool) (msg : Bytes) (sensor : AndroidSensor) : Option Bool :=
  if msg = (Command.set sensor (text "1")).text then some true
  else if msg = (Command.set sensor (text "0")).text then some false
  else asked sensor

namespace World

/-- What the guest has asked of each sensor so far. -/
def heard (w : World) : Event → AndroidSensor → Option Bool
  | .receive msg _ _ => hears w.asked msg
  | .timer _ => w.asked

/-- The HAL has asked for every available sensor, one way or the other. -/
def AllAsked (mSensors : AndroidSensor → Bool) (asked : AndroidSensor → Option Bool) : Prop :=
  ∀ sensor, mSensors sensor = true → asked sensor ≠ none

/-- A new device, which has been asked nothing. -/
def new (mSensors : AndroidSensor → Bool) (mTimeOffsetNs : Int64) : World :=
  ⟨SensorDevice.new mSensors mTimeOffsetNs, fun _ => none⟩

section Steps

variable (SimpleAtoi32 : Bytes → Option Int32) (SimpleAtoi64 : Bytes → Option Int64)

/-- One event, with what the guest has asked. -/
def step (w : World) (event : Event) : Except Blocked World := do
  let result ← w.device.step SimpleAtoi32 SimpleAtoi64 event
  .ok ⟨result.1, w.heard event⟩

/-- A command whose argument can be read. -/
def WellFormed : Command → Prop
  | .listSensors | .wake => True
  | .setDelay arg => (SimpleAtoi32 arg).isSome
  | .set _ flag => flag = text "1" ∨ flag = text "0"
  | .time arg => (SimpleAtoi64 arg).isSome

/-- A message that is none of these commands. -/
def Malformed (msg : Bytes) : Prop :=
  ∀ command : Command, msg = command.text → ¬ WellFormed SimpleAtoi32 SimpleAtoi64 command

/-- A step as the protocol has it. -/
structure Protocol (w : World) (event : Event) (device : SensorDevice) (replies : List Reply) : Prop where
  listSensors : ∀ now_ns leftover, event = .receive Command.listSensors.text now_ns leftover →
    replies = [.listSensors (bitmap w.device.mSensors)]
  reports : ∀ us, .sync us ∈ replies →
    reported replies = all.filter fun sensor => w.device.mSensors sensor && w.heard event sensor = some true
  malformed : ∀ msg now_ns leftover, event = .receive msg now_ns leftover →
    Malformed SimpleAtoi32 SimpleAtoi64 msg → device.mEnabledMask = w.device.mEnabledMask ∧
      device.mDelayMs = w.device.mDelayMs ∧ device.mTimeOffsetNs = w.device.mTimeOffsetNs
  timer : ∀ delay, device.mTimer = some delay → InRange delay

/-- The event is answered as the protocol says. -/
def KeepsProtocol (w : World) (event : Event) : Prop :=
  ∀ result, w.device.step SimpleAtoi32 SimpleAtoi64 event = .ok result →
    w.Protocol SimpleAtoi32 SimpleAtoi64 event result.1 result.2

/-- The commands that one mask and one delay can serve: `list-sensors` while no available sensor is
disabled, a tick when every available sensor was asked for, a flag that is none for a sensor that is
disabled already, and a delay that is no number if it leaves the old one there. -/
def RegularCommand (w : World) (leftover : Int32) : Command → Prop
  | .listSensors => ∀ sensor, w.device.mSensors sensor = true → w.asked sensor ≠ some false
  | .wake | .time _ => True
  | .setDelay arg =>
    ((SimpleAtoi32 arg).isSome → w.device.mEnabledMask ≠ 0 → AllAsked w.device.mSensors w.asked) ∧
      (SimpleAtoi32 arg = none → leftover = w.device.mDelayMs)
  | .set sensor flag => w.device.mSensors sensor = true →
    AllAsked w.device.mSensors (hears w.asked (Command.set sensor flag).text) ∧
      (flag = text "1" ∨ flag = text "0" ∨ w.asked sensor = some false)

/-- The event finds the device as it should be. -/
def Regular (w : World) : Event → Prop
  | .receive msg _ leftover =>
    ∀ command : Command, msg = command.text → command.Plain → w.RegularCommand SimpleAtoi32 leftover command
  | .timer _ => w.device.mTimer.isSome → AllAsked w.device.mSensors w.asked

end Steps

/-! ### One step -/

/-- The sensors whose bits are set. -/
def active (mSensors : AndroidSensor → Bool) (asked : AndroidSensor → Option Bool) (sensor : AndroidSensor) :
    Bool :=
  mSensors sensor && (asked sensor).getD true

/-- What holds in every run whose events are regular. -/
structure Inv (w : World) : Prop where
  mask : w.device.mEnabledMask = bitmap (active w.device.mSensors w.asked)
  timer : ∀ delay, w.device.mTimer = some delay → InRange delay
  delay : w.device.mEnabledMask ≠ 0 → InRange w.device.mDelayMs

theorem inv_new (mSensors : AndroidSensor → Bool) (mTimeOffsetNs : Int64) : (new mSensors mTimeOffsetNs).Inv := by
  refine ⟨?_, fun _ h => (nomatch h), fun _ => (by decide : InRange 800)⟩
  show bitmap mSensors = bitmap _
  congr 1
  funext sensor
  simp [active, new, SensorDevice.new]

/-- A tick shows the difference between a sensor that is enabled and one that was never disabled. -/
theorem filter_active {mSensors : AndroidSensor → Bool} {asked : AndroidSensor → Option Bool} :
    (all.filter (active mSensors asked) = all.filter fun sensor => mSensors sensor && asked sensor = some true) ↔
      AllAsked mSensors asked := by
  constructor
  · intro h sensor hsensor hnone
    have hmem : sensor ∈ all.filter (active mSensors asked) := by
      simp [active, hsensor, hnone, sensor.mem_all]
    rw [h] at hmem
    simp [hsensor, hnone] at hmem
  · intro h
    refine List.filter_congr fun sensor _ => ?_
    cases hsensor : mSensors sensor with
    | false => simp [active, hsensor]
    | true =>
      obtain ⟨flag, hflag⟩ := Option.ne_none_iff_exists'.mp (h sensor hsensor)
      cases flag <;> simp [active, hsensor, hflag]

/-- The mask shows the difference between a sensor that is disabled and one that is available. -/
theorem eq_active {mSensors : AndroidSensor → Bool} {asked : AndroidSensor → Option Bool} :
    active mSensors asked = mSensors ↔ ∀ sensor, mSensors sensor = true → asked sensor ≠ some false := by
  constructor
  · intro h sensor hsensor hasked
    have := congrFun h sensor
    simp [active, hsensor, hasked] at this
  · intro h
    funext sensor
    cases hsensor : mSensors sensor with
    | false => simp [active, hsensor]
    | true =>
      have hkept := h sensor hsensor
      cases hasked : asked sensor with
      | none => simp [active, hsensor, hasked]
      | some enabled =>
        cases enabled with
        | true => simp [active, hsensor, hasked]
        | false => exact absurd hasked hkept

theorem hears_eq (asked : AndroidSensor → Option Bool) (msg : Bytes) : hears asked msg =
    match Command.read msg with
    | some (.set sensor flag) =>
      if flag = text "1" then Function.update asked sensor (some true)
      else if flag = text "0" then Function.update asked sensor (some false)
      else asked
    | _ => asked := by
  have hplain : ∀ sensor, (Command.set sensor (text "1")).Plain ∧ (Command.set sensor (text "0")).Plain :=
    fun _ => (by decide : ':'.toUInt8 ∉ text "1" ∧ ':'.toUInt8 ∉ text "0")
  have hne : text "1" ≠ text "0" := by decide
  funext sensor
  simp only [hears, Command.eq_text_iff (hplain sensor).1, Command.eq_text_iff (hplain sensor).2]
  rcases Command.read msg with _ | command
  · simp
  · cases command with
    | set other flag =>
      by_cases hother : sensor = other
      · subst hother
        by_cases h1 : flag = text "1"
        · simp [h1]
        · by_cases h0 : flag = text "0"
          · simp [h0, hne.symm]
          · simp [h1, h0]
      · by_cases h1 : flag = text "1"
        · simp [h1, hother, Ne.symm hother]
        · by_cases h0 : flag = text "0"
          · simp [h0, hne.symm, hother, Ne.symm hother]
          · simp [h1, h0]
    | listSensors | wake | setDelay arg | time arg => simp

/-- The mask after `set` is what the HAL asks for, unless the flag is none and the sensor enabled. -/
theorem setMask_eq {mSensors : AndroidSensor → Bool} (asked : AndroidSensor → Option Bool)
    {sensor : AndroidSensor} {flag : Bytes} (hplain : ':'.toUInt8 ∉ flag) (hsensor : mSensors sensor = true) :
    setMask (bitmap (active mSensors asked)) sensor flag =
        bitmap (active mSensors (hears asked (Command.set sensor flag).text)) ↔
      flag = text "1" ∨ flag = text "0" ∨ asked sensor = some false := by
  have hread : Command.read (Command.set sensor flag).text = some (.set sensor flag) :=
    Command.read_eq_some.mpr ⟨rfl, hplain⟩
  rw [hears_eq, hread, setMask]
  have hne : text "0" ≠ text "1" := by decide
  by_cases h1 : flag = text "1"
  · simp only [h1, if_true, bitmap_or_bit, bitmap_inj, true_or, iff_true]
    funext other
    by_cases hother : other = sensor
    · simp [hother, active, hsensor]
    · simp [hother, active]
  · by_cases h0 : flag = text "0"
    · simp only [h0, hne, if_false, if_true, bitmap_and_not_bit, bitmap_inj, true_or, or_true, iff_true]
      funext other
      by_cases hother : other = sensor
      · simp [hother, active]
      · simp [hother, active]
    · simp only [h1, h0, if_false, bitmap_and_not_bit, bitmap_inj, false_or]
      constructor
      · intro h
        have := congrFun h sensor
        simp only [ne_eq, not_true_eq_false, decide_false, Bool.false_and, active, hsensor, Bool.true_and] at this
        cases hasked : asked sensor with
        | none => simp [hasked] at this
        | some enabled => cases enabled <;> simp [hasked] at this ⊢
      · intro h
        funext other
        by_cases hother : other = sensor
        · simp [hother, active, h]
        · simp [hother]

section Steps

variable {SimpleAtoi32 : Bytes → Option Int32} {SimpleAtoi64 : Bytes → Option Int64} {w : World}

theorem malformed_iff (SimpleAtoi32 : Bytes → Option Int32) (SimpleAtoi64 : Bytes → Option Int64) {msg : Bytes}
    {command : Command} (hread : Command.read msg = some command) :
    Malformed SimpleAtoi32 SimpleAtoi64 msg ↔ ¬ WellFormed SimpleAtoi32 SimpleAtoi64 command := by
  refine ⟨fun h => h command (Command.read_eq_some.mp hread).1, fun h other htext hother => ?_⟩
  have hplain : other.Plain := by
    cases other with
    | set sensor flag =>
      rcases hother with rfl | rfl
      · exact (by decide : ':'.toUInt8 ∉ text "1")
      · exact (by decide : ':'.toUInt8 ∉ text "0")
    | listSensors | wake | setDelay arg | time arg => trivial
  have hother' := (Command.eq_text_iff hplain).mp htext
  exact h (Option.some.inj (hread.symm.trans hother') ▸ hother)

/-- A message other than `list-sensors` that makes no tick. -/
theorem Inv.protocol_quiet (h : w.Inv) {msg : Bytes} (hlist : msg ≠ Command.listSensors.text) {now_ns : Int64}
    {leftover : Int32} {device : SensorDevice} {replies : List Reply} (hreplies : ∀ us, .sync us ∉ replies)
    (htimer : device.mTimer = w.device.mTimer)
    (hmalformed : Malformed SimpleAtoi32 SimpleAtoi64 msg → device.mEnabledMask = w.device.mEnabledMask ∧
      device.mDelayMs = w.device.mDelayMs ∧ device.mTimeOffsetNs = w.device.mTimeOffsetNs) :
    w.Protocol SimpleAtoi32 SimpleAtoi64 (.receive msg now_ns leftover) device replies := by
  refine ⟨?_, fun us hus => absurd hus (hreplies us), ?_, htimer ▸ h.timer⟩
  · intro _ _ hgiven
    cases hgiven
    exact absurd rfl hlist
  · intro _ _ _ hgiven
    cases hgiven
    exact hmalformed

/-- A tick arms the timer with a delay in the range. -/
theorem tick_inRange {device : SensorDevice} {now_ns : Int64}
    (htimer : ∀ delay, device.mTimer = some delay → InRange delay) :
    ∀ delay, (device.tick now_ns).1.mTimer = some delay → InRange delay := by
  intro delay hdelay
  rw [SensorDevice.tick_mTimer] at hdelay
  split at hdelay
  · exact htimer delay hdelay
  · exact Option.some.inj hdelay ▸ clampDelay_inRange _

/-- What a tick reports shows whether every sensor was asked for. -/
theorem tick_reports_iff (device : SensorDevice) (asked : AndroidSensor → Option Bool) (now_ns : Int64)
    (hmask : device.mEnabledMask = bitmap (active device.mSensors asked)) :
    reported (device.tick now_ns).2 =
        all.filter (fun sensor => device.mSensors sensor && asked sensor = some true) ↔
      AllAsked device.mSensors asked := by
  rw [SensorDevice.tick_reported, hmask, enabled_bitmap, filter_active]

theorem Inv.perform_iff (h : w.Inv) {msg : Bytes} {command : Command} {now_ns : Int64} {leftover : Int32}
    (hread : Command.read msg = some command) :
    w.Protocol SimpleAtoi32 SimpleAtoi64 (.receive msg now_ns leftover)
        (w.device.perform SimpleAtoi32 SimpleAtoi64 now_ns leftover command).1
        (w.device.perform SimpleAtoi32 SimpleAtoi64 now_ns leftover command).2 ↔
      w.RegularCommand SimpleAtoi32 leftover command := by
  obtain ⟨hmsg, hplain⟩ := Command.read_eq_some.mp hread
  have hlist : command ≠ .listSensors → msg ≠ Command.listSensors.text := by
    intro hne heq
    exact hne (Option.some.inj (hread.symm.trans (Command.read_eq_some.mpr ⟨heq, trivial⟩)))
  have hmalformed := malformed_iff SimpleAtoi32 SimpleAtoi64 hread
  cases command with
  | listSensors =>
    have hreply : [Reply.listSensors w.device.mEnabledMask] = [.listSensors (bitmap w.device.mSensors)] ↔
        w.RegularCommand SimpleAtoi32 leftover .listSensors := by
      rw [RegularCommand, List.cons.injEq, Reply.listSensors.injEq, h.mask, bitmap_inj, eq_active]
      exact and_iff_left rfl
    refine ⟨fun hp => hreply.mp (hp.listSensors now_ns leftover (by rw [hmsg])), fun hreg => ?_⟩
    refine ⟨fun _ _ _ => hreply.mpr hreg, fun us hus => ?_, fun _ _ _ _ _ => ⟨rfl, rfl, rfl⟩, h.timer⟩
    simp [SensorDevice.perform] at hus
  | wake =>
    refine iff_of_true (h.protocol_quiet (hlist (by simp)) ?_ rfl fun _ => ⟨rfl, rfl, rfl⟩) trivial
    simp [SensorDevice.perform]
  | setDelay arg =>
    have hheard : w.heard (.receive msg now_ns leftover) = w.asked := by rw [heard, hears_eq, hread]
    cases harg : SimpleAtoi32 arg with
    | none =>
      simp only [SensorDevice.perform, SensorDevice.setDelay, RegularCommand, harg, Option.isSome_none,
        Bool.false_eq_true, false_implies, true_implies, true_and]
      have hbad : Malformed SimpleAtoi32 SimpleAtoi64 msg := hmalformed.mpr (by simp [WellFormed, harg])
      constructor
      · intro hp
        exact (hp.malformed msg now_ns leftover rfl hbad).2.1
      · intro heq
        exact h.protocol_quiet (hlist (by simp)) (by simp) rfl fun _ => ⟨rfl, heq, rfl⟩
    | some delay =>
      have hgood : ¬ Malformed SimpleAtoi32 SimpleAtoi64 msg := fun hbad =>
        hmalformed.mp hbad (by simp [WellFormed, harg])
      by_cases hmask : w.device.mEnabledMask = 0
      · refine iff_of_true ?_ (by simp [RegularCommand, harg, hmask])
        simp only [SensorDevice.perform, SensorDevice.setDelay, harg, hmask, ne_eq, not_true_eq_false, if_false]
        exact h.protocol_quiet (hlist (by simp)) (by simp) rfl fun hbad => absurd hbad hgood
      · simp only [SensorDevice.perform, SensorDevice.setDelay, RegularCommand, harg, hmask, ne_eq,
          not_false_eq_true, if_true, Option.isSome_some, true_implies, reduceCtorEq, false_implies, and_true]
        have hreports := tick_reports_iff { w.device with mDelayMs := delay } w.asked now_ns h.mask
        constructor
        · intro hp
          exact hreports.mp (hheard ▸ hp.reports _ (SensorDevice.tick_sync _ _))
        · intro hreg
          refine ⟨?_, fun us _ => hheard ▸ hreports.mpr hreg, ?_, tick_inRange h.timer⟩
          · intro _ _ hgiven
            cases hgiven
            exact absurd rfl (hlist (by simp))
          · intro _ _ _ hgiven hbad
            cases hgiven
            exact absurd hbad hgood
  | set sensor flag =>
    cases hsensor : w.device.mSensors sensor with
    | false =>
      refine iff_of_true ?_ (by simp [RegularCommand, hsensor])
      simp only [SensorDevice.perform, hsensor, Bool.false_eq_true, if_false]
      exact h.protocol_quiet (hlist (by simp)) (by simp) rfl fun _ => ⟨rfl, rfl, rfl⟩
    | true =>
      simp only [SensorDevice.perform, RegularCommand, hsensor, if_true, true_implies]
      have hheard : w.heard (.receive msg now_ns leftover) = hears w.asked (Command.set sensor flag).text := by
        rw [heard, hmsg]
      have hset := setMask_eq w.asked hplain hsensor
      rw [← h.mask] at hset
      have hreports := tick_reports_iff
        { w.device with mEnabledMask := setMask w.device.mEnabledMask sensor flag }
        (w.heard (.receive msg now_ns leftover)) now_ns
      rw [hheard] at hreports
      -- a flag that is none is heard as nothing
      have hbad : ¬ (flag = text "1" ∨ flag = text "0") →
          hears w.asked (Command.set sensor flag).text = w.asked := by
        intro hflag
        rw [not_or] at hflag
        rw [← hmsg, hears_eq, hread]
        simp [hflag]
      constructor
      · intro hp
        have hflag : flag = text "1" ∨ flag = text "0" ∨ w.asked sensor = some false := by
          by_cases hwell : flag = text "1" ∨ flag = text "0"
          · exact hwell.imp_right .inl
          · have hmask := (hp.malformed msg now_ns leftover rfl (hmalformed.mpr hwell)).1
            rw [SensorDevice.tick_mEnabledMask] at hmask
            refine hset.mp ?_
            rw [hbad hwell, ← h.mask]
            exact hmask
        refine ⟨?_, hflag⟩
        exact (hreports (hset.mpr hflag)).mp (hheard ▸ hp.reports _ (SensorDevice.tick_sync _ _))
      · intro hgiven
        obtain ⟨hasked, hflag⟩ := hgiven
        have hmask := hset.mpr hflag
        refine ⟨?_, fun us _ => ?_, ?_, tick_inRange h.timer⟩
        · intro _ _ hgiven
          cases hgiven
          exact absurd rfl (hlist (by simp))
        · rw [hheard]
          exact (hreports hmask).mpr hasked
        · intro _ _ _ hgiven hmal
          cases hgiven
          have hkept : setMask w.device.mEnabledMask sensor flag = w.device.mEnabledMask := by
            rw [hmask, hbad (hmalformed.mp hmal), h.mask]
          refine ⟨by rw [SensorDevice.tick_mEnabledMask, hkept], ?_, by rw [SensorDevice.tick_mTimeOffsetNs]⟩
          rw [SensorDevice.tick_mDelayMs]
          split
          · rfl
          · next hne => exact clampDelay_of_inRange (h.delay (hkept ▸ hne))
  | time arg =>
    refine iff_of_true (h.protocol_quiet (hlist (by simp)) (by simp [SensorDevice.perform]) ?_ fun hbad => ?_) trivial
    · simp only [SensorDevice.perform, SensorDevice.time]
      split <;> rfl
    · have hnone : SimpleAtoi64 arg = none := by simpa [WellFormed] using hmalformed.mp hbad
      simp [SensorDevice.perform, SensorDevice.time, hnone]

theorem Inv.perform (h : w.Inv) {msg : Bytes} {command : Command} {now_ns : Int64} {leftover : Int32}
    (hread : Command.read msg = some command) (hreg : w.RegularCommand SimpleAtoi32 leftover command) :
    Inv ⟨(w.device.perform SimpleAtoi32 SimpleAtoi64 now_ns leftover command).1, hears w.asked msg⟩ := by
  obtain ⟨rfl, hplain⟩ := Command.read_eq_some.mp hread
  cases command with
  | listSensors => exact h
  | wake => exact h
  | setDelay arg =>
    rw [hears_eq, hread]
    cases harg : SimpleAtoi32 arg with
    | none =>
      obtain ⟨-, heq⟩ := hreg
      simp only [SensorDevice.perform, SensorDevice.setDelay, harg]
      exact ⟨h.mask, h.timer, fun hmask => by rw [heq harg]; exact h.delay hmask⟩
    | some delay =>
      by_cases hmask : w.device.mEnabledMask = 0
      · simp only [SensorDevice.perform, SensorDevice.setDelay, harg, hmask, ne_eq, not_true_eq_false, if_false]
        exact ⟨hmask ▸ h.mask, h.timer, fun hne => absurd rfl hne⟩
      · simp only [SensorDevice.perform, SensorDevice.setDelay, harg, hmask, ne_eq, not_false_eq_true, if_true]
        refine ⟨?_, tick_inRange h.timer, fun _ => ?_⟩
        · simpa using h.mask
        · rw [SensorDevice.tick_mDelayMs, if_neg hmask]
          exact clampDelay_inRange _
  | set sensor flag =>
    cases hsensor : w.device.mSensors sensor with
    | false =>
      simp only [SensorDevice.perform, hsensor, Bool.false_eq_true, if_false]
      refine ⟨h.mask.trans (bitmap_inj.mpr ?_), h.timer, h.delay⟩
      funext other
      by_cases hother : other = sensor
      · simp [active, hother, hsensor]
      · rw [hears_eq, hread]
        by_cases h1 : flag = text "1"
        · simp [active, h1, hother]
        · by_cases h0 : flag = text "0"
          · simp [active, h0, (by decide : text "0" ≠ text "1"), hother]
          · simp [active, h1, h0]
    | true =>
      obtain ⟨-, hflag⟩ := hreg hsensor
      simp only [SensorDevice.perform, hsensor, if_true]
      refine ⟨?_, tick_inRange h.timer, fun hmask => ?_⟩
      · simp only [SensorDevice.tick_mEnabledMask, SensorDevice.tick_mSensors]
        rw [h.mask]
        exact (setMask_eq _ hplain hsensor).mpr hflag
      · rw [SensorDevice.tick_mEnabledMask] at hmask
        rw [SensorDevice.tick_mDelayMs, if_neg hmask]
        exact clampDelay_inRange _
  | time arg =>
    rw [hears_eq, hread]
    simp only [SensorDevice.perform, SensorDevice.time]
    split <;> exact ⟨h.mask, h.timer, h.delay⟩

theorem Inv.keepsProtocol_iff (h : w.Inv) (event : Event) :
    w.KeepsProtocol SimpleAtoi32 SimpleAtoi64 event ↔ w.Regular SimpleAtoi32 event := by
  cases event with
  | receive msg now_ns leftover =>
    have hstep : w.KeepsProtocol SimpleAtoi32 SimpleAtoi64 (.receive msg now_ns leftover) ↔
        w.Protocol SimpleAtoi32 SimpleAtoi64 (.receive msg now_ns leftover)
          (w.device.onReceive SimpleAtoi32 SimpleAtoi64 msg now_ns leftover).1
          (w.device.onReceive SimpleAtoi32 SimpleAtoi64 msg now_ns leftover).2 := by
      constructor
      · intro hkeeps
        exact hkeeps _ rfl
      · intro hp result hresult
        obtain rfl := Except.ok.inj hresult
        exact hp
    rw [hstep, onReceive_eq]
    cases hread : Command.read msg with
    | none =>
      have hother : ∀ command : Command, command.Plain → msg ≠ command.text := by
        intro command hplain hmsg
        rw [(Command.eq_text_iff hplain).mp hmsg] at hread
        cases hread
      refine iff_of_true ?_ fun command hmsg hplain => absurd hmsg (hother command hplain)
      exact h.protocol_quiet (hother .listSensors trivial) (by simp) rfl fun _ => ⟨rfl, rfl, rfl⟩
    | some command =>
      rw [h.perform_iff hread]
      constructor
      · intro hreg other hmsg hplain
        rw [(Command.eq_text_iff hplain).mp hmsg] at hread
        exact Option.some.inj hread ▸ hreg
      · intro hreg
        obtain ⟨hmsg, hplain⟩ := Command.read_eq_some.mp hread
        exact hreg command hmsg hplain
  | timer now_ns =>
    cases hsome : w.device.mTimer.isSome with
    | false =>
      refine iff_of_true (fun _ hstep => ?_) (fun harmed => by simp [hsome] at harmed)
      simp [SensorDevice.step, hsome] at hstep
    | true =>
      have hreports := tick_reports_iff { w.device with mTimer := none } w.asked now_ns h.mask
      constructor
      · intro hkeeps _
        have hp := hkeeps _ (by rw [SensorDevice.step, if_pos hsome])
        exact hreports.mp (hp.reports _ (SensorDevice.tick_sync _ _))
      · intro hreg result hstep
        rw [SensorDevice.step, if_pos hsome] at hstep
        obtain rfl := Except.ok.inj hstep
        refine ⟨fun _ _ hevent => (nomatch hevent), fun us _ => hreports.mpr (hreg hsome),
          fun _ _ _ hevent => (nomatch hevent), tick_inRange fun _ hnone => (nomatch hnone)⟩

theorem Inv.step (h : w.Inv) {event : Event} {w' : World} (hreg : w.Regular SimpleAtoi32 event)
    (hstep : w.step SimpleAtoi32 SimpleAtoi64 event = .ok w') : w'.Inv := by
  simp only [World.step, bind_eq_ok, Except.ok.injEq] at hstep
  obtain ⟨result, hresult, rfl⟩ := hstep
  cases event with
  | receive msg now_ns leftover =>
    obtain rfl := Except.ok.inj hresult
    rw [onReceive_eq]
    cases hread : Command.read msg with
    | none =>
      have hheard : w.heard (.receive msg now_ns leftover) = w.asked := by rw [heard, hears_eq, hread]
      rw [hheard]
      exact h
    | some command =>
      obtain ⟨hmsg, hplain⟩ := Command.read_eq_some.mp hread
      exact h.perform hread (hreg command hmsg hplain)
  | timer now_ns =>
    rw [SensorDevice.step] at hresult
    split at hresult
    · obtain rfl := Except.ok.inj hresult
      refine ⟨?_, tick_inRange fun _ hnone => ?_, fun hmask => ?_⟩
      · simp only [SensorDevice.tick_mEnabledMask, SensorDevice.tick_mSensors]
        exact h.mask
      · cases hnone
      · rw [SensorDevice.tick_mEnabledMask] at hmask
        rw [SensorDevice.tick_mDelayMs, if_neg hmask]
        exact clampDelay_inRange _
    · cases hresult

end Steps

end World

/-! ### Every run -/

/-- **The sensor protocol.** A run of commands and timer ticks keeps to the protocol exactly if every
step is regular. -/
theorem protocol_iff_regular (SimpleAtoi32 : Bytes → Option Int32) (SimpleAtoi64 : Bytes → Option Int64)
    (mSensors : AndroidSensor → Bool) (mTimeOffsetNs : Int64) (events : List Event) :
    Along (World.step SimpleAtoi32 SimpleAtoi64) (World.KeepsProtocol SimpleAtoi32 SimpleAtoi64)
        (World.new mSensors mTimeOffsetNs) events ↔
      Along (World.step SimpleAtoi32 SimpleAtoi64) (World.Regular SimpleAtoi32)
        (World.new mSensors mTimeOffsetNs) events :=
  along_iff_along (I := World.Inv) (fun _ event h => h.keepsProtocol_iff event)
    (fun _ _ _ h hreg hstep => h.step hreg hstep) (World.inv_new mSensors mTimeOffsetNs)

/-- `list-sensors` after the only sensor of the AVD was disabled answers `0`. -/
theorem listed_after_disable :
    ¬ Along (World.step (fun _ => none) fun _ => none) (World.KeepsProtocol (fun _ => none) fun _ => none)
        (World.new (· = .ACCELERATION) 0)
        [.receive (Command.set .ACCELERATION (text "0")).text 0 0, .receive Command.listSensors.text 0 0] := by
  intro h
  have hlist := ((h.2 _ rfl).1 _ rfl).listSensors 0 0 rfl
  revert hlist
  decide

end Goldfish.Devices.Sensors
