import Goldfish.Lib.EvDev

/-!
# Goldfish.VirtioInput.Device

The **`virtio-input-android`** device (`virtio-input-android.h`, `virtio-input-android.c`): input events of
QEMU as multi-touch events of the guest. It has two producers of multi-touch events. Mouse buttons
are emulated as touches, one slot for each button; events that are multi-touch already are passed on.

The device remembers in `current_slot` which slot it has selected, and leaves the selection out if
the slot is selected already (`selectEvents`). The three handlers of the emulation treat this
cache differently: a press and a move set it, a release sets it to -1.

The buttons and their numbers are those of QEMU's `InputButton`. A handler returns the events it
sends and the new state of the device.
-/

namespace Goldfish.VirtioInput

open Goldfish.Lib.EvDev

/-! ### Input events -/

/-- `InputButton`, in the order of its values. -/
inductive InputButton where
  | LEFT | MIDDLE | RIGHT | WHEEL_UP | WHEEL_DOWN | SIDE | EXTRA | WHEEL_LEFT | WHEEL_RIGHT | TOUCH
deriving DecidableEq, Repr

/-- The values from 0 to `INPUT_BUTTON__MAX`. -/
def InputButton.all : List InputButton :=
  [.LEFT, .MIDDLE, .RIGHT, .WHEEL_UP, .WHEEL_DOWN, .SIDE, .EXTRA, .WHEEL_LEFT, .WHEEL_RIGHT, .TOUCH]

/-- A button as an `int`. -/
def InputButton.toInt : InputButton → Int32
  | .LEFT => 0
  | .MIDDLE => 1
  | .RIGHT => 2
  | .WHEEL_UP => 3
  | .WHEEL_DOWN => 4
  | .SIDE => 5
  | .EXTRA => 6
  | .WHEEL_LEFT => 7
  | .WHEEL_RIGHT => 8
  | .TOUCH => 9

/-- `keymap_button`. Zero means that the button is not mapped. -/
def keymap_button : InputButton → UInt16
  | .LEFT => 0x110
  | .RIGHT => 0x111
  | .MIDDLE => 0x112
  | .WHEEL_UP => 0x151
  | .WHEEL_DOWN => 0x150
  | .SIDE => 0x113
  | .EXTRA => 0x114
  | .TOUCH => 0x14a
  | .WHEEL_LEFT => 0
  | .WHEEL_RIGHT => 0

/-- `InputAxis`. -/
inductive InputAxis where
  | X | Y
deriving DecidableEq, Repr

/-- `axismap_tch`. -/
def axismap_tch : InputAxis → EvCode
  | .X => .ABS_MT_POSITION_X
  | .Y => .ABS_MT_POSITION_Y

/-- `InputMultiTouchType`. -/
inductive InputMultiTouchType where
  | BEGIN | UPDATE | END | CANCEL | DATA
deriving DecidableEq, Repr

/-- `InputEvent`, as far as it is read. -/
inductive InputEvent where
  | KEY
  | BTN (button : InputButton) (down : Bool)
  | REL
  | ABS (axis : InputAxis) (value : Int64)
  | MTT (type : InputMultiTouchType) (slot tracking_id : Int64) (axis : InputAxis) (value : Int64)
deriving DecidableEq, Repr

/-! ### The device -/

/-- `MTS_POINTER_UP`. -/
def MTS_POINTER_UP : Int32 := -1

/-- `MTS_PRESSURE_RANGE_MAX`. -/
def MTS_PRESSURE_RANGE_MAX : Int32 := 0x400

/-- `MTS_TOUCH_AXIS_DEFAULT`. -/
def MTS_TOUCH_AXIS_DEFAULT : UInt32 := 0x500

/-- `MT_TOOL_FINGER` of the kernel. -/
def MT_TOOL_FINGER : UInt32 := 0

/-- `MTSPointerState`. -/
structure MTSPointerState where
  tracking_id : Int32
  x : Int32
  y : Int32
  pressure : Int32
deriving DecidableEq, Repr

/-- `VirtIOInputAndroidHID`, with the `wheel_axis` of its parent. -/
structure VirtIOInputAndroidHID where
  wheel_axis : Bool
  current_slot : Int32
  keymap_button_down : InputButton → Bool
  tracked_pointers : InputButton → MTSPointerState

/-- `virtio_android_init`. -/
def VirtIOInputAndroidHID.init (wheel_axis : Bool) : VirtIOInputAndroidHID where
  wheel_axis := wheel_axis
  current_slot := 0
  keymap_button_down := fun _ => false
  tracked_pointers := fun _ => { tracking_id := 0, x := 0, y := 0, pressure := 0 }

namespace VirtIOInputAndroidHID

/-- The selection of a slot, if it is not the one in the cache. -/
def selectEvents (vahid : VirtIOInputAndroidHID) (slot_index : Int32) : List EvDevEvent :=
  if slot_index ≠ vahid.current_slot then [⟨.EV_ABS, .ABS_MT_SLOT, slot_index.toUInt32⟩] else []

/-- `_mts_pointer_down`. The tracking id is a button, so it is not negative. -/
def mts_pointer_down (vahid : VirtIOInputAndroidHID) (button : InputButton) (x y pressure : Int32) :
    List EvDevEvent × VirtIOInputAndroidHID :=
  let slot_index := button.toInt
  (vahid.selectEvents slot_index
      ++ [⟨.EV_ABS, .ABS_MT_TRACKING_ID, slot_index.toUInt32⟩,
        ⟨.EV_ABS, .ABS_MT_POSITION_X, x.toUInt32⟩,
        ⟨.EV_ABS, .ABS_MT_POSITION_Y, y.toUInt32⟩,
        ⟨.EV_ABS, .ABS_MT_TOOL_TYPE, MT_TOOL_FINGER⟩,
        ⟨.EV_ABS, .ABS_MT_PRESSURE, pressure.toUInt32⟩,
        ⟨.EV_ABS, .ABS_MT_ORIENTATION, 0⟩,
        ⟨.EV_ABS, .ABS_MT_TOUCH_MAJOR, MTS_TOUCH_AXIS_DEFAULT⟩,
        ⟨.EV_ABS, .ABS_MT_TOUCH_MINOR, MTS_TOUCH_AXIS_DEFAULT⟩],
    { vahid with
      current_slot := slot_index
      tracked_pointers := Function.update vahid.tracked_pointers button
        { tracking_id := slot_index, x := x, y := y, pressure := pressure } })

/-- `_mts_pointer_up`. -/
def mts_pointer_up (vahid : VirtIOInputAndroidHID) (button : InputButton) :
    List EvDevEvent × VirtIOInputAndroidHID :=
  (vahid.selectEvents button.toInt
      ++ [⟨.EV_ABS, .ABS_MT_PRESSURE, 0⟩,
        ⟨.EV_ABS, .ABS_MT_TRACKING_ID, MTS_POINTER_UP.toUInt32⟩],
    -- the selection is sent again next time
    { vahid with
      current_slot := -1
      tracked_pointers := Function.update vahid.tracked_pointers button
        { vahid.tracked_pointers button with tracking_id := MTS_POINTER_UP, pressure := 0 } })

/-- `_mts_pointer_move`. -/
def mts_pointer_move (vahid : VirtIOInputAndroidHID) (button : InputButton) (x y pressure : Int32) :
    List EvDevEvent × VirtIOInputAndroidHID :=
  let ptr_state := vahid.tracked_pointers button
  -- a pressure that has changed alone is not sent
  if ptr_state.x = x ∧ ptr_state.y = y then ([], vahid)
  else
    (vahid.selectEvents button.toInt
        ++ (if ptr_state.x ≠ x then [⟨.EV_ABS, .ABS_MT_POSITION_X, x.toUInt32⟩] else [])
        ++ (if ptr_state.y ≠ y then [⟨.EV_ABS, .ABS_MT_POSITION_Y, y.toUInt32⟩] else [])
        ++ (if ptr_state.pressure ≠ pressure then [⟨.EV_ABS, .ABS_MT_PRESSURE, pressure.toUInt32⟩]
          else []),
      { vahid with
        current_slot := button.toInt
        tracked_pointers := Function.update vahid.tracked_pointers button
          { ptr_state with x := x, y := y, pressure := pressure } })

/-- A button of the loop over all buttons, for `INPUT_EVENT_KIND_ABS`. The value is 64 bits wide and
a position is not. -/
def moveButton (axis : InputAxis) (value : Int64) (vahid : VirtIOInputAndroidHID) (i : InputButton) :
    List EvDevEvent × VirtIOInputAndroidHID :=
  let ptr_state := vahid.tracked_pointers i
  let x := if axis = .X then value.toInt32 else ptr_state.x
  let y := if axis = .Y then value.toInt32 else ptr_state.y
  let (events, vahid) :=
    if vahid.keymap_button_down i then vahid.mts_pointer_move i x y MTS_PRESSURE_RANGE_MAX
    else ([], vahid)
  (events,
    { vahid with
      tracked_pointers := Function.update vahid.tracked_pointers i
        { vahid.tracked_pointers i with
          x := if axis = .X then value.toInt32 else (vahid.tracked_pointers i).x
          y := if axis = .Y then value.toInt32 else (vahid.tracked_pointers i).y } })

/-- The loop. -/
def moveButtons (axis : InputAxis) (value : Int64) :
    List InputButton → VirtIOInputAndroidHID → List EvDevEvent × VirtIOInputAndroidHID
  | [], vahid => ([], vahid)
  | i :: buttons, vahid =>
      let (events, vahid) := vahid.moveButton axis value i
      let (more, vahid) := moveButtons axis value buttons vahid
      (events ++ more, vahid)

/-- `virtio_input_handle_event`. -/
def handle_event (vahid : VirtIOInputAndroidHID) : InputEvent → List EvDevEvent × VirtIOInputAndroidHID
  | .KEY => ([], vahid)
  | .BTN button down =>
      -- wheel events are not translated
      if vahid.wheel_axis ∧ (button = .WHEEL_UP ∨ button = .WHEEL_DOWN) ∧ down then ([], vahid)
      else if keymap_button button ≠ 0 then
        let x := (vahid.tracked_pointers button).x
        let y := (vahid.tracked_pointers button).y
        let vahid :=
          { vahid with keymap_button_down := Function.update vahid.keymap_button_down button down }
        if down then vahid.mts_pointer_down button x y MTS_PRESSURE_RANGE_MAX
        else vahid.mts_pointer_up button
      else ([], vahid)
  | .REL => ([], vahid)
  | .ABS axis value => moveButtons axis value InputButton.all vahid
  | .MTT type slot tracking_id axis value =>
      if type = .DATA then ([⟨.EV_ABS, axismap_tch axis, value.toInt32.toUInt32⟩], vahid)
      else
        -- the slot is selected past the cache
        ([⟨.EV_ABS, .ABS_MT_SLOT, slot.toInt32.toUInt32⟩,
          ⟨.EV_ABS, .ABS_MT_TRACKING_ID, tracking_id.toInt32.toUInt32⟩], vahid)

end VirtIOInputAndroidHID

/-- What QEMU calls: `event` or `sync` of the handler. -/
inductive Act where
  | event (evt : InputEvent)
  | sync
deriving DecidableEq, Repr

/-- Either of them. `virtio_input_handle_sync` sends the report. -/
def VirtIOInputAndroidHID.handle (vahid : VirtIOInputAndroidHID) :
    Act → List EvDevEvent × VirtIOInputAndroidHID
  | .event evt => vahid.handle_event evt
  | .sync => ([⟨.EV_SYN, .SYN_REPORT, 0⟩], vahid)

end Goldfish.VirtioInput
