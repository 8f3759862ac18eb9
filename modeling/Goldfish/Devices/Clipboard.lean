import Goldfish.Lib.Trace
import Mathlib.Data.Nat.Bitwise

/-!
# Goldfish.Devices.Clipboard

The clipboard device (`ClipboardDevice.cpp`). The guest sends messages of four bytes of
size, as a little-endian number, and then the data; the host sends in the same form.

`onReceive` copies whatever a call brings to where the last call stopped, in the size
field or in the buffer, without asking how much is missing there: a copy past the end
is undefined behaviour, here `CopyPastEnd`. It changes from the field to the buffer at
the start of a call only. The host is little-endian, so the field is its four bytes.

`Reading` is what the device has of the current message. It receives as the device does
(`onReceive_reads`), and the rest of the development is about it.
-/

namespace Goldfish.Devices.Clipboard

open Goldfish.Lib

/-- What is sent over the connection. -/
abbrev Bytes := List UInt8

/-! ### Sizes -/

/-- The number in a little-endian field. -/
def load : Bytes → Nat
  | [] => 0
  | b :: bs => b.toNat + 256 * load bs

/-- `absl::little_endian::Store32`. -/
def Store32 (size : UInt32) : Bytes :=
  [size.toUInt8, (size >>> 8).toUInt8, (size >>> 16).toUInt8, (size >>> 24).toUInt8]

/-- The bytes of a size. -/
theorem Store32_bytes (size : UInt32) : (Store32 size).map UInt8.toNat =
    [size.toNat % 256, size.toNat / 256 % 256, size.toNat / 65536 % 256, size.toNat / 16777216 % 256] := by
  simp [Store32, UInt32.toNat_shiftRight, Nat.shiftRight_eq_div_pow]

theorem load_Store32 (size : UInt32) : load (Store32 size) = size.toNat := by
  have hbytes := Store32_bytes size
  have hlt := size.toNat_lt
  simp only [Store32, List.map_cons, List.map_nil, List.cons.injEq, and_true] at hbytes
  simp only [Store32, load]
  omega

/-- Four bytes are the field of the number in them. -/
theorem eq_Store32_of_load {field : Bytes} (hfield : field.length = 4) {size : UInt32}
    (h : load field = size.toNat) : field = Store32 size := by
  match field, hfield with
  | [a, b, c, d], _ =>
    have hbytes := Store32_bytes size
    have ha := a.toNat_lt
    have hb := b.toNat_lt
    have hc := c.toNat_lt
    have hd := d.toNat_lt
    simp only [Store32, List.map_cons, List.map_nil, List.cons.injEq, and_true] at hbytes
    simp only [load] at h
    simp only [Store32, List.cons.injEq, and_true, ← UInt8.toNat_inj]
    omega

theorem load_lt {field : Bytes} (hfield : field.length = 4) : load field < 2 ^ 32 := by
  match field, hfield with
  | [a, b, c, d], _ =>
    have ha := a.toNat_lt
    have hb := b.toNat_lt
    have hc := c.toNat_lt
    have hd := d.toNat_lt
    simp only [load]
    omega

/-! ### The device -/

/-- `ReadWriteState`: how far a clip has been received. -/
structure ReadWriteState where
  buffer : Bytes
  /-- The four bytes in memory. -/
  dataSize : Bytes
  processedBytes : Nat
  dataSizeTransferred : Bool
deriving DecidableEq

namespace ReadWriteState

/-- `size()`: an `int`, whatever the sizes are. -/
def size (s : ReadWriteState) : Int32 :=
  Int32.ofInt ((if s.dataSizeTransferred then s.buffer.length else s.dataSize.length : Nat) - s.processedBytes)

/-- `isFinished`: all the bytes that were promised are there. -/
def isFinished (s : ReadWriteState) : Bool := s.dataSizeTransferred && s.processedBytes = load s.dataSize

/-- `reset`. -/
def reset : ReadWriteState where
  buffer := []
  dataSize := [0, 0, 0, 0]
  processedBytes := 0
  dataSizeTransferred := false

/-- The first lines of `onReceive`: the size is complete. -/
def beginData (s : ReadWriteState) : ReadWriteState :=
  if s.size = 0 ∧ !s.dataSizeTransferred then
    { s with
      dataSizeTransferred := true, processedBytes := 0
      buffer := s.buffer.take (load s.dataSize) ++ List.replicate (load s.dataSize - s.buffer.length) 0 }
  else s

end ReadWriteState

/-- A copy that goes past the end of its buffer. -/
inductive Fault where
  | CopyPastEnd
deriving DecidableEq

/-- `memcpy` to a place in a block of memory. -/
def memcpy (block : Bytes) (place : Nat) (data : Bytes) : Except Fault Bytes :=
  if place + data.length ≤ block.length then
    .ok (block.take place ++ data ++ block.drop (place + data.length))
  else .error .CopyPastEnd

/-- The copy goes to `data()`; `processedBytes` has 32 bits. -/
def ReadWriteState.copy (s : ReadWriteState) (data : Bytes) : Except Fault ReadWriteState := do
  let processedBytes := (s.processedBytes + data.length) % 2 ^ 32
  if s.dataSizeTransferred then
    let buffer ← memcpy s.buffer s.processedBytes data
    return { s with buffer, processedBytes }
  else
    let dataSize ← memcpy s.dataSize s.processedBytes data
    return { s with dataSize, processedBytes }

/-- The device, with the events it has fired and what it gave to the socket. -/
structure ClipboardDevice where
  mGuestReadState : ReadWriteState
  mClipboardData : Bytes
  mEnabled : Bool
  fired : List Bytes
  sent : List Bytes
deriving DecidableEq

namespace ClipboardDevice

/-- A new device. -/
def initial : ClipboardDevice := ⟨ReadWriteState.reset, [], true, [], []⟩

/-- The last lines of `onReceive`: a message that is complete is stored and fired. -/
def finish (device : ClipboardDevice) (state : ReadWriteState) : ClipboardDevice :=
  if state.isFinished then
    { device with
      mGuestReadState := ReadWriteState.reset, mClipboardData := state.buffer
      fired := device.fired ++ [state.buffer] }
  else { device with mGuestReadState := state }

/-- `onReceive`. -/
def onReceive (device : ClipboardDevice) (data : Bytes) : Except Fault ClipboardDevice :=
  device.finish <$> device.mGuestReadState.beginData.copy data

/-- `getContents`. -/
def getContents (device : ClipboardDevice) : Bytes := device.mClipboardData

/-- `setContents`: the size and the clip are sent. -/
def setContents (device : ClipboardDevice) (contents : Bytes) : ClipboardDevice :=
  if !device.mEnabled then device
  else
    let size := UInt32.ofNat contents.length
    { device with sent := device.sent ++ [Store32 size, contents.take size.toNat] }

/-- All calls of `onReceive`. -/
def receiveAll (chunks : List Bytes) : Except Fault ClipboardDevice := chunks.foldlM onReceive initial

end ClipboardDevice

/-! ### What is read -/

/-- The part of the current message that has arrived: of its size, or of its data. -/
inductive Reading where
  | size (got : Bytes)
  | data (field got : Bytes)
deriving DecidableEq

/-- More data of a message whose size is known; the message if it is complete. -/
def Reading.take (field got chunk : Bytes) : Option (Reading × List Bytes) :=
  if (got ++ chunk).length > load field then none
  else if (got ++ chunk).length = load field then some (.size [], [got ++ chunk])
  else some (.data field (got ++ chunk), [])

/-- A chunk that fits into what is missing. -/
def Reading.receive : Reading → Bytes → Option (Reading × List Bytes)
  | .size got, chunk =>
    if got.length < 4 then
      if (got ++ chunk).length > 4 then none else some (.size (got ++ chunk), [])
    else Reading.take got [] chunk
  | .data field got, chunk => Reading.take field got chunk

/-- The size field has these bytes. -/
structure HasSize (s : ReadWriteState) (got : Bytes) : Prop where
  transferred : s.dataSizeTransferred = false
  buffer : s.buffer = []
  field : s.dataSize.length = 4
  processed : s.processedBytes = got.length
  got : s.dataSize.take got.length = got

/-- The size is complete, and the buffer has these bytes. -/
structure HasData (s : ReadWriteState) (field got : Bytes) : Prop where
  transferred : s.dataSizeTransferred = true
  dataSize : s.dataSize = field
  complete : field.length = 4
  buffer : s.buffer.length = load field
  processed : s.processedBytes = got.length
  got : s.buffer.take got.length = got

/-- The state has this part of the message. -/
def Reads (s : ReadWriteState) : Reading → Prop
  | .size got => HasSize s got
  | .data field got => HasData s field got ∧ got.length < load field

theorem reads_reset : Reads ReadWriteState.reset (.size []) := ⟨rfl, rfl, rfl, rfl, rfl⟩

theorem length_le_of_take {block got : Bytes} (h : block.take got.length = got) : got.length ≤ block.length := by
  have := congrArg List.length h
  rw [List.length_take] at this
  omega

theorem memcpy_eq_ok {block got data : Bytes} (hgot : block.take got.length = got)
    (hfits : (got ++ data).length ≤ block.length) : ∃ block', memcpy block got.length data = .ok block' ∧
      block'.length = block.length ∧ block'.take (got ++ data).length = got ++ data := by
  rw [List.length_append] at hfits
  refine ⟨_, if_pos hfits, ?_, ?_⟩
  · simp only [List.length_append, List.length_drop, hgot]
    omega
  · rw [hgot, List.take_left]

theorem memcpy_eq_error {block got data : Bytes} (hpast : block.length < (got ++ data).length) :
    memcpy block got.length data = .error .CopyPastEnd := by
  rw [List.length_append] at hpast
  exact if_neg (by omega)

section Receive

variable {s : ReadWriteState} {field got : Bytes}

/-- The phase changes when the size is complete, and only then. -/
theorem HasSize.beginData (h : HasSize s got) :
    (got.length = 4 → HasData s.beginData got []) ∧ (got.length ≠ 4 → s.beginData = s) := by
  have hle := length_le_of_take h.got
  have hsize : s.size = 0 ↔ got.length = 4 := by
    have hcases : got.length = 0 ∨ got.length = 1 ∨ got.length = 2 ∨ got.length = 3 ∨ got.length = 4 := by
      have hfield := h.field
      omega
    simp only [ReadWriteState.size, h.transferred, h.field, h.processed, Bool.false_eq_true, if_false]
    rcases hcases with h0 | h0 | h0 | h0 | h0 <;> rw [h0] <;> decide
  constructor
  · intro hcomplete
    have hfield : s.dataSize = got := by
      have hgot := h.got
      rwa [hcomplete, ← h.field, List.take_length] at hgot
    rw [ReadWriteState.beginData, if_pos ⟨hsize.mpr hcomplete, by simp [h.transferred]⟩]
    exact ⟨rfl, hfield, hcomplete, by simp [h.buffer, hfield], rfl, rfl⟩
  · intro hmissing
    exact if_neg fun hbegin => hmissing (hsize.mp hbegin.1)

theorem HasData.beginData (h : HasData s field got) : s.beginData = s :=
  if_neg (by simp [h.transferred])

theorem processed_eq {n : Nat} (got chunk : Bytes) (hgot : n = got.length) (hlt : (got ++ chunk).length < 2 ^ 32) :
    (n + chunk.length) % 2 ^ 32 = (got ++ chunk).length := by
  rw [hgot, ← List.length_append, Nat.mod_eq_of_lt hlt]

theorem HasSize.copy (h : HasSize s got) {chunk : Bytes} (hfits : (got ++ chunk).length ≤ 4) :
    ∃ s', s.copy chunk = .ok s' ∧ HasSize s' (got ++ chunk) := by
  obtain ⟨block, hcopy, hlength, htake⟩ := memcpy_eq_ok h.got (h.field.symm ▸ hfits)
  refine ⟨{ s with dataSize := block, processedBytes := (got ++ chunk).length }, ?_, ?_⟩
  · have hprocessed := processed_eq got chunk h.processed (by omega)
    simp only [ReadWriteState.copy, h.transferred, hprocessed]
    simp [h.processed, hcopy, pure_def]
  · exact ⟨h.transferred, h.buffer, hlength.trans h.field, rfl, htake⟩

theorem HasSize.copy_error (h : HasSize s got) {chunk : Bytes} (hpast : 4 < (got ++ chunk).length) :
    s.copy chunk = .error .CopyPastEnd := by
  have hcopy := memcpy_eq_error (h.field.symm ▸ hpast)
  simp [ReadWriteState.copy, h.transferred, h.processed, hcopy]

theorem HasData.copy (h : HasData s field got) {chunk : Bytes} (hfits : (got ++ chunk).length ≤ load field) :
    ∃ s', s.copy chunk = .ok s' ∧ HasData s' field (got ++ chunk) := by
  obtain ⟨block, hcopy, hlength, htake⟩ := memcpy_eq_ok h.got (h.buffer.symm ▸ hfits)
  refine ⟨{ s with buffer := block, processedBytes := (got ++ chunk).length }, ?_, ?_⟩
  · have hlt := load_lt h.complete
    have hprocessed := processed_eq got chunk h.processed (by omega)
    simp only [ReadWriteState.copy, h.transferred, hprocessed]
    simp [h.processed, hcopy, pure_def]
  · exact ⟨h.transferred, h.dataSize, h.complete, hlength.trans h.buffer, rfl, htake⟩

theorem HasData.copy_error (h : HasData s field got) {chunk : Bytes} (hpast : load field < (got ++ chunk).length) :
    s.copy chunk = .error .CopyPastEnd := by
  have hcopy := memcpy_eq_error (h.buffer.symm ▸ hpast)
  simp [ReadWriteState.copy, h.transferred, h.processed, hcopy]

theorem HasData.isFinished (h : HasData s field got) : s.isFinished = decide (got.length = load field) := by
  simp [ReadWriteState.isFinished, h.transferred, h.processed, h.dataSize]

end Receive

/-! ### One call -/

/-- What a call does, for the part of the message it leaves and the messages it completes. -/
def Receives (device : ClipboardDevice) (chunk : Bytes) : Option (Reading × List Bytes) → Prop
  | none => device.onReceive chunk = .error .CopyPastEnd
  | some (reading, messages) => ∃ device', device.onReceive chunk = .ok device' ∧
      Reads device'.mGuestReadState reading ∧ device'.fired = device.fired ++ messages ∧
      device'.getContents = messages.getLastD device.getContents

theorem receives_error {device : ClipboardDevice} {chunk : Bytes}
    (hcopy : device.mGuestReadState.beginData.copy chunk = .error .CopyPastEnd) : Receives device chunk none := by
  rw [Receives, ClipboardDevice.onReceive, hcopy]
  rfl

theorem receives_ok {device : ClipboardDevice} {chunk : Bytes} {s' : ReadWriteState} {reading : Reading}
    {messages : List Bytes} (hcopy : device.mGuestReadState.beginData.copy chunk = .ok s')
    (hreads : Reads (device.finish s').mGuestReadState reading)
    (hfired : (device.finish s').fired = device.fired ++ messages)
    (hcontents : (device.finish s').getContents = messages.getLastD device.getContents) :
    Receives device chunk (some (reading, messages)) := by
  refine ⟨device.finish s', ?_, hreads, hfired, hcontents⟩
  rw [ClipboardDevice.onReceive, hcopy]
  rfl

theorem finish_of_unfinished (device : ClipboardDevice) {s' : ReadWriteState} (h : s'.isFinished = false) :
    device.finish s' = { device with mGuestReadState := s' } :=
  if_neg (by simp [h])

theorem receives_data {device : ClipboardDevice} {field got : Bytes}
    (h : HasData device.mGuestReadState.beginData field got) (chunk : Bytes) :
    Receives device chunk (Reading.take field got chunk) := by
  unfold Reading.take
  split
  · exact receives_error (h.copy_error ‹_›)
  · rename_i hfits
    obtain ⟨s', hcopy, hdata⟩ := h.copy (Nat.not_lt.mp hfits)
    have hfinished := hdata.isFinished
    split
    · rename_i hcomplete
      have hbuffer : s'.buffer = got ++ chunk := by
        have hgot := hdata.got
        rwa [hcomplete, ← hdata.buffer, List.take_length] at hgot
      have hfinish : device.finish s' = { device with
          mGuestReadState := ReadWriteState.reset, mClipboardData := s'.buffer
          fired := device.fired ++ [s'.buffer] } := if_pos (by simpa [hcomplete] using hfinished)
      refine receives_ok hcopy ?_ ?_ ?_ <;> rw [hfinish]
      · exact reads_reset
      · simp [hbuffer]
      · simp [ClipboardDevice.getContents, hbuffer]
    · rename_i hmissing
      have hfinish := finish_of_unfinished device (hfinished.trans (decide_eq_false hmissing))
      refine receives_ok hcopy ?_ ?_ ?_ <;> rw [hfinish]
      · exact ⟨hdata, by omega⟩
      · simp
      · rfl

/-- **The device reads like its abstraction**, and refuses no chunk but those that do not fit. -/
theorem onReceive_reads {device : ClipboardDevice} {reading : Reading} (h : Reads device.mGuestReadState reading)
    (chunk : Bytes) : Receives device chunk (reading.receive chunk) := by
  cases reading with
  | data field got =>
    refine receives_data ?_ chunk
    rw [h.1.beginData]
    exact h.1
  | size got =>
    have h : HasSize device.mGuestReadState got := h
    have hle := length_le_of_take h.got
    rw [h.field] at hle
    by_cases hmissing : got.length < 4
    · have hbegin := h.beginData.2 (by omega)
      rw [Reading.receive, if_pos hmissing]
      split
      · exact receives_error (hbegin.symm ▸ h.copy_error ‹_›)
      · rename_i hfits
        obtain ⟨s', hcopy, hsize⟩ := h.copy (Nat.not_lt.mp hfits)
        have hunfinished : s'.isFinished = false := by simp [ReadWriteState.isFinished, hsize.transferred]
        have hfinish := finish_of_unfinished device hunfinished
        refine receives_ok (hbegin.symm ▸ hcopy) ?_ ?_ ?_ <;> rw [hfinish]
        · exact hsize
        · simp
        · rfl
    · rw [Reading.receive, if_neg hmissing]
      exact receives_data (h.beginData.1 (by omega)) chunk

/-- What the host sends is a message of the same form. -/
theorem setContents_sent {device : ClipboardDevice} (henabled : device.mEnabled = true) {contents : Bytes}
    (hsize : contents.length < 2 ^ 32) : (device.setContents contents).sent =
      device.sent ++ [Store32 (UInt32.ofNat contents.length), contents] := by
  have hnat : (UInt32.ofNat contents.length).toNat = contents.length := by
    simpa using Nat.mod_eq_of_lt hsize
  rw [ClipboardDevice.setContents, if_neg (by simp [henabled])]
  dsimp only
  rw [hnat, List.take_length]

end Goldfish.Devices.Clipboard
