import Goldfish.Keyboard.Typing
import Goldfish.Lib.Trace

/-!
# Goldfish.Keyboard.KeyEventSender

The keyboard requests (`KeyEventSender.cpp`): a key by its browser name, a text, or a key
code, each of them pressed, released, or both. The generated tables of names and codes, and
the one that is QEMU's, are a parameter (`Tables`).

A request that presses and releases leaves no key down (`keypress_balanced`), unless it reads
behind the table of characters. `lookup_in_table_iff` says when it does.
-/

namespace Goldfish.Keyboard

open Goldfish.Lib

/-! ### Names and codes -/

/-- A key by what it means: the code point and the two type bits above it. -/
abbrev DomKey := Nat

/-- A key by its place; 0 is no key. -/
abbrev DomCode := Nat

/-- The part of a `DomKey` that is a character. -/
def VALUE_MASK : Nat := 0x1FFFFF

/-- The kind of a `DomKey` that is a character. -/
def TYPE_UNICODE : Nat := 0x400000

/-- The kind of a `DomKey` that is a dead key. -/
def TYPE_DEAD : Nat := 0x600000

/-- No key, among the `DomKey`s and among the `DomCode`s. -/
def NONE : Nat := 0

/-- A line of the table of the keycodes. -/
structure KeycodeMapEntry where
  id : DomCode
  usb : Nat
  evdev : Nat
  xkb : Nat
  win : Nat
  mac : Nat

/-- The tables that are compiled in. -/
structure Tables where
  /-- `dom_key_map`, where an entry may have no name -/
  domKeyMap : List (DomKey × Option (List UInt8))
  /-- `kNonPrintableCodeMap` -/
  nonPrintableCodeMap : List (DomCode × DomKey)
  /-- `usb_keycode_map` -/
  usbKeycodeMap : List KeycodeMapEntry
  /-- `qemu_input_map_linux_to_qcode` -/
  linuxToQcode : List QKeyCode

/-- `KeyCodeType`, which may have other numbers. -/
inductive KeyCodeType where
  | usb | evdev | xkb | win | mac
  | unrecognized (value : Int)
  deriving DecidableEq, Repr

/-- `KeyEventType`, which may have other numbers. -/
inductive KeyEventType where
  | keydown | keyup | keypress
  | unrecognized (value : Int)
  deriving DecidableEq, Repr

/-- `KeyboardEvent`. -/
structure KeyboardEvent where
  codetype : KeyCodeType
  eventtype : KeyEventType
  keycode : Int
  key : List UInt8
  text : List UInt8

variable (tables : Tables)

/-- The table that is indexed by the code. -/
def evdevToQcode (evdev : Nat) : QKeyCode := (tables.linuxToQcode[evdev]?).getD (.other 0)

/-- The code of the first line with this name. -/
def domToEvdev (key : DomCode) : Nat := ((tables.usbKeycodeMap.find? (·.id = key)).map (·.evdev)).getD 0

/-- The column of a code type. -/
def KeyCodeType.column : KeyCodeType → KeycodeMapEntry → Option Nat
  | .usb, entry => some entry.usb
  | .evdev, entry => some entry.evdev
  | .xkb, entry => some entry.xkb
  | .win, entry => some entry.win
  | .mac, entry => some entry.mac
  | .unrecognized _, _ => none

/-- The code of the first line with this keycode. -/
def keycodeToEvdev (code : Nat) (source : KeyCodeType) : Nat :=
  ((tables.usbKeycodeMap.find? fun entry => source.column entry = some code).map (·.evdev)).getD 0

/-- From a keycode of any kind to the one of QEMU. -/
def keycodeToQcode (code : Nat) (source : KeyCodeType) : QKeyCode :=
  evdevToQcode tables (keycodeToEvdev tables code source)

/-- How many continuation bytes a first byte announces, and its bits of the code point. -/
def firstByteBits (firstByte : UInt8) : Option (Nat × Nat) :=
  if firstByte < 0x80 then some (0, firstByte.toNat)
  else if firstByte &&& 0xE0 = 0xC0 then some (1, (firstByte &&& 0x1F).toNat)
  else if firstByte &&& 0xF0 = 0xE0 then some (2, (firstByte &&& 0x0F).toNat)
  else if firstByte &&& 0xF8 = 0xF0 then some (3, (firstByte &&& 0x07).toNat)
  else if firstByte &&& 0xFC = 0xF8 then some (4, (firstByte &&& 0x03).toNat)
  else if firstByte &&& 0xFE = 0xFC then some (5, (firstByte &&& 0x01).toNat)
  else none

/-- `DomKey::FromCharacter` -/
def fromCharacter : List UInt8 → DomKey
  | [] => NONE
  | firstByte :: rest =>
    match firstByteBits firstByte with
    | none => NONE
    | some (numContinuationBytes, bits) =>
      if rest.length ≠ numContinuationBytes then NONE
      else if rest.any (· &&& 0xC0 ≠ 0x80) then NONE
      else TYPE_UNICODE ||| rest.foldl (fun codepoint b => codepoint <<< 6 ||| (b &&& 0x3F).toNat) bits

/-- `browserKeyToDomKey`. -/
def browserKeyToDomKey (key : List UInt8) : DomKey :=
  if key = [] then NONE
  else
    match tables.domKeyMap.find? (·.2 = some key) with
    | some entry => entry.1
    | none =>
      if key = ['D', 'e', 'a', 'd'].map Char.toUInt8 then TYPE_DEAD ||| 0xFFFF
      else if key.length = 1 then fromCharacter key
      else NONE

/-- `domKeyAsNonPrintableDomCode`. -/
def domKeyAsNonPrintableDomCode (key : DomKey) : DomCode :=
  ((tables.nonPrintableCodeMap.find? (·.2 = key)).map (·.1)).getD NONE

/-! ### Requests -/

/-- The event lets a key go down. -/
def KeyEventType.presses (eventType : KeyEventType) : Bool := eventType = .keydown || eventType = .keypress

/-- The event lets a key go up. -/
def KeyEventType.releases (eventType : KeyEventType) : Bool := eventType = .keyup || eventType = .keypress

/-- `sendKeyCode`. -/
def sendKeyCode (code : Nat) (codeType : KeyCodeType) (eventType : KeyEventType) : List QemuKeyEvent :=
  let qcode := keycodeToQcode tables code codeType
  (if eventType.presses then [⟨qcode, true⟩] else []) ++ (if eventType.releases then [⟨qcode, false⟩] else [])

/-- A character, by its own scans for going down and for going up. -/
def sendKeyCharacter (behind : Behind) (character : UInt16) (eventType : KeyEventType) :
    Except Fault (List QemuKeyEvent) :=
  match if eventType.presses then asciiToQcode behind character true else some [],
      if eventType.releases then asciiToQcode behind character false else some [] with
  | some down, some up => .ok (down ++ up)
  | _, _ => .error .outOfBounds

/-- What a request's key comes to. -/
inductive KeyAction where
  | nothing
  /-- the request is ignored altogether -/
  | ignored
  | character (character : UInt16)
  | code (code : DomCode)
  deriving DecidableEq, Repr

/-- What `doSend` does for the name of a key. -/
def keyAction (key : List UInt8) : KeyAction :=
  let domkey := browserKeyToDomKey tables key
  if domkey = NONE then .nothing
  else
    let code := domKeyAsNonPrintableDomCode tables domkey
    if code = NONE then
      let character := domkey &&& VALUE_MASK
      if character > 0xFF then .ignored else .character character.toUInt16
    else .code code

/-- `doSend`, for the text of a request. -/
def sendText (behind : Behind) (text : List UInt8) : Except Fault (List QemuKeyEvent) :=
  if text = [] then .ok [] else sendUtf8String behind text

/-- The part of `doSend` behind the key. -/
def sendTextAndCode (behind : Behind) (request : KeyboardEvent) : Except Fault (List QemuKeyEvent) := do
  let text ← sendText behind request.text
  let code := if 0 < request.keycode then
      sendKeyCode tables request.keycode.toNat request.codetype request.eventtype
    else []
  return text ++ code

/-- `doSend`: the key, then the text, then the keycode. -/
def doSend (behind : Behind) (request : KeyboardEvent) : Except Fault (List QemuKeyEvent) :=
  match keyAction tables request.key with
  | .ignored => .ok []
  | .nothing => sendTextAndCode tables behind request
  | .character character => do
      let events ← sendKeyCharacter behind character request.eventtype
      return events ++ (← sendTextAndCode tables behind request)
  | .code code => do
      let events := sendKeyCode tables (domToEvdev tables code) .evdev request.eventtype
      return events ++ (← sendTextAndCode tables behind request)

/-- The requests one after the other. -/
def sendAll (behind : Behind) : List KeyboardEvent → Except Fault (List QemuKeyEvent)
  | [] => .ok []
  | request :: requests => do
      let events ← doSend tables behind request
      return events ++ (← sendAll behind requests)

/-! ### The keys that are down -/

/-- The keys that are down after an event. -/
def press (held : QKeyCode → Bool) (event : QemuKeyEvent) : QKeyCode → Bool :=
  fun code => if code = event.code then event.down else held code

/-- The keys that are down after some events. -/
def keysHeld (held : QKeyCode → Bool) (events : List QemuKeyEvent) : QKeyCode → Bool := events.foldl press held

/-- Events that leave no key down that has not been down before. -/
def Balanced (events : List QemuKeyEvent) : Prop :=
  ∀ held code, keysHeld held events code = true → held code = true

section Held

variable {tables} {behind : Behind} {events events' : List QemuKeyEvent}

@[simp] theorem keysHeld_nil (held : QKeyCode → Bool) : keysHeld held [] = held := rfl

@[simp] theorem keysHeld_cons (held : QKeyCode → Bool) (event : QemuKeyEvent) (events : List QemuKeyEvent) :
    keysHeld held (event :: events) = keysHeld (press held event) events := rfl

@[simp] theorem keysHeld_append (held : QKeyCode → Bool) (events events' : List QemuKeyEvent) :
    keysHeld held (events ++ events') = keysHeld (keysHeld held events) events' := List.foldl_append

theorem balanced_nil : Balanced [] := fun _ _ h => h

theorem Balanced.append (h : Balanced events) (h' : Balanced events') : Balanced (events ++ events') := by
  intro held code hheld
  rw [keysHeld_append] at hheld
  exact h held code (h' _ code hheld)

/-- Keys that go down. -/
theorem keysHeld_down (held : QKeyCode → Bool) (keys : List QKeyCode) (code : QKeyCode) :
    keysHeld held (keys.map (⟨·, true⟩)) code = (held code || decide (code ∈ keys)) := by
  induction keys generalizing held with
  | nil => simp
  | cons key keys ih =>
    rw [List.map_cons, keysHeld_cons, ih, press]
    by_cases h : code = key
    · simp [h]
    · simp [h]

/-- Keys that go up. -/
theorem keysHeld_up (held : QKeyCode → Bool) (keys : List QKeyCode) (code : QKeyCode) :
    keysHeld held (keys.map (⟨·, false⟩)) code = (held code && decide (code ∉ keys)) := by
  induction keys generalizing held with
  | nil => simp
  | cons key keys ih =>
    rw [List.map_cons, keysHeld_cons, ih, press]
    by_cases h : code = key
    · simp [h]
    · simp [h]

/-- Keys that go down and up again. -/
theorem balanced_strokes (keys : List QKeyCode) : Balanced (strokes keys true ++ strokes keys false) := by
  intro held code hheld
  rw [keysHeld_append, strokes, strokes, if_pos rfl, if_neg Bool.false_ne_true, keysHeld_up, keysHeld_down] at hheld
  by_cases h : code ∈ keys
  · simp [h] at hheld
  · simpa [h] using hheld

theorem sendKeyCharacter_balanced {character : UInt16}
    (h : sendKeyCharacter behind character .keypress = .ok events) : Balanced events := by
  obtain ⟨keys, hkeys⟩ := asciiToQcode_strokes behind character
  have hboth : KeyEventType.presses .keypress = true ∧ KeyEventType.releases .keypress = true := ⟨rfl, rfl⟩
  rw [sendKeyCharacter, if_pos hboth.1, if_pos hboth.2, hkeys, hkeys] at h
  cases keys with
  | none => cases h
  | some keys =>
    obtain rfl := Except.ok.inj h
    exact balanced_strokes keys

theorem sendCharacter_balanced {c : UInt8} (h : sendCharacter behind c = .ok events) : Balanced events :=
  sendKeyCharacter_balanced h

theorem sendFrom_balanced {utf8 : List UInt8} {start stop : Nat}
    (h : sendFrom (sendCharacter behind) utf8 start stop = .ok events) : Balanced events := by
  induction start, stop using sendFrom.induct (sendCharacter behind) utf8 generalizing events with
  | case1 start stop hread =>
    rw [sendFrom, hread] at h
    cases h
  | case2 start stop hread =>
    rw [sendFrom, hread] at h
    obtain rfl := Except.ok.inj h
    exact balanced_nil
  | case3 start stop ch hread hne hlead hstart =>
    rw [sendFrom, hread] at h
    simp only [if_neg hne, if_pos hlead, if_pos hstart] at h
    cases h
  | case4 start stop ch hread hne hlead hstart hlength =>
    rw [sendFrom, hread] at h
    simp only [if_neg hne, if_pos hlead, if_neg hstart, if_pos hlength] at h
    cases h
  | case5 start stop ch hread hne hlead hstart hlength hnone =>
    rw [sendFrom, hread] at h
    simp only [if_neg hne, if_pos hlead, if_neg hstart, if_neg hlength, hnone] at h
    cases h
  | case6 start stop ch hread hne hlead hstart hlength c hc fault hsend =>
    rw [sendFrom, hread] at h
    simp only [if_neg hne, if_pos hlead, if_neg hstart, if_neg hlength, hc, hsend] at h
    cases h
  | case7 start stop ch hread hne hlead hstart hlength c hc sent hsend ih =>
    rw [sendFrom, hread] at h
    simp only [if_neg hne, if_pos hlead, if_neg hstart, if_neg hlength, hc, hsend] at h
    obtain ⟨rest, hrest, rfl⟩ := map_eq_ok.mp h
    exact (sendCharacter_balanced hsend).append (ih hrest)
  | case8 start stop ch hread hne hcont ih =>
    rw [sendFrom, hread] at h
    simp only [if_neg hne, if_neg hcont] at h
    exact ih h

theorem sendKeyCode_balanced (code : Nat) (codeType : KeyCodeType) :
    Balanced (sendKeyCode tables code codeType .keypress) := balanced_strokes [_]

theorem sendText_balanced {text : List UInt8} (h : sendText behind text = .ok events) : Balanced events := by
  unfold sendText at h
  split at h
  · obtain rfl := Except.ok.inj h
    exact balanced_nil
  · exact sendFrom_balanced h

theorem sendTextAndCode_balanced {request : KeyboardEvent} (hpress : request.eventtype = .keypress)
    (h : sendTextAndCode tables behind request = .ok events) : Balanced events := by
  unfold sendTextAndCode at h
  obtain ⟨text, htext, h⟩ := bind_eq_ok.mp h
  obtain rfl := pure_eq_ok.mp h
  refine (sendText_balanced htext).append ?_
  split
  · rw [hpress]
    exact sendKeyCode_balanced _ _
  · exact balanced_nil

/-- **A key that is pressed and released is up again**, whatever is behind the table. -/
theorem keypress_balanced {request : KeyboardEvent} (hpress : request.eventtype = .keypress)
    (h : doSend tables behind request = .ok events) : Balanced events := by
  unfold doSend at h
  cases haction : keyAction tables request.key with
  | ignored =>
    rw [haction] at h
    obtain rfl := Except.ok.inj h
    exact balanced_nil
  | nothing =>
    rw [haction] at h
    exact sendTextAndCode_balanced hpress h
  | character character =>
    rw [haction, hpress] at h
    obtain ⟨sent, hsent, h⟩ := bind_eq_ok.mp h
    obtain ⟨rest, hrest, h⟩ := bind_eq_ok.mp h
    obtain rfl := pure_eq_ok.mp h
    exact (sendKeyCharacter_balanced hsent).append (sendTextAndCode_balanced hpress hrest)
  | code code =>
    rw [haction, hpress] at h
    obtain ⟨rest, hrest, h⟩ := bind_eq_ok.mp h
    obtain rfl := pure_eq_ok.mp h
    exact (sendKeyCode_balanced _ _).append (sendTextAndCode_balanced hpress hrest)

/-- Over a whole run. -/
theorem keypresses_balanced {requests : List KeyboardEvent}
    (hpress : ∀ request ∈ requests, request.eventtype = .keypress)
    (h : sendAll tables behind requests = .ok events) : Balanced events := by
  induction requests generalizing events with
  | nil =>
    obtain rfl := Except.ok.inj h
    exact balanced_nil
  | cons request requests ih =>
    obtain ⟨hfirst, hpress⟩ := List.forall_mem_cons.mp hpress
    obtain ⟨sent, hsent, h⟩ := bind_eq_ok.mp h
    obtain ⟨rest, hrest, h⟩ := bind_eq_ok.mp h
    obtain rfl := pure_eq_ok.mp h
    exact (keypress_balanced hfirst hsent).append (ih hpress hrest)

end Held

/-! ### Requests that stay in the table -/

/-- Every character that is looked up for a text is on a key by itself. -/
def TextInTable (text : List UInt8) : Prop := ∀ c ∈ text.takeWhile (· ≠ 0), IsBase (toUnsignedShort c)

/-- Every character that is looked up for a request is on a key by itself. -/
def InTable (request : KeyboardEvent) : Prop :=
  match keyAction tables request.key with
  | .ignored => True
  | .character character => IsBase character ∧ TextInTable request.text
  | .nothing | .code _ => TextInTable request.text

section InTable

variable {tables} (behind : Behind)

theorem sendFrom_inTable (before : List UInt8) {text : List UInt8} (h : TextInTable text) :
    ∃ events, sendFrom (sendCharacter behind) (before ++ text) before.length before.length = .ok events := by
  induction text generalizing before with
  | nil =>
    refine ⟨[], ?_⟩
    rw [List.append_nil, sendFrom, charAt_length]
    rfl
  | cons b text ih =>
    by_cases hnul : b = 0
    · refine ⟨[], ?_⟩
      rw [sendFrom, charAt_append]
      exact if_pos hnul
    · rw [TextInTable, List.takeWhile_cons_of_pos (by simpa using hnul), List.forall_mem_cons] at h
      have hlead : b &&& 0xC0 ≠ 0x80 := by
        intro hcont
        exact not_isBase_of_le (toNat_of_and_high hcont) h.1
      have hstart : PointsTo before before.length none := rfl
      obtain ⟨events, hrest⟩ := ih (before ++ [b]) h.2
      rw [List.append_assoc, List.singleton_append, List.length_append, List.length_singleton] at hrest
      rw [sendFrom_lead hstart hnul hlead, Option.getD_none,
        sendCharacter_of_keys (asciiToQcode_of_isBase h.1 behind), hrest]
      exact ⟨_, rfl⟩

theorem sendTextAndCode_inTable (tables : Tables) {request : KeyboardEvent} (h : TextInTable request.text) :
    ∃ events, sendTextAndCode tables behind request = .ok events := by
  have htext : ∃ text, sendText behind request.text = .ok text := by
    rw [sendText]
    split
    · exact ⟨[], rfl⟩
    · exact sendFrom_inTable behind [] h
  obtain ⟨text, htext⟩ := htext
  rw [sendTextAndCode, htext]
  exact ⟨_, rfl⟩

theorem sendKeyCharacter_inTable {character : UInt16} (h : IsBase character) (eventType : KeyEventType) :
    ∃ events, sendKeyCharacter behind character eventType = .ok events := by
  have hscan : ∀ wanted down, ∃ events,
      (if wanted = true then asciiToQcode behind character down else some []) = some events := by
    intro wanted down
    cases wanted with
    | false => exact ⟨[], rfl⟩
    | true => exact ⟨_, asciiToQcode_of_isBase h behind down⟩
  obtain ⟨down, hdown⟩ := hscan eventType.presses true
  obtain ⟨up, hup⟩ := hscan eventType.releases false
  rw [sendKeyCharacter, hdown, hup]
  exact ⟨_, rfl⟩

theorem doSend_inTable {request : KeyboardEvent} (h : InTable tables request) :
    ∃ events, doSend tables behind request = .ok events := by
  unfold InTable at h
  unfold doSend
  cases haction : keyAction tables request.key with
  | ignored => exact ⟨[], rfl⟩
  | nothing =>
    rw [haction] at h
    exact sendTextAndCode_inTable behind tables h
  | character character =>
    rw [haction] at h
    obtain ⟨sent, hsent⟩ := sendKeyCharacter_inTable behind h.1 request.eventtype
    obtain ⟨rest, hrest⟩ := sendTextAndCode_inTable behind tables h.2
    exact ⟨sent ++ rest, bind_eq_ok.mpr ⟨sent, hsent, bind_eq_ok.mpr ⟨rest, hrest, rfl⟩⟩⟩
  | code code =>
    rw [haction] at h
    obtain ⟨rest, hrest⟩ := sendTextAndCode_inTable behind tables h
    exact ⟨_, bind_eq_ok.mpr ⟨rest, hrest, rfl⟩⟩

theorem sendAll_inTable {requests : List KeyboardEvent} (h : ∀ request ∈ requests, InTable tables request) :
    ∃ events, sendAll tables behind requests = .ok events := by
  induction requests with
  | nil => exact ⟨[], rfl⟩
  | cons request requests ih =>
    obtain ⟨hfirst, h⟩ := List.forall_mem_cons.mp h
    obtain ⟨sent, hsent⟩ := doSend_inTable behind hfirst
    obtain ⟨rest, hrest⟩ := ih h
    exact ⟨sent ++ rest, bind_eq_ok.mpr ⟨sent, hsent, bind_eq_ok.mpr ⟨rest, hrest, rfl⟩⟩⟩

end InTable

/-- **Looking up a character.** Both lookups stay in the table, and find the keys of the first entry that matches,
if and only if the character is on a key by itself. Requests that press and release, and look up only such
characters, leave no key down. -/
theorem lookup_in_table_iff (tables : Tables) :
    (∀ unicode,
      (asciiToQcode trap unicode true = some ((keysFor unicode).map (⟨·, true⟩)) ∧
        asciiToQcode trap unicode false = some ((keysFor unicode).reverse.map (⟨·, false⟩))) ↔ IsBase unicode) ∧
    ∀ requests : List KeyboardEvent,
      (∀ request ∈ requests, request.eventtype = .keypress ∧ InTable tables request) →
        ∃ events, sendAll tables trap requests = .ok events ∧
          ∀ code, keysHeld (fun _ => false) events code = false := by
  refine ⟨fun unicode => ⟨fun h => ?_, fun h => ?_⟩, fun requests h => ?_⟩
  · by_contra hbase
    rw [asciiToQcode_trap hbase] at h
    cases h.1
  · exact ⟨asciiToQcode_of_isBase h trap true, asciiToQcode_of_isBase h trap false⟩
  · obtain ⟨events, hevents⟩ := sendAll_inTable trap fun request hrequest => (h request hrequest).2
    refine ⟨events, hevents, fun code => ?_⟩
    have hbalanced := keypresses_balanced (fun request hrequest => (h request hrequest).1) hevents
    rw [Bool.eq_false_iff]
    exact fun hheld => Bool.false_ne_true (hbalanced _ code hheld)

/-- Names and codes that the requests below do not use. -/
def noTables : Tables := ⟨[], [], [], []⟩

/-- The key `a`, with the text `b`. -/
def keyAndText : KeyboardEvent := ⟨.evdev, .keypress, 0, ['a'.toUInt8], ['b'.toUInt8]⟩

theorem plain_keys_released :
    asciiToQcode trap (ascii 'a') false = some [⟨.a, false⟩] ∧
      ∃ events, sendAll noTables trap [keyAndText, keyAndText] = .ok events ∧
        ∀ code, keysHeld (fun _ => false) events code = false := by
  obtain ⟨hlookup, hrun⟩ := lookup_in_table_iff noTables
  have haction : keyAction noTables keyAndText.key = .character (ascii 'a') := by decide
  have hin : InTable noTables keyAndText := by
    rw [InTable, haction]
    exact ⟨by decide, List.forall_mem_singleton.mpr (by decide)⟩
  refine ⟨((hlookup (ascii 'a')).mpr (by decide)).2, hrun _ ?_⟩
  intro request hrequest
  obtain rfl : request = keyAndText := by simpa using hrequest
  exact ⟨rfl, hin⟩

/-- A capital letter is searched for behind the table before its key is found. -/
theorem capital_leaves_the_table :
    asciiToQcode trap (ascii 'A') true = none ∧ asciiToQcode trap (ascii 'A') false = none ∧
      keysFor (ascii 'A') = [.shift, .a] :=
  ⟨asciiToQcode_trap (by decide) true, asciiToQcode_trap (by decide) false, by decide⟩

end Goldfish.Keyboard
