import Goldfish.Devices.Clipboard

/-!
# Goldfish.Devices.ClipboardStream

**Which cuts of the guest's stream the clipboard device can receive.** It fires exactly
the messages of the stream, and copies nothing past an end, if and only if the stream is
cut at the end of every size field and of every message, with a chunk of its own for the
data of an empty message (`protocol_iff_cut`). Two messages in one chunk, or a size and
its data, overrun the four bytes of the size field (`joined_chunk`); an empty message is
not noticed before the next chunk arrives.
-/

namespace Goldfish.Devices.Clipboard

open Goldfish.Lib

/-- A message of the guest in the stream. -/
def frame (message : Bytes) : Bytes := Store32 (UInt32.ofNat message.length) ++ message

/-- Where the chunks end. Empty chunks may stand anywhere. -/
inductive Cut : List Bytes → List Bytes → Prop
  | nil (chunks : List Bytes) (hempty : ∀ c ∈ chunks, c = []) : Cut [] chunks
  | cons (message : Bytes) (messages field data rest : List Bytes)
      (hfield : field.flatten = Store32 (UInt32.ofNat message.length)) (hdata : data ≠ [])
      (hmessage : data.flatten = message) (hrest : Cut messages rest) :
      Cut (message :: messages) (field ++ data ++ rest)

/-- The chunks are received, and the device has fired the messages and keeps the last one. -/
def Protocol (messages chunks : List Bytes) : Prop :=
  ∃ device, ClipboardDevice.receiveAll chunks = .ok device ∧ device.fired = messages ∧
    ∀ message, messages.getLast? = some message → device.getContents = message

/-! ### All chunks -/

/-- What is read from chunks, one after the other. -/
def Reading.receiveAll : Reading → List Bytes → Option (Reading × List Bytes)
  | reading, [] => some (reading, [])
  | reading, chunk :: chunks =>
    (reading.receive chunk).bind fun first =>
      (first.1.receiveAll chunks).map fun later => (later.1, first.2 ++ later.2)

theorem receiveAll_append (reading : Reading) (a b : List Bytes) : reading.receiveAll (a ++ b) =
    (reading.receiveAll a).bind fun first =>
      (first.1.receiveAll b).map fun later => (later.1, first.2 ++ later.2) := by
  induction a generalizing reading with
  | nil => simp [Reading.receiveAll]
  | cons c a ih =>
    simp only [List.cons_append, Reading.receiveAll]
    cases reading.receive c with
    | none => rfl
    | some first =>
      simp only [Option.bind_some, ih]
      cases first.1.receiveAll a with
      | none => rfl
      | some second => simp [List.append_assoc, Function.comp_def]

theorem receiveAll_reads (chunks : List Bytes) {device : ClipboardDevice} {reading : Reading}
    (h : Reads device.mGuestReadState reading) :
    match reading.receiveAll chunks with
    | none => chunks.foldlM ClipboardDevice.onReceive device = .error .CopyPastEnd
    | some (reading', messages) => ∃ device', chunks.foldlM ClipboardDevice.onReceive device = .ok device' ∧
        Reads device'.mGuestReadState reading' ∧ device'.fired = device.fired ++ messages ∧
        device'.getContents = messages.getLastD device.getContents := by
  induction chunks generalizing device reading with
  | nil => exact ⟨device, rfl, h, (List.append_nil _).symm, rfl⟩
  | cons c chunks ih =>
    have hone := onReceive_reads h c
    rw [Reading.receiveAll]
    cases hreceive : reading.receive c with
    | none =>
      rw [hreceive] at hone
      simp only [Option.bind_none, List.foldlM_cons]
      rw [hone]
      rfl
    | some first =>
      rw [hreceive] at hone
      obtain ⟨device₁, hok, hreads, hfired, hcontents⟩ := hone
      have hall := ih hreads
      simp only [Option.bind_some, List.foldlM_cons, hok, ok_bind]
      cases hlater : first.1.receiveAll chunks with
      | none =>
        rw [hlater] at hall
        simpa using hall
      | some later =>
        rw [hlater] at hall
        obtain ⟨device', hok', hreads', hfired', hcontents'⟩ := hall
        refine ⟨device', hok', hreads', ?_, ?_⟩
        · rw [hfired', hfired, List.append_assoc]
        · rw [hcontents', hcontents]
          simp only [List.getLastD_eq_getLast?, List.getLast?_append]
          cases later.2.getLast? <;> rfl

/-- The device and its abstraction, from the start. -/
theorem protocol_iff_receiveAll (messages chunks : List Bytes) :
    Protocol messages chunks ↔ ∃ reading, (Reading.size []).receiveAll chunks = some (reading, messages) := by
  have hall := receiveAll_reads chunks (show Reads ClipboardDevice.initial.mGuestReadState _ from reads_reset)
  cases hreceive : (Reading.size []).receiveAll chunks with
  | none =>
    rw [hreceive] at hall
    refine iff_of_false ?_ nofun
    rintro ⟨device, hok, -⟩
    rw [ClipboardDevice.receiveAll, hall] at hok
    cases hok
  | some later =>
    rw [hreceive] at hall
    obtain ⟨device, hok, -, hfired, hcontents⟩ := hall
    constructor
    · rintro ⟨device', hok', hfired', -⟩
      obtain rfl := Except.ok.inj (hok.symm.trans hok')
      refine ⟨later.1, ?_⟩
      rw [← hfired', hfired]
      rfl
    · rintro ⟨reading, heq⟩
      obtain rfl := Option.some.inj heq
      refine ⟨device, hok, hfired, fun message hlast => ?_⟩
      rw [hcontents, List.getLastD_eq_getLast?, hlast]
      rfl

/-! ### A stream that is cut well is read -/

/-- Empty chunks while data is missing. -/
theorem receiveAll_data_empty {field : Bytes} (got : Bytes) (hmissing : got.length < load field) {chunks : List Bytes}
    (hempty : ∀ c ∈ chunks, c = []) : (Reading.data field got).receiveAll chunks = some (.data field got, []) := by
  induction chunks with
  | nil => rfl
  | cons c chunks ih =>
    obtain rfl := hempty c List.mem_cons_self
    have hreceive : (Reading.data field got).receive [] = some (.data field got, []) := by
      simp only [Reading.receive, Reading.take, List.append_nil]
      rw [if_neg (by omega), if_neg (by omega)]
    rw [Reading.receiveAll, hreceive, Option.bind_some, ih fun d hd => hempty d (List.mem_cons_of_mem _ hd)]
    rfl

/-- Empty chunks before a message. -/
theorem receiveAll_size_empty {chunks : List Bytes} (hempty : ∀ c ∈ chunks, c = []) :
    (Reading.size []).receiveAll chunks = some (.size [], []) := by
  induction chunks with
  | nil => rfl
  | cons c chunks ih =>
    obtain rfl := hempty c List.mem_cons_self
    have hreceive : (Reading.size []).receive [] = some (.size [], []) := rfl
    rw [Reading.receiveAll, hreceive, Option.bind_some, ih fun d hd => hempty d (List.mem_cons_of_mem _ hd)]
    rfl

theorem empty_of_flatten {chunks : List Bytes} (h : chunks.flatten = []) : ∀ c ∈ chunks, c = [] := by
  simpa using h

/-- The chunks of the data, behind what has arrived of it. -/
theorem receiveAll_data {field message : Bytes} (got : Bytes) {chunks : List Bytes}
    (hmissing : got.length < load field) (hmessage : got ++ chunks.flatten = message)
    (hlength : message.length = load field) :
    (Reading.data field got).receiveAll chunks = some (.size [], [message]) := by
  induction chunks generalizing got with
  | nil =>
    rw [List.flatten_nil, List.append_nil] at hmessage
    rw [hmessage] at hmissing
    omega
  | cons c chunks ih =>
    rw [List.flatten_cons, ← List.append_assoc] at hmessage
    have hfits : (got ++ c).length ≤ load field := by
      rw [← hlength, ← hmessage]
      exact (List.prefix_append _ _).length_le
    rw [Reading.receiveAll, Reading.receive, Reading.take, if_neg (by omega)]
    by_cases hcomplete : (got ++ c).length = load field
    · have hrest : chunks.flatten = [] := by
        have hlengths := congrArg List.length hmessage
        rw [List.length_append, hcomplete, hlength] at hlengths
        exact List.eq_nil_of_length_eq_zero (by omega)
      rw [if_pos hcomplete, Option.bind_some, receiveAll_size_empty (empty_of_flatten hrest)]
      rw [hrest, List.append_nil] at hmessage
      simp [hmessage]
    · rw [if_neg hcomplete, Option.bind_some, ih _ (by omega) hmessage]
      rfl

/-- The chunks of the size field. An empty chunk behind it begins the data, and completes an empty message. -/
theorem receiveAll_field {size : Bytes} (got : Bytes) {chunks : List Bytes} (hfield : got ++ chunks.flatten = size)
    (hlength : size.length = 4) :
    (Reading.size got).receiveAll chunks = some (.size size, []) ∨
      (0 < load size ∧ (Reading.size got).receiveAll chunks = some (.data size [], [])) ∨
      (load size = 0 ∧ (Reading.size got).receiveAll chunks = some (.size [], [[]])) := by
  induction chunks generalizing got with
  | nil =>
    rw [List.flatten_nil, List.append_nil] at hfield
    exact .inl (hfield ▸ rfl)
  | cons c chunks ih =>
    rw [List.flatten_cons, ← List.append_assoc] at hfield
    have hfits : (got ++ c).length ≤ 4 := by
      rw [← hlength, ← hfield]
      exact (List.prefix_append _ _).length_le
    by_cases hmissing : got.length < 4
    · have hreceive : (Reading.size got).receive c = some (.size (got ++ c), []) := by
        rw [Reading.receive, if_pos hmissing, if_neg (by omega)]
      simpa [Reading.receiveAll, hreceive] using ih _ hfield
    · have hlengths := congrArg List.length hfield
      rw [List.length_append, List.length_append, hlength] at hlengths
      obtain rfl : c = [] := List.eq_nil_of_length_eq_zero (by omega)
      have hrest : chunks.flatten = [] := List.eq_nil_of_length_eq_zero (by omega)
      obtain rfl : got = size := by simpa [hrest] using hfield
      refine .inr ?_
      rcases Nat.eq_zero_or_pos (load got) with hzero | hpos
      · have hreceive : (Reading.size got).receive [] = some (.size [], [[]]) := by
          rw [Reading.receive, if_neg hmissing]
          simp [Reading.take, hzero]
        refine .inr ⟨hzero, ?_⟩
        rw [Reading.receiveAll, hreceive, Option.bind_some, receiveAll_size_empty (empty_of_flatten hrest)]
        rfl
      · have hreceive : (Reading.size got).receive [] = some (.data got [], []) := by
          rw [Reading.receive, if_neg hmissing]
          simp [Reading.take, Nat.ne_of_lt hpos]
        refine .inl ⟨hpos, ?_⟩
        rw [Reading.receiveAll, hreceive, Option.bind_some, receiveAll_data_empty [] hpos (empty_of_flatten hrest)]
        rfl

/-- One message. -/
theorem receiveAll_message {field data : List Bytes} {size message : Bytes} (hfield : field.flatten = size)
    (hsize : size.length = 4) (hlength : message.length = load size) (hdata : data ≠ [])
    (hmessage : data.flatten = message) :
    (Reading.size []).receiveAll (field ++ data) = some (.size [], [message]) := by
  rw [receiveAll_append]
  rcases receiveAll_field [] hfield hsize with hcomplete | ⟨hpos, hbegun⟩ | ⟨hzero, hfired⟩
  · rw [hcomplete, Option.bind_some]
    obtain ⟨c, chunks, rfl⟩ := List.exists_cons_of_ne_nil hdata
    -- the first chunk of the data begins it
    have hbegins : (Reading.size size).receive c = Reading.take size [] c := if_neg (by omega)
    rcases Nat.eq_zero_or_pos (load size) with hzero | hpos
    · obtain rfl : message = [] := List.eq_nil_of_length_eq_zero (hlength.trans hzero)
      have hempty := empty_of_flatten hmessage
      obtain rfl := hempty c List.mem_cons_self
      rw [Reading.receiveAll, hbegins, Reading.take, if_neg (by simp), if_pos (by simp [hzero]), Option.bind_some,
        receiveAll_size_empty fun d hd => hempty d (List.mem_cons_of_mem _ hd)]
      rfl
    · have hjoined : [] ++ (c :: chunks).flatten = message := hmessage
      have hall := receiveAll_data [] hpos hjoined hlength
      rw [Reading.receiveAll, Reading.receive] at hall
      rw [Reading.receiveAll, hbegins, hall]
      rfl
  · rw [hbegun, Option.bind_some, receiveAll_data [] hpos hmessage hlength]
    rfl
  · obtain rfl : message = [] := List.eq_nil_of_length_eq_zero (hlength.trans hzero)
    rw [hfired, Option.bind_some, receiveAll_size_empty (empty_of_flatten hmessage)]
    rfl

theorem load_frame {message : Bytes} (hsize : message.length < 2 ^ 32) :
    message.length = load (Store32 (UInt32.ofNat message.length)) := by
  rw [load_Store32]
  simpa using (Nat.mod_eq_of_lt hsize).symm

theorem receiveAll_of_cut {messages chunks : List Bytes} (h : Cut messages chunks)
    (hsizes : ∀ message ∈ messages, message.length < 2 ^ 32) :
    ∃ reading, (Reading.size []).receiveAll chunks = some (reading, messages) := by
  induction h with
  | nil chunks hempty => exact ⟨_, receiveAll_size_empty hempty⟩
  | cons message messages field data rest hfield hdata hmessage hrest ih =>
    obtain ⟨reading, hall⟩ := ih fun m hm => hsizes m (List.mem_cons_of_mem _ hm)
    have hone := receiveAll_message hfield rfl (load_frame (hsizes message List.mem_cons_self)) hdata hmessage
    refine ⟨reading, ?_⟩
    rw [receiveAll_append, hone, Option.bind_some, hall]
    rfl

/-! ### A stream that is read is cut well -/

theorem Cut.prepend {messages chunks : List Bytes} (h : Cut messages chunks) {empties : List Bytes}
    (hempty : ∀ c ∈ empties, c = []) : Cut messages (empties ++ chunks) := by
  cases h with
  | nil _ hchunks =>
    refine .nil _ fun c hc => ?_
    rcases List.mem_append.mp hc with hc | hc
    · exact hempty c hc
    · exact hchunks c hc
  | cons message messages field data rest hfield hdata hmessage hrest =>
    have hflatten : empties.flatten = [] := by simpa using hempty
    have hcut := Cut.cons message messages (empties ++ field) data rest (by simp [hflatten, hfield]) hdata hmessage
      hrest
    simpa using hcut

theorem Cut.append {messages messages' chunks chunks' : List Bytes} (h : Cut messages chunks)
    (h' : Cut messages' chunks') : Cut (messages ++ messages') (chunks ++ chunks') := by
  induction h with
  | nil chunks hempty => exact h'.prepend hempty
  | cons message messages field data rest hfield hdata hmessage hrest ih =>
    rw [List.append_assoc]
    exact .cons message _ field data _ hfield hdata hmessage ih

theorem Cut.flatten {messages chunks : List Bytes} (h : Cut messages chunks) :
    chunks.flatten = messages.flatMap frame := by
  induction h with
  | nil chunks hempty => simpa using hempty
  | cons message messages field data rest hfield hdata hmessage hrest ih =>
    simp [hfield, hmessage, ih, frame]

theorem cut_one {field data : List Bytes} (hlength : field.flatten.length = 4) (hdata : data ≠ [])
    (hcomplete : data.flatten.length = load field.flatten) : Cut [data.flatten] (field ++ data) := by
  have hlt := load_lt hlength
  have hfield : field.flatten = Store32 (UInt32.ofNat data.flatten.length) :=
    eq_Store32_of_load hlength (by rw [hcomplete]; simpa using (Nat.mod_eq_of_lt hlt).symm)
  have hcut := Cut.cons data.flatten [] field data [] hfield hdata rfl (.nil [] nofun)
  rwa [List.append_nil] at hcut

/-- The chunks that the part of a message came in. -/
def Tail (tail : List Bytes) : Reading → Prop
  | .size got => tail.flatten = got ∧ got.length ≤ 4
  | .data size got => ∃ field data, tail = field ++ data ∧ field.flatten = size ∧ size.length = 4 ∧
      data ≠ [] ∧ data.flatten = got

/-- One more chunk, behind the field and the data so far. -/
theorem take_tail {field : List Bytes} (data : List Bytes) {chunk : Bytes} {later : Reading} {fired : List Bytes}
    (hlength : field.flatten.length = 4)
    (htake : Reading.take field.flatten data.flatten chunk = some (later, fired)) :
    ∃ cut tail, field ++ data ++ [chunk] = cut ++ tail ∧ Cut fired cut ∧ Tail tail later := by
  have hconcat : data.flatten ++ chunk = (data ++ [chunk]).flatten := by simp
  unfold Reading.take at htake
  rw [hconcat] at htake
  split at htake
  · cases htake
  · split at htake
    · obtain ⟨rfl, rfl⟩ := Prod.mk.inj (Option.some.inj htake)
      refine ⟨field ++ (data ++ [chunk]), [], by simp, ?_, rfl, by simp⟩
      exact cut_one hlength (by simp) ‹_›
    · obtain ⟨rfl, rfl⟩ := Prod.mk.inj (Option.some.inj htake)
      exact ⟨[], field ++ (data ++ [chunk]), by simp, .nil [] nofun, field, data ++ [chunk], rfl, rfl, hlength,
        by simp, rfl⟩

theorem receive_tail {reading later : Reading} {tail : List Bytes} {chunk : Bytes} {fired : List Bytes}
    (h : Tail tail reading) (hreceive : reading.receive chunk = some (later, fired)) :
    ∃ cut tail', tail ++ [chunk] = cut ++ tail' ∧ Cut fired cut ∧ Tail tail' later := by
  cases reading with
  | size got =>
    obtain ⟨rfl, hle⟩ := h
    rw [Reading.receive] at hreceive
    split at hreceive
    · split at hreceive
      · cases hreceive
      · obtain ⟨rfl, rfl⟩ := Prod.mk.inj (Option.some.inj hreceive)
        exact ⟨[], tail ++ [chunk], rfl, .nil [] (by simp), by simp, by omega⟩
    · have htail := take_tail [] (by omega) hreceive
      rwa [List.append_nil] at htail
  | data size got =>
    obtain ⟨field, data, rfl, rfl, hlength, -, rfl⟩ := h
    exact take_tail data hlength hreceive

theorem cut_of_receiveAll {chunks messages : List Bytes} {reading : Reading}
    (h : (Reading.size []).receiveAll chunks = some (reading, messages)) :
    ∃ cut tail, chunks = cut ++ tail ∧ Cut messages cut ∧ Tail tail reading := by
  induction chunks using List.reverseRecOn generalizing reading messages with
  | nil =>
    obtain ⟨rfl, rfl⟩ := Prod.mk.inj (Option.some.inj h)
    exact ⟨[], [], rfl, .nil [] nofun, rfl, by simp⟩
  | append_singleton chunks chunk ih =>
    rw [receiveAll_append] at h
    obtain ⟨first, hfirst, h⟩ := Option.bind_eq_some_iff.mp h
    obtain ⟨later, hlater, hresult⟩ := Option.map_eq_some_iff.mp h
    obtain ⟨rfl, rfl⟩ := Prod.mk.inj hresult
    have hreceive : first.1.receive chunk = some later := by
      obtain ⟨next, hnext, hlater⟩ := Option.bind_eq_some_iff.mp hlater
      rw [hnext]
      simpa [Reading.receiveAll] using hlater
    obtain ⟨cut, tail, rfl, hcut, htail⟩ := ih hfirst
    obtain ⟨cut', tail', hsplit, hcut', htail'⟩ := receive_tail htail hreceive
    exact ⟨cut ++ cut', tail', by rw [List.append_assoc, List.append_assoc, hsplit], hcut.append hcut', htail'⟩

/-- **The clipboard protocol works exactly for the streams that are cut well**: for messages of any sizes and
every cut of their stream into chunks. -/
theorem protocol_iff_cut (messages chunks : List Bytes) (hsizes : ∀ message ∈ messages, message.length < 2 ^ 32)
    (hstream : chunks.flatten = messages.flatMap frame) : Protocol messages chunks ↔ Cut messages chunks := by
  rw [protocol_iff_receiveAll]
  refine ⟨?_, fun h => receiveAll_of_cut h hsizes⟩
  rintro ⟨reading, hall⟩
  obtain ⟨cut, tail, rfl, hcut, htail⟩ := cut_of_receiveAll hall
  have hflatten : tail.flatten = [] := by
    rw [List.flatten_append, hcut.flatten] at hstream
    simpa using hstream
  have hnil : Cut [] tail := .nil _ (empty_of_flatten hflatten)
  simpa using hcut.append hnil

/-- The test's way to send: the size, then the data, and so also for an empty message. -/
theorem protocol_in_pairs : Protocol [[104, 105], []] [[2, 0, 0, 0], [104, 105], [0, 0, 0, 0], []] := by
  refine (protocol_iff_cut _ _ (by decide) (by decide)).mpr ?_
  have hempty : Cut [[]] ([[0, 0, 0, 0]] ++ [[]] ++ []) := .cons _ _ _ _ _ (by decide) (by simp) rfl (.nil _ nofun)
  exact .cons [104, 105] [[]] [[2, 0, 0, 0]] [[104, 105]] _ (by decide) (by simp) rfl hempty

/-- The size and the data in one call: the copy overruns the size field. -/
theorem joined_chunk : [[2, 0, 0, 0, 104, 105]].flatten = [[104, 105]].flatMap frame ∧
    ClipboardDevice.receiveAll [[2, 0, 0, 0, 104, 105]] = .error .CopyPastEnd ∧
    ¬ Protocol [[104, 105]] [[2, 0, 0, 0, 104, 105]] := by
  have hpast : ClipboardDevice.receiveAll [[2, 0, 0, 0, 104, 105]] = .error .CopyPastEnd := by decide
  refine ⟨by decide, hpast, ?_⟩
  rintro ⟨device, hok, -⟩
  rw [hpast] at hok
  cases hok

end Goldfish.Devices.Clipboard
