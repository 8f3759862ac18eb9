import Goldfish.Devices.Connector

/-!
# Goldfish.Devices.Handshake

The `Connector` under **packets cut anywhere**. The packet with the first zero is handled in the
same way with and without a buffer as long as what is behind the zero can still be read
(`Env.connectorReceive_zero`); the packets before it are collected (`Env.run_open`), those behind it go
to whatever was connected (`Env.run_device`, `Env.run_errorPlug`).

`ArgumentOrder.Keeps` says when the bytes behind the zero are the ones of the stream: the exchange is a
function of the stream exactly if they are, or nobody asks for them (`connector_handshake`).
-/

namespace Goldfish.Devices.Connector

variable {δ : Type}

/-! ### Packets -/

/-- No zero yet. -/
theorem Env.connectorReceive_open (env : Env δ) (mBuffer : Bytes) {data : Bytes} (h : 0 ∉ data)
    (s : Socket δ) : env.connectorReceive mBuffer data s =
      some (true, { s with plug := .connector (mBuffer ++ data) }) := by
  unfold Env.connectorReceive
  rw [findIdx_of_notMem h, if_neg (Nat.lt_irrefl _)]

/-- The order of the arguments does no harm to `rest`, the bytes behind the zero of a packet, when
`buffered` came before that packet. Without a buffer they are read off the packet. With one, its size must
be taken before it is moved, and so must the address unless there is nothing to be read. -/
def ArgumentOrder.Keeps (order : ArgumentOrder) (buffered rest : Bytes) : Prop :=
  buffered = [] ∨ order.moveBeforeSize = false ∧ (order.moveBeforeAddress = true → rest = [])

instance (order : ArgumentOrder) (buffered rest : Bytes) : Decidable (order.Keeps buffered rest) :=
  inferInstanceAs (Decidable (_ ∨ _))

theorem ArgumentOrder.Keeps.nil {order : ArgumentOrder} {buffered rest : Bytes}
    (h : order.Keeps buffered rest) : order.Keeps buffered [] :=
  h.imp_right fun hsize => ⟨hsize.1, fun _ => rfl⟩

/-- What can be read in the buffered branch. -/
theorem ArgumentOrder.unconsumed_eq (order : ArgumentOrder) (request rest : Bytes) :
    order.unconsumed (request ++ 0 :: rest) request.length =
      if order.moveBeforeSize = false ∧ (order.moveBeforeAddress = true → rest = []) then some rest
      else none := by
  have hdrop : (request ++ 0 :: rest).drop (request.length + 1) = rest := by
    rw [← List.drop_drop, List.drop_left, List.drop_one, List.tail_cons]
  have hsize : (request ++ 0 :: rest).length = request.length + 1 + rest.length := by
    rw [List.length_append, List.length_cons]
    omega
  obtain ⟨address, size⟩ := order
  unfold ArgumentOrder.unconsumed
  cases size with
  | true => simp
  | false =>
    simp only [Bool.false_eq_true, if_false, hsize, Nat.add_sub_cancel_left, Nat.le_add_right, true_and]
    cases address with
    | true => cases rest <;> simp
    | false => simp only [Bool.false_eq_true, if_false, hdrop, Nat.le_refl, if_true, List.take_length,
        false_implies]

/-- The packet with the first zero, with and without a buffer. -/
theorem Env.connectorReceive_zero (env : Env δ) (mBuffer : Bytes) {data : Bytes} (h : 0 ∉ data)
    (rest : Bytes) (s : Socket δ) : env.connectorReceive mBuffer (data ++ 0 :: rest) s =
      (env.processRequest (mBuffer ++ data)
        (if env.argumentOrder.Keeps mBuffer rest then some rest else none) s).map fun r =>
          (r.1, if !r.1 then { r.2 with plug := .errorPlug } else r.2) := by
  unfold Env.connectorReceive
  rw [findIdx_append_cons h, if_pos (by rw [List.length_append, List.length_cons]; omega)]
  by_cases hbuf : mBuffer = []
  · subst hbuf
    simp only [List.isEmpty_nil, if_true, List.take_left, ← List.drop_drop, List.drop_left, List.drop_one,
      List.tail_cons, List.nil_append, ArgumentOrder.Keeps, true_or]
    cases env.processRequest data (some rest) s with
    | none => rfl
    | some r => rfl
  · have hempty : mBuffer.isEmpty = false := List.isEmpty_eq_false_iff.mpr hbuf
    have hsize : (mBuffer ++ (data ++ 0 :: rest)).length -
        ((data ++ 0 :: rest).length - data.length) = (mBuffer ++ data).length := by
      simp only [List.length_append, List.length_cons]
      omega
    simp only [hempty, Bool.false_eq_true, if_false, hsize]
    rw [← List.append_assoc, List.take_left, env.argumentOrder.unconsumed_eq (mBuffer ++ data) rest]
    simp only [ArgumentOrder.Keeps, hbuf, false_or]
    cases env.processRequest (mBuffer ++ data) _ s with
    | none => rfl
    | some r => rfl

/-- One packet, then the others. -/
theorem Env.run_cons (env : Env δ) (packet : Bytes) (packets : List Bytes) (s : Socket δ) :
    env.run (packet :: packets) s = (env.receive packet s).bind fun r =>
      (env.run packets r.2).map fun r' => (r.1 :: r'.1, r'.2) := by
  rw [Env.run]
  cases env.receive packet s with
  | none => rfl
  | some r =>
    simp only [Option.bind_eq_bind, Option.bind_some]
    cases env.run packets r.2 with
    | none => rfl
    | some r' => rfl

theorem Env.run_errorPlug (env : Env δ) (packets : List Bytes) {s : Socket δ}
    (h : s.plug = .errorPlug) : env.run packets s = some (packets.map fun _ => false, s) := by
  induction packets with
  | nil => rfl
  | cons packet packets ih =>
    rw [env.run_cons, Env.receive, h, Option.bind_some, ih]
    rfl

/-- A device that accepts all data gets the packets as they come. -/
theorem Env.run_device {env : Env δ} (haccept : ∀ dev data, (env.devOnReceive dev data).1 = true)
    (packets : List Bytes) {s : Socket δ} {index : Nat} {dev : δ} (h : s.plug = .device index dev) :
    ∃ dev', env.run packets s = some (packets.map fun _ => true,
      { s with plug := .device index dev', passed := s.passed ++ packets }) := by
  induction packets generalizing s dev with
  | nil => exact ⟨dev, by simp [Env.run, ← h]⟩
  | cons packet packets ih =>
    have hplug : (env.deviceReceive index dev packet s).2.plug =
        .device index (env.devOnReceive dev packet).2 := rfl
    obtain ⟨dev', hrun⟩ := ih hplug
    have hresult : (env.deviceReceive index dev packet s).1 = true := haccept dev packet
    refine ⟨dev', ?_⟩
    rw [env.run_cons, Env.receive, h, Option.bind_some, hrun, hresult]
    simp only [Env.deviceReceive, Option.map_some, List.append_assoc, List.singleton_append,
      List.map_cons]

/-- The packets before the one with the zero are collected. -/
theorem Env.run_open (env : Env δ) (before after : List Bytes) (hzero : 0 ∉ before.flatten)
    {mBuffer : Bytes} {s : Socket δ} (hplug : s.plug = .connector mBuffer) :
    env.run (before ++ after) s =
      (env.run after { s with plug := .connector (mBuffer ++ before.flatten) }).map fun r =>
        ((before.map fun _ => true) ++ r.1, r.2) := by
  induction before generalizing mBuffer s with
  | nil =>
    rw [List.nil_append, List.flatten_nil, List.append_nil, ← hplug]
    exact Option.map_id'.symm
  | cons packet before ih =>
    rw [List.flatten_cons, List.mem_append, not_or] at hzero
    have hreceive : env.receive packet s =
        some (true, { s with plug := .connector (mBuffer ++ packet) }) := by
      rw [Env.receive, hplug]
      exact env.connectorReceive_open mBuffer hzero.1 s
    rw [List.cons_append, env.run_cons, hreceive, Option.bind_some, ih hzero.2 rfl, Option.map_map,
      List.flatten_cons, List.append_assoc]
    rfl

/-! ### Cuts -/

/-- What has been collected when the packet with the first zero arrives. -/
def bufferedBefore (packets : List Bytes) : Bytes := (packets.takeWhile (!·.contains 0)).flatten

/-- What is behind the first zero in its packet. -/
def behindZero (packets : List Bytes) : Bytes :=
  let packet := (packets.dropWhile (!·.contains 0)).headD []
  packet.drop (packet.findIdx (· == 0) + 1)

/-- A cut of the stream, seen from the packet with the first zero. -/
theorem exists_zeroPacket (packets : List Bytes) {request rest : Bytes} (hzero : 0 ∉ request)
    (hpackets : packets.flatten = request ++ 0 :: rest) :
    ∃ before mid tail after, packets = before ++ (mid ++ 0 :: tail) :: after ∧
      request = before.flatten ++ mid ∧ rest = tail ++ after.flatten := by
  induction packets generalizing request with
  | nil => exact absurd (congrArg List.length hpackets) (by simp)
  | cons packet packets ih =>
    rw [List.flatten_cons] at hpackets
    by_cases hmem : (0 : UInt8) ∈ packet
    · obtain ⟨mid, tail, rfl, hmid⟩ := List.eq_append_cons_of_mem hmem
      rw [List.append_assoc, List.cons_append] at hpackets
      -- the first zero is at the same place in the packet and in the stream
      obtain ⟨rfl, rfl⟩ := append_cons_inj hmid hzero hpackets
      exact ⟨[], mid, tail, packets, rfl, rfl, rfl⟩
    · -- the packet is a part of the request
      have hpart : ∃ more, request = packet ++ more ∧ packets.flatten = more ++ 0 :: rest := by
        rcases List.append_eq_append_iff.mp hpackets with ⟨more, hdata, hmore⟩ | ⟨more, hpacket, hmore⟩
        · exact ⟨more, hdata, hmore⟩
        · cases more with
          | nil => exact ⟨[], by simpa using hpacket.symm, by simpa using hmore.symm⟩
          | cons x more =>
            obtain ⟨rfl, -⟩ := List.cons.inj hmore
            exact absurd (by rw [hpacket]; simp) hmem
      obtain ⟨more, rfl, hflat⟩ := hpart
      obtain ⟨before, mid, tail, after, rfl, rfl, rfl⟩ :=
        ih (fun h => hzero (List.mem_append_right _ h)) hflat
      exact ⟨packet :: before, mid, tail, after, rfl, by rw [List.flatten_cons, List.append_assoc], rfl⟩

theorem takeWhile_zeroPacket {before : List Bytes} (hbefore : 0 ∉ before.flatten) (mid tail : Bytes)
    (after : List Bytes) :
    (before ++ (mid ++ 0 :: tail) :: after).takeWhile (!·.contains 0) = before ∧
    (before ++ (mid ++ 0 :: tail) :: after).dropWhile (!·.contains 0) = (mid ++ 0 :: tail) :: after := by
  have hopen (packet : Bytes) (h : packet ∈ before) : (!packet.contains 0) = true := by
    simpa using fun hmem => hbefore (List.mem_flatten.mpr ⟨packet, h, hmem⟩)
  have hpacket : (!(mid ++ 0 :: tail).contains 0) = false := by simp
  constructor
  · rw [List.takeWhile_append_of_pos hopen, List.takeWhile_cons, hpacket, if_neg Bool.false_ne_true,
      List.append_nil]
  · rw [List.dropWhile_append_of_pos hopen, List.dropWhile_cons, hpacket, if_neg Bool.false_ne_true]

theorem bufferedBefore_eq {before : List Bytes} (hbefore : 0 ∉ before.flatten) (mid tail : Bytes)
    (after : List Bytes) : bufferedBefore (before ++ (mid ++ 0 :: tail) :: after) = before.flatten :=
  congrArg List.flatten (takeWhile_zeroPacket hbefore mid tail after).1

theorem behindZero_eq {before : List Bytes} (hbefore : 0 ∉ before.flatten) {mid : Bytes}
    (hmid : 0 ∉ mid) (tail : Bytes) (after : List Bytes) :
    behindZero (before ++ (mid ++ 0 :: tail) :: after) = tail := by
  rw [behindZero, (takeWhile_zeroPacket hbefore mid tail after).2, List.headD_cons,
    findIdx_append_cons hmid, ← List.drop_drop, List.drop_left, List.drop_one, List.tail_cons]

/-! ### A whole run -/

/-- The packet with the zero, behind the ones that are collected. -/
theorem Env.run_zero (env : Env δ) (before : List Bytes) {mid : Bytes}
    (hzero : 0 ∉ before.flatten ++ mid) (tail : Bytes) (after : List Bytes) :
    env.run (before ++ (mid ++ 0 :: tail) :: after) .init =
      match env.requested (before.flatten ++ mid) with
      | none => some ((before.map fun _ => true) ++ ((mid ++ 0 :: tail) :: after).map fun _ => false,
          { plug := .errorPlug, factoryCalls := [], passed := [] })
      | some (index, de, args) =>
          if env.argumentOrder.Keeps before.flatten tail then
            (env.run after (env.deviceReceive index (de.factory args) tail
              (Socket.init.plugIn index de args)).2).map fun r =>
                ((before.map fun _ => true) ++ true :: r.1, r.2)
          else none := by
  rw [List.mem_append, not_or] at hzero
  have hinit : (.init : Socket δ).plug = .connector [] := rfl
  rw [env.run_open before _ hzero.1 hinit, List.nil_append, env.run_cons, Env.receive]
  dsimp only
  rw [env.connectorReceive_zero before.flatten hzero.2, env.processRequest_eq]
  cases env.requested (before.flatten ++ mid) with
  | none =>
    simp only [Option.map_some, Bool.not_false, if_true, Option.bind_some]
    rw [env.run_errorPlug after rfl]
    rfl
  | some found =>
    obtain ⟨index, de, args⟩ := found
    by_cases hkeeps : env.argumentOrder.Keeps before.flatten tail
    · simp only [hkeeps, if_true, Option.map_some, Bool.not_true, Bool.false_eq_true, if_false,
        Option.bind_some, Option.map_map]
      rfl
    · simp only [hkeeps, if_false]
      rfl

/-! ### The handshake -/

/-- What can be told of a plug without looking into it. -/
inductive PlugKind where
  | connector
  | device (index : Nat)
  | errorPlug
deriving DecidableEq, Repr

/-- The kind of a plug. -/
def Plug.kind : Plug δ → PlugKind
  | .connector _ => .connector
  | .device index _ => .device index
  | .errorPlug => .errorPlug

/-- What a run has led to: the plug, the factory calls, and the bytes passed to the device. -/
def Socket.outcome (s : Socket δ) : PlugKind × List (Nat × Bytes) × Bytes :=
  (s.plug.kind, s.factoryCalls, s.passed.flatten)

/-- What the exchange is to come to: a device exactly if the bytes before the first zero name one, its
factory called once with the arguments, and all bytes behind the zero passed to it; otherwise the error
plug, and `onReceive` false from the packet with the zero on. -/
structure Env.Handshake (env : Env δ) (request rest : Bytes) (packets : List Bytes)
    (results : List Bool) (s : Socket δ) : Prop where
  device_iff : (∃ index dev, s.plug = .device index dev) ↔ ∃ index args, env.Names request index args
  device : ∀ index args, env.Names request index args →
    s.outcome = (.device index, [(index, args)], rest) ∧ ∀ r ∈ results, r = true
  error : (¬ ∃ index args, env.Names request index args) →
    s.outcome = (.errorPlug, [], []) ∧
    ∃ before packet after, packets = before ++ packet :: after ∧ 0 ∉ before.flatten ∧ 0 ∈ packet ∧
      results = (before.map fun _ => true) ++ (packet :: after).map fun _ => false

/-- The exchange comes to what it is to come to, unless a device is asked for and the bytes for it are
lost. Then there is no result. -/
theorem Env.run_handshake {env : Env δ} (hdistinct : (env.devicesEntries.map (·.qname)).Nodup)
    (haccept : ∀ dev data, (env.devOnReceive dev data).1 = true) {request rest : Bytes}
    (hzero : 0 ∉ request) (packets : List Bytes) (hpackets : packets.flatten = request ++ 0 :: rest) :
    (((∃ index args, env.Names request index args) →
        env.argumentOrder.Keeps (bufferedBefore packets) (behindZero packets)) →
      ∃ results s, env.run packets .init = some (results, s) ∧
        env.Handshake request rest packets results s) ∧
    ((∃ index args, env.Names request index args) →
      ¬ env.argumentOrder.Keeps (bufferedBefore packets) (behindZero packets) →
      env.run packets .init = none) := by
  obtain ⟨before, mid, tail, after, rfl, rfl, rfl⟩ := exists_zeroPacket packets hzero hpackets
  have hparts := hzero
  rw [List.mem_append, not_or] at hparts
  rw [bufferedBefore_eq hparts.1, behindZero_eq hparts.1 hparts.2, env.run_zero before hzero]
  by_cases hnames : ∃ index args, env.Names (before.flatten ++ mid) index args
  · obtain ⟨index, args, hnames⟩ := hnames
    obtain ⟨de, hrequested⟩ := Env.requested_of_names hdistinct hzero hnames
    simp only [hrequested]
    constructor
    · intro hkeeps
      rw [if_pos (hkeeps ⟨index, args, hnames⟩)]
      obtain ⟨dev, hrun⟩ := Env.run_device haccept after (s := (env.deviceReceive index
        (de.factory args) tail (Socket.init.plugIn index de args)).2) rfl
      rw [hrun]
      have houtcome : ∀ index' args', env.Names (before.flatten ++ mid) index' args' →
          index' = index ∧ args' = args := by
        intro index' args' hnames'
        obtain ⟨de', hrequested'⟩ := Env.requested_of_names hdistinct hzero hnames'
        cases hrequested.symm.trans hrequested'
        exact ⟨rfl, rfl⟩
      refine ⟨_, _, rfl, ⟨fun _ => ⟨index, args, hnames⟩, fun _ => ⟨index, dev, rfl⟩⟩,
        fun index' args' hnames' => ?_, fun hnone => absurd ⟨index, args, hnames⟩ hnone⟩
      obtain ⟨rfl, rfl⟩ := houtcome index' args' hnames'
      refine ⟨by simp [Socket.outcome, Plug.kind, Env.deviceReceive, Socket.plugIn, Socket.init], ?_⟩
      intro r hr
      simp only [List.mem_append, List.mem_cons, List.mem_map] at hr
      rcases hr with ⟨_, -, rfl⟩ | rfl | ⟨_, -, rfl⟩ <;> rfl
    · intro _ hlost
      exact if_neg hlost
  · rw [Env.requested_of_not_names hzero hnames]
    refine ⟨fun _ => ⟨_, _, rfl, ⟨fun hdevice => ?_, fun hsome => absurd hsome hnames⟩,
      fun index args hsome => absurd ⟨index, args, hsome⟩ hnames, fun _ => ⟨rfl, ?_⟩⟩,
      fun hsome => absurd hsome hnames⟩
    · obtain ⟨index, dev, hplug⟩ := hdevice
      cases hplug
    · exact ⟨before, _, after, rfl, hparts.1, List.mem_append_right _ List.mem_cons_self, rfl⟩

/-- **The connector keeps its handshake exactly if the bytes behind the zero can be read where it
looks for them, or nobody asks for them.** Two cuts of one stream have the same outcome
exactly if that holds of both. -/
theorem connector_handshake (env : Env δ) (hdistinct : (env.devicesEntries.map (·.qname)).Nodup)
    (haccept : ∀ dev data, (env.devOnReceive dev data).1 = true) (request rest : Bytes)
    (hzero : 0 ∉ request) (packets : List Bytes) (hpackets : packets.flatten = request ++ 0 :: rest) :
    ((∃ results s, env.run packets .init = some (results, s) ∧
        env.Handshake request rest packets results s) ↔
      ((∃ index args, env.Names request index args) →
        env.argumentOrder.Keeps (bufferedBefore packets) (behindZero packets))) ∧
    (∀ packets' : List Bytes, packets'.flatten = packets.flatten →
      ((∃ results s results' s', env.run packets .init = some (results, s) ∧
          env.run packets' .init = some (results', s') ∧ s'.outcome = s.outcome) ↔
        ((∃ index args, env.Names request index args) →
          env.argumentOrder.Keeps (bufferedBefore packets) (behindZero packets) ∧
          env.argumentOrder.Keeps (bufferedBefore packets') (behindZero packets')))) := by
  obtain ⟨hkept, hlost⟩ := Env.run_handshake hdistinct haccept hzero packets hpackets
  refine ⟨⟨?_, hkept⟩, fun packets' hflat => ?_⟩
  · rintro ⟨results, s, hrun, -⟩ hnames
    by_contra hnot
    rw [hlost hnames hnot] at hrun
    cases hrun
  · obtain ⟨hkept', hlost'⟩ :=
      Env.run_handshake hdistinct haccept hzero packets' (hflat.trans hpackets)
    constructor
    · rintro ⟨results, s, results', s', hrun, hrun', -⟩ hnames
      refine ⟨by_contra fun hnot => ?_, by_contra fun hnot => ?_⟩
      · rw [hlost hnames hnot] at hrun
        cases hrun
      · rw [hlost' hnames hnot] at hrun'
        cases hrun'
    · intro hkeeps
      obtain ⟨results, s, hrun, hdone⟩ := hkept fun hnames => (hkeeps hnames).1
      obtain ⟨results', s', hrun', hdone'⟩ := hkept' fun hnames => (hkeeps hnames).2
      refine ⟨results, s, results', s', hrun, hrun', ?_⟩
      by_cases hnames : ∃ index args, env.Names request index args
      · obtain ⟨index, args, hnames⟩ := hnames
        rw [(hdone.device index args hnames).1, (hdone'.device index args hnames).1]
      · rw [(hdone.error hnames).1, (hdone'.error hnames).1]

/-- A table with the devices `ab` and, for qemud, `ab`; they count the bytes they are passed. -/
def exampleEnv (argumentOrder : ArgumentOrder) : Env Nat where
  devicesEntries :=
    [{ qname := [0x2D, 0x61, 0x62], qname_ne_zero := by decide, factory := fun _ => 0 },
      { qname := [0x71, 0x61, 0x62], qname_ne_zero := by decide, factory := fun _ => 0 }]
  devOnReceive := fun n data => (true, n + data.length)
  argumentOrder

/-- The characters of `pipe:qemud:ab:x`. -/
def pipeQemudAb : Bytes :=
  [0x70, 0x69, 0x70, 0x65, 0x3A, 0x71, 0x65, 0x6D, 0x75, 0x64, 0x3A, 0x61, 0x62, 0x3A, 0x78]

/-- The request, a zero and one more byte, cut in the middle of the request. -/
def cutPackets : List Bytes := [pipeQemudAb.take 8, pipeQemudAb.drop 8 ++ [0, 7]]

/-- Where the move comes last, the device gets the byte. Where it comes first, there is no result. -/
theorem connector_handshake_qemud :
    (∃ results s, (exampleEnv ⟨false, false⟩).run cutPackets .init = some (results, s) ∧
      (exampleEnv ⟨false, false⟩).Handshake pipeQemudAb [7] cutPackets results s) ∧
    ¬ ∃ results s, (exampleEnv ⟨true, true⟩).run cutPackets .init = some (results, s) ∧
      (exampleEnv ⟨true, true⟩).Handshake pipeQemudAb [7] cutPackets results s := by
  have hnames : (exampleEnv ⟨true, true⟩).Names pipeQemudAb 1 [0x78] :=
    ⟨true, [0x61, 0x62], _, ⟨by decide, by decide, [0x3A, 0x78], .inr rfl, rfl,
      fun h => absurd h (by decide)⟩, rfl, rfl⟩
  constructor
  · exact (connector_handshake (exampleEnv ⟨false, false⟩) (by decide) (fun _ _ => rfl) pipeQemudAb [7]
      (by decide) cutPackets (by decide)).1.mpr fun _ => by decide
  · intro hdone
    have hkeeps := (connector_handshake (exampleEnv ⟨true, true⟩) (by decide) (fun _ _ => rfl) pipeQemudAb
      [7] (by decide) cutPackets (by decide)).1.mp hdone ⟨1, [0x78], hnames⟩
    exact absurd hkeeps (by decide)

/-- Where the move comes first, the same two packets leave the device with an address near null and a size
of nearly `2 ^ 64`. -/
theorem connector_handshake_moved :
    ¬ ∀ (env : Env Nat) (request rest : Bytes) (packets : List Bytes),
      (env.devicesEntries.map (·.qname)).Nodup →
      (∀ dev data, (env.devOnReceive dev data).1 = true) →
      0 ∉ request → packets.flatten = request ++ 0 :: rest →
      ∃ results s, env.run packets .init = some (results, s) ∧
        env.Handshake request rest packets results s := by
  intro hall
  obtain ⟨results, s, hrun, -⟩ := hall (exampleEnv ⟨true, true⟩) pipeQemudAb [7] cutPackets (by decide)
    (fun _ _ => rfl) (by decide) (by decide)
  have hnone : (exampleEnv ⟨true, true⟩).run cutPackets .init = none := by decide
  rw [hnone] at hrun
  cases hrun

end Goldfish.Devices.Connector
