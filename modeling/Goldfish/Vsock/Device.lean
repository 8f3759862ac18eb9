import Goldfish.Vsock.State

/-!
# Goldfish.Vsock.Device

The **operations** of `GoldfishVirtioVsockDevice` (`vsock.cpp`), as state
transformers that may fault, and the run of a device as a fold over actions.

Callbacks run inside the device's recursive mutex and may call back into the
device. What a callback does is chosen by the environment, so an action carries
it (`Callbacks`): the calls the callback makes on the device (`HostOp`) and its
answer. None of these calls makes a callback of a plug in turn. A callback that
does not re-enter the device has an empty list.

After a callback the C++ code goes on with the `VsockStream&` it held before; the
model follows the address again (`World.deref`), so a stream that the callback
destroyed is the fault `dangling` and not a stale value.
-/

namespace Goldfish.Vsock

open Goldfish.Lib

variable {σ P : Type}

/-! ### `sendPacketsLocked` -/

/-- How far a loop of `sendPacketsLocked` got. `full` is its early return. -/
structure Swept (σ P : Type) where
  world : World σ P
  needNotify : Bool
  full : Bool

/-- The loop over `mOrphanPackets`. -/
def sendOrphanPackets (api : GoldfishVirtIOVSockDevAPI σ) :
    List VirtioVsockHdr → World σ P → Bool → Swept σ P
  | [], w, needNotify => ⟨w, needNotify, false⟩
  | hdr :: rest, w, needNotify =>
      let (result, w) := w.sendPacketHostToGuest api none hdr []
      let needNotify := needNotify || virtIOVSockSendNeedNotify result
      if virtIOVSockSendIsVqFull result then ⟨w, needNotify, true⟩
      else sendOrphanPackets api rest { w with mOrphanPackets := rest } needNotify

/-- The operations a stream can have waiting, in the order they are sent. -/
def maskOps : List VirtioVsockOp := [.request, .response, .creditUpdate, .creditRequest]

/-- The loop over `ops`, with the local copy of the mask. -/
def sendOps (api : GoldfishVirtIOVSockDevAPI σ) (s : VsockStream P) :
    List VirtioVsockOp → UInt8 → World σ P → Bool → UInt8 × Swept σ P
  | [], mask, w, needNotify => (mask, ⟨w, needNotify, false⟩)
  | op :: ops, mask, w, needNotify =>
      if mask &&& op.bit ≠ 0 then
        let (result, w) := w.sendPacketHostToGuest api (some s.ref) (s.preparePacketHeader op 0) []
        let needNotify := needNotify || virtIOVSockSendNeedNotify result
        if virtIOVSockSendIsVqFull result then (mask, ⟨w, needNotify, true⟩)
        else sendOps api s ops (mask &&& ~~~op.bit) w needNotify
      else sendOps api s ops mask w needNotify

/-- The control packets of one stream. A guest without free buffer space is asked for
credit, whether or not the stream's own mask says so. -/
def sendStreamOps (api : GoldfishVirtIOVSockDevAPI σ) (s : VsockStream P) (w : World σ P)
    (needNotify : Bool) : Swept σ P :=
  let needCredit := s.guestAvailSize = 0
  let w := if needCredit then w.emit (.opQueued s.ref .creditRequest) else w
  let mask := s.sendOpMask ||| if needCredit then VirtioVsockOp.creditRequest.bit else 0
  if mask ≠ 0 then
    let (rest, out) := sendOps api s maskOps mask w needNotify
    { out with world := out.world.setMask s.ref (if out.full then rest else 0) }
  else ⟨w, needNotify, false⟩

/-- `size_t` subtraction. -/
def sizeSub (a b : Nat) : Nat := (a + 2 ^ 64 - b) % 2 ^ 64

/-- The loop over the data of one stream. Each round that is not the last sends
something or uses up a buffer of the guest, which is what `fuel` counts. -/
def sendData (api : GoldfishVirtIOVSockDevAPI σ) (ref : Ref) :
    (fuel guestAvailSize : Nat) → World σ P → Bool → Except Fault (Swept σ P)
  | 0, _, _, _ => .error .spin
  | fuel + 1, guestAvailSize, w, needNotify =>
      if guestAvailSize = 0 then pure ⟨w, needNotify, false⟩
      else do
        let s ← w.deref ref
        let data ← s.hostToGuestBuf.peek
        if data.length = 0 then pure ⟨w, needNotify, false⟩
        else
          let sendSize := min data.length guestAvailSize
          let hdr := s.preparePacketHeader .rw (UInt32.ofNat sendSize)
          let (result, w) := w.sendPacketHostToGuest api (some ref) hdr data
          let sentSize := virtIOVSockSentSize result
          let buf ← s.hostToGuestBuf.consume sentSize
          let w := w.modify ref fun s =>
            { s with hostToGuestBuf := buf, hostSentCnt := s.hostSentCnt + UInt32.ofNat sentSize }
          let needNotify := needNotify || virtIOVSockSendNeedNotify result
          if virtIOVSockSendIsVqFull result then pure ⟨w, needNotify, true⟩
          else sendData api ref fuel (sizeSub guestAvailSize sentSize) w needNotify

/-- One round of the loop over `mStreams`. -/
def sendStream (api : GoldfishVirtIOVSockDevAPI σ) (ref : Ref) (w : World σ P)
    (needNotify : Bool) : Except Fault (Swept σ P) := do
  let s ← w.deref ref
  let out := sendStreamOps api s w needNotify
  if out.full then pure out
  else
    let fuel := api.avail out.world.vq + s.guestAvailSize + 1
    sendData api ref fuel s.guestAvailSize out.world out.needNotify

/-- The loop over `mStreams`. -/
def sendStreams (api : GoldfishVirtIOVSockDevAPI σ) :
    List Ref → World σ P → Bool → Except Fault (Swept σ P)
  | [], w, needNotify => pure ⟨w, needNotify, false⟩
  | ref :: refs, w, needNotify => do
      let out ← sendStream api ref w needNotify
      if out.full then pure out else sendStreams api refs out.world out.needNotify

/-- `sendPacketsLocked`: orphan packets first, then the streams in the order of their
ports. -/
def sendPacketsLocked (api : GoldfishVirtIOVSockDevAPI σ) (w : World σ P) :
    Except Fault (Bool × World σ P) := do
  let out := sendOrphanPackets api w.mOrphanPackets w false
  if out.full then pure (out.needNotify, out.world)
  else
    let out ← sendStreams api (out.world.mStreams.elems.map (·.ref)) out.world out.needNotify
    pure (out.needNotify, out.world)

/-- `sendPacketsAndNotifyLocked`. `sendPackets` is the same from the outside: its caller
`virtio_vsock_handle_host_to_guest` notifies the queue on a non-zero result. -/
def sendPacketsAndNotifyLocked (api : GoldfishVirtIOVSockDevAPI σ) (w : World σ P) :
    Except Fault (World σ P) := do
  let (needNotify, w) ← sendPacketsLocked api w
  pure (if needNotify then w.emit .notify else w)

/-! ### Calls from the host -/

/-- `connect`. Returns the address behind the `SocketPtr`. -/
def connect (api : GoldfishVirtIOVSockDevAPI σ) (w : World σ P) (guestPort : UInt32) (plug : P) :
    Except Fault (Ref × World σ P) := do
  let ref := w.nextRef
  let (id, alloc) := w.mSrcPortAllocator.get
  let hostPort := id + kDynamicPortsStart
  match World.emplace { w with mSrcPortAllocator := alloc } guestPort hostPort .connect with
  | none => .error .assertInserted
  | some w => do
      let w := w.setPlug ref plug
      let w ← sendPacketsAndNotifyLocked api (w.sendOp ref .request)
      pure (ref, w)

/-- `listen`. The answer is whether the port was free. -/
def listen (w : World σ P) (hostPort : UInt32) : Bool × World σ P :=
  (hostPort ∉ w.mHostPortListeners,
    { w with mHostPortListeners := insert hostPort w.mHostPortListeners })

/-- `sendAsyncImpl`. Data for a stream that is not connected is dropped. -/
def sendAsyncImpl (api : GoldfishVirtIOVSockDevAPI σ) (w : World σ P) (ref : Ref)
    (data : List UInt8) : Except Fault (World σ P) := do
  let s ← w.deref ref
  if s.isConnected then
    let w := w.sniff s.dataSniffer (.toSocket · data)
    let w := (w.appendData ref data).emit (.buffered ref data)
    sendPacketsAndNotifyLocked api w
  else pure w

/-- `switchPlug`. Returns the previous plug. -/
def switchPlug (w : World σ P) (ref : Ref) (newPlug : P) :
    Except Fault (Option P × World σ P) := do
  let s ← w.deref ref
  pure (s.plug, w.setPlug ref newPlug)

/-- `setDataSniffer`. -/
def setDataSniffer (w : World σ P) (ref : Ref) (sniffer : Option Nat) :
    Except Fault (World σ P) := do
  let _ ← w.deref ref
  pure (w.modify ref fun s => { s with dataSniffer := sniffer })

/-- `recycleStreamLocked` after the callback (`callOnUnplug` is `false`): queue the
farewell packet, give a dynamic port back. -/
def recycleStreamQuietly (w : World σ P) (s : VsockStream P) (op : VirtioVsockOp) :
    Except Fault (World σ P) := do
  let w := if op ≠ .invalid then w.queueOrphanPacket (s.preparePacketHeader op 0) else w
  if kDynamicPortsStart ≤ s.hostPort then
    let alloc ← w.mSrcPortAllocator.put (s.hostPort - kDynamicPortsStart)
    pure { w with mSrcPortAllocator := alloc }
  else pure w

/-- `unplugImpl` and `unplugFromDevice`: the plug hangs up. Returns the plug. -/
def unplugImpl (api : GoldfishVirtIOVSockDevAPI σ) (w : World σ P) (ref : Ref) :
    Except Fault (P × World σ P) := do
  let s ← w.deref ref
  let p ← notNull s.plug
  let w ← recycleStreamQuietly (w.emit (.unplugged ref p)) s .shutdown
  let w ← sendPacketsAndNotifyLocked api (w.erase s)
  pure (p, w)

/-- A call on the device from the host side: by a plug through its `SocketPtr`, or by
the emulator through `connect` and `listen`. -/
inductive HostOp (P : Type)
  | connect (guestPort : UInt32) (plug : P)
  | listen (hostPort : UInt32)
  | sendAsync (s : Ref) (data : List UInt8)
  | switchPlug (s : Ref) (newPlug : P)
  | setDataSniffer (s : Ref) (sniffer : Option Nat)
  | unplug (s : Ref)

/-- One call from the host side. -/
def hostOp (api : GoldfishVirtIOVSockDevAPI σ) (w : World σ P) :
    HostOp P → Except Fault (World σ P)
  | .connect guestPort plug => Prod.snd <$> connect api w guestPort plug
  | .listen hostPort => .ok (listen w hostPort).2
  | .sendAsync s data => sendAsyncImpl api w s data
  | .switchPlug s newPlug => Prod.snd <$> switchPlug w s newPlug
  | .setDataSniffer s sniffer => setDataSniffer w s sniffer
  | .unplug s => Prod.snd <$> unplugImpl api w s

/-- The calls a callback makes before it returns. -/
def hostOps (api : GoldfishVirtIOVSockDevAPI σ) (w : World σ P) (ops : List (HostOp P)) :
    Except Fault (World σ P) :=
  ops.foldlM (hostOp api) w

/-! ### Packets from the guest -/

/-- What the callbacks made while one packet is handled do: the calls they make on the
device, and their answers. -/
structure Callbacks (P : Type) where
  /-- `HostPortListener`: a plug for the new stream, or the socket back (`none`). -/
  listener : List (HostOp P) × Option P := ([], none)
  onConnect : List (HostOp P) := []
  /-- `onReceive` for each piece of the packet's data. -/
  onReceive : Nat → List (HostOp P) × Bool := fun _ => ([], true)
  onUnplug : List (HostOp P) := []

/-- `recycleStreamLocked` with `callOnUnplug`, and the `mStreams.erase` that follows it
in every caller. -/
def recycleStreamLocked (api : GoldfishVirtIOVSockDevAPI σ) (cb : Callbacks P) (w : World σ P)
    (ref : Ref) (op : VirtioVsockOp) : Except Fault (World σ P) := do
  let s ← w.deref ref
  let p ← notNull s.plug
  let w ← hostOps api (w.emit (.onUnplug ref p)) cb.onUnplug
  let s ← w.deref ref
  let w ← recycleStreamQuietly w s op
  pure (w.erase s)

/-- Store the counters of a guest header. -/
def updateGuestCounters (w : World σ P) (ref : Ref) (hdr : VirtioVsockHdr) : World σ P :=
  (w.modify ref fun s =>
    { s with guestBufAlloc := hdr.bufAlloc, guestFwdCnt := hdr.fwdCnt }).emit (.received ref hdr)

/-- `processPacketOpRequestLocked`. -/
def processPacketOpRequestLocked (api : GoldfishVirtIOVSockDevAPI σ) (cb : Callbacks P)
    (w : World σ P) (hdr : VirtioVsockHdr) : Except Fault (Bool × World σ P) :=
  if hdr.dstPort ∈ w.mHostPortListeners then
    let ref := w.nextRef
    match w.emplace hdr.srcPort hdr.dstPort .listener with
    | some w => do
        let w ← hostOps api w cb.listener.1
        let s ← w.deref ref
        match cb.listener.2 with
        | some plug => do
            let w := w.setPlug ref plug
            let w := updateGuestCounters w ref hdr
            let w := w.setConnected ref
            let w := w.sendOp ref .response
            let w ← hostOps api (w.emit (.onConnect ref plug)) cb.onConnect
            pure (true, w)
        | none => pure (false, w.erase s)
    -- a second request for the same pair of ports is ignored
    | none => pure (true, w)
  else pure (false, w)

/-- `queueOrphanPacketLocked` in answer to a packet: a RST from the port it was sent to. -/
def queueReset (w : World σ P) (hdr : VirtioVsockHdr) : World σ P :=
  w.queueOrphanPacket (preparePacketHeader hdr.dstPort hdr.srcPort .rst 0 0)

/-- `onPacketReceiveControl`. -/
def onPacketReceiveControl (api : GoldfishVirtIOVSockDevAPI σ) (cb : Callbacks P) (w : World σ P)
    (hdr : VirtioVsockHdr) : Except Fault (World σ P) :=
  if hdr.op = VirtioVsockOp.request.code then do
    let (done, w) ← processPacketOpRequestLocked api cb w hdr
    pure (if done then w else queueReset w hdr)
  else
    match w.mStreams.find? ⟨hdr.srcPort, hdr.dstPort⟩ with
    | some s =>
        let w := updateGuestCounters w s.ref hdr
        match VirtioVsockOp.ofCode hdr.op with
        | some .response => do
            let p ← notNull s.plug
            let w := w.setConnected s.ref
            hostOps api (w.emit (.onConnect s.ref p)) cb.onConnect
        | some .rst => recycleStreamLocked api cb w s.ref .invalid
        | some .shutdown => recycleStreamLocked api cb w s.ref .shutdown
        -- the counters are updated already
        | some .creditUpdate => .ok w
        | some .creditRequest => .ok (w.sendOp s.ref .creditUpdate)
        | _ => recycleStreamLocked api cb w s.ref .rst
    | none => .ok (if hdr.op ≠ VirtioVsockOp.rst.code then queueReset w hdr else w)

/-- `onPacketReceiveRwStart`: the stream the data is for, if there is one. -/
def onPacketReceiveRwStart (w : World σ P) (hdr : VirtioVsockHdr) : Option Ref × World σ P :=
  match w.mStreams.find? ⟨hdr.srcPort, hdr.dstPort⟩ with
  | some s => (some s.ref, updateGuestCounters w s.ref hdr)
  | none => (none, w)

/-- `onPacketReceiveRw`: hand one piece of data to the plug. The answer is whether the
stream has to go. -/
def onPacketReceiveRw (api : GoldfishVirtIOVSockDevAPI σ) (answer : List (HostOp P) × Bool)
    (w : World σ P) (ref : Ref) (data : List UInt8) : Except Fault (Bool × World σ P) := do
  let s ← w.deref ref
  if s.isConnected then
    let w := w.sniff s.dataSniffer (.toPlug · data)
    let p ← notNull s.plug
    let w ← hostOps api (w.emit (.onReceive ref p data)) answer.1
    if answer.2 then
      let _ ← w.deref ref
      let w := w.addHostFwdCnt ref data
      pure (false, w.sendOp ref .creditUpdate)
    else pure (true, w.emit (.refused ref p))
  else pure (true, w)

/-- `onPacketReceiveRwEnd`. -/
def onPacketReceiveRwEnd (api : GoldfishVirtIOVSockDevAPI σ) (cb : Callbacks P) (w : World σ P)
    (ref : Ref) (eraseStream : Bool) : Except Fault (World σ P) :=
  if eraseStream then recycleStreamLocked api cb w ref .shutdown else .ok w

/-- The calls of `onPacketReceiveRw` for the pieces of one packet, up to the first that
is refused. `i` counts the pieces handed over so far. -/
def receivePieces (api : GoldfishVirtIOVSockDevAPI σ) (cb : Callbacks P) (ref : Ref) :
    Nat → List (List UInt8) → World σ P → Except Fault (Bool × World σ P)
  | _, [], w => pure (false, w)
  | i, data :: rest, w => do
      let (eraseStream, w) ← onPacketReceiveRw api (cb.onReceive i) w ref data
      if eraseStream then pure (true, w) else receivePieces api cb ref (i + 1) rest w

/-- A RW packet whose data arrives in the given pieces. -/
def onPacketReceiveRwPacket (api : GoldfishVirtIOVSockDevAPI σ) (cb : Callbacks P) (w : World σ P)
    (hdr : VirtioVsockHdr) (pieces : List (List UInt8)) : Except Fault (World σ P) :=
  match onPacketReceiveRwStart w hdr with
  | (none, w) => .ok w
  | (some ref, w) => do
      let (eraseStream, w) ← receivePieces api cb ref 0 pieces w
      onPacketReceiveRwEnd api cb w ref eraseStream

/-- A header as the guest sends it: from its own port to the host's. -/
def guestHeader (guestPort hostPort : UInt32) (op : VirtioVsockOp)
    (len bufAlloc fwdCnt : UInt32) : VirtioVsockHdr :=
  { srcPort := guestPort, dstPort := hostPort, len, op := op.code, bufAlloc, fwdCnt }

/-! ### Device status -/

/-- `VIRTIO_CONFIG_S_NEEDS_RESET`. -/
def virtioConfigSNeedsReset : UInt8 := 0x40

/-- `VIRTIO_CONFIG_S_FAILED`. -/
def virtioConfigSFailed : UInt8 := 0x80

/-- The loop of `setStatus` over the streams: every plug is told to unplug. -/
def unplugAll : List (VsockStream P) → World σ P → Except Fault (World σ P)
  | [], w => .ok w
  | s :: rest, w => do
      let p ← notNull s.plug
      unplugAll rest (w.emit (.onUnplug s.ref p))

/-- `setStatus`. The callbacks of a reset only hand their socket back. -/
def setStatus (w : World σ P) (status : UInt8) : Except Fault (World σ P) :=
  if status &&& virtioConfigSFailed ≠ 0 then .error .assertStatus
  else if status &&& virtioConfigSNeedsReset ≠ 0 then do
    let w ← unplugAll w.mStreams.elems w
    pure { w with
      mHostEvents := []
      mOrphanPackets := []
      mSrcPortAllocator := w.mSrcPortAllocator.reset }
  else .ok w

/-! ### Runs -/

/-- What can happen to a device. -/
inductive Action (σ P : Type)
  /-- A call from the host side. -/
  | host (op : HostOp P)
  /-- A packet from the guest other than RW. -/
  | control (hdr : VirtioVsockHdr) (cb : Callbacks P)
  /-- A RW packet, with its data in pieces. -/
  | rw (hdr : VirtioVsockHdr) (pieces : List (List UInt8)) (cb : Callbacks P)
  /-- `sendPackets`. -/
  | sendPackets
  /-- The guest changes what it offers on the receive queue. -/
  | guestRx (vq : σ)
  /-- `setStatus`. -/
  | setStatus (status : UInt8)

/-- One action. -/
def step (api : GoldfishVirtIOVSockDevAPI σ) (w : World σ P) :
    Action σ P → Except Fault (World σ P)
  | .host op => hostOp api w op
  | .control hdr cb => onPacketReceiveControl api cb w hdr
  | .rw hdr pieces cb => onPacketReceiveRwPacket api cb w hdr pieces
  | .sendPackets => sendPacketsAndNotifyLocked api w
  | .guestRx vq => .ok { w with vq }
  | .setStatus status => setStatus w status

/-- A run. -/
def run (api : GoldfishVirtIOVSockDevAPI σ) (w : World σ P) (acts : List (Action σ P)) :
    Except Fault (World σ P) :=
  acts.foldlM (step api) w

/-- A freshly realized device with the given listeners, in the given environment. -/
def World.realized (listeners : Finset UInt32) (vq : σ) (nextRef : Ref := 0)
    (log : List (Event σ P) := []) : World σ P :=
  { mHostPortListeners := listeners, vq, nextRef, log }

end Goldfish.Vsock
