import Goldfish.Vsock.Device
import Mathlib.Logic.Relation

/-!
# Goldfish.Vsock.Atom

The **abstract device**: a transition system whose steps are the single effects the
operations of `Goldfish.Vsock.Device` are made of: one packet offered to the queue,
one stream created or destroyed, one callback. Each rule says when the effect can
happen and what it changes, and says it once; `Goldfish.Vsock.Refine` proves that
every action of the device is a sequence of these steps, so an invariant of the
device needs one short argument for each rule and none for the code.

* `HostAtom` has the effects of calls from the host side and of
  `sendPacketsLocked`. No plug is called back by them.
* `Atom` adds the effects of guest packets. It also carries which callback the
  device is inside of (`Ctl`), because a callback may make calls on the device.
* `Mode` collects the disciplines under which a run may be considered. A rule has
  a premise for each discipline it matters to.
-/

namespace Goldfish.Vsock

open Goldfish.Lib

variable {σ P : Type}

/-- Disciplines of a run. With every flag off a run is unrestricted. -/
structure Mode where
  /-- No callback makes calls on the device. -/
  quiet : Bool := false
  /-- Calls from outside only use the addresses of live streams. -/
  live : Bool := false
  /-- No callback switches the plug of a stream. -/
  keepsPlug : Bool := false
  /-- No plug is switched at all. -/
  noSwitch : Bool := false
  /-- A RESPONSE only arrives for a stream that is not connected. -/
  onceConnected : Bool := false
  /-- Listeners stay below the dynamic ports, and fewer than `2 ^ 31 - 1` streams have
  dynamic ports at a time. -/
  bounded : Bool := false

/-- The number of streams with a dynamic host port. -/
def World.dynamicCount (w : World σ P) : Nat := w.mStreams.elems.countP (·.isDynamic)

/-- An answer never claims more than it was asked to send. -/
def GoldfishVirtIOVSockDevAPI.Bounded (api : GoldfishVirtIOVSockDevAPI σ) : Prop :=
  ∀ vq hdr data, virtIOVSockSentSize (api.sendPacketHostToGuest vq hdr data).result ≤ hdr.len.toNat

/-- `op` is the first operation waiting in the mask. -/
def VsockStream.FirstOp (s : VsockStream P) (op : VirtioVsockOp) : Prop :=
  ∃ before after, maskOps = before ++ op :: after ∧ s.hasOp op = true ∧
    ∀ op' ∈ before, s.hasOp op' = false

/-- Take an operation out of the mask. -/
def World.clearOp (w : World σ P) (ref : Ref) (op : VirtioVsockOp) : World σ P :=
  w.modify ref fun s => { s with sendOpMask := s.sendOpMask &&& ~~~op.bit }

/-- The device after `connect` made a stream and before anything is sent. -/
def World.afterConnect (w : World σ P) (ref : Ref) (plug : P) : World σ P :=
  (w.setPlug ref plug).sendOp ref .request

/-- The device after `sendAsync` stored its data. -/
def World.afterSendAsync (w : World σ P) (ref : Ref) (data : List UInt8) : World σ P :=
  (w.appendData ref data).emit (.buffered ref data)

/-- The device after a part of a stream's data was sent. -/
def World.afterSend (w : World σ P) (ref : Ref) (buf : SocketBuffer) (sentSize : Nat) :
    World σ P :=
  w.modify ref fun s =>
    { s with hostToGuestBuf := buf, hostSentCnt := s.hostSentCnt + UInt32.ofNat sentSize }

/-- The device after a listener's plug was attached, up to its `onConnect`. -/
def World.afterAccept (w : World σ P) (ref : Ref) (plug : P) (hdr : VirtioVsockHdr) : World σ P :=
  let w := w.setPlug ref plug
  let w := updateGuestCounters w ref hdr
  let w := w.setConnected ref
  (w.sendOp ref .response).emit (.onConnect ref plug)

/-- The device after a RESPONSE, up to the `onConnect`. -/
def World.afterResponse (w : World σ P) (ref : Ref) (plug : P) : World σ P :=
  (w.setConnected ref).emit (.onConnect ref plug)

/-- The device after a plug took a piece of data. -/
def World.afterReceive (w : World σ P) (ref : Ref) (data : List UInt8) : World σ P :=
  (w.addHostFwdCnt ref data).sendOp ref .creditUpdate

/-- Attaching a plug changes one stream and the history. -/
theorem World.afterAccept_fields {w : World σ P} {ref : Ref} {plug : P} {hdr : VirtioVsockHdr} :
    (w.afterAccept ref plug hdr).mSrcPortAllocator = w.mSrcPortAllocator ∧
      (w.afterAccept ref plug hdr).mOrphanPackets = w.mOrphanPackets ∧
      (w.afterAccept ref plug hdr).mHostPortListeners = w.mHostPortListeners ∧
      (w.afterAccept ref plug hdr).nextRef = w.nextRef ∧
      (w.afterAccept ref plug hdr).vq = w.vq := by
  simp [World.afterAccept, World.sendOp, updateGuestCounters]

/-- The effects of calls from the host side. -/
inductive HostAtom (api : GoldfishVirtIOVSockDevAPI σ) (mode : Mode) :
    World σ P → World σ P → Prop
  /-- The first orphan packet is delivered and leaves the queue. -/
  | orphanSent {w : World σ P} {hdr : VirtioVsockHdr} {rest : List VirtioVsockHdr}
      (horph : w.mOrphanPackets = hdr :: rest)
      (hfull : virtIOVSockSendIsVqFull (w.sendPacketHostToGuest api none hdr []).1 = false) :
      HostAtom api mode w
        { (w.sendPacketHostToGuest api none hdr []).2 with mOrphanPackets := rest }
  /-- The first orphan packet stays because the virtqueue is full. -/
  | orphanKept {w : World σ P} {hdr : VirtioVsockHdr} {rest : List VirtioVsockHdr}
      (horph : w.mOrphanPackets = hdr :: rest)
      (hfull : virtIOVSockSendIsVqFull (w.sendPacketHostToGuest api none hdr []).1 = true) :
      HostAtom api mode w (w.sendPacketHostToGuest api none hdr []).2
  /-- A guest without free buffer space is to be asked for credit. -/
  | needCredit {w : World σ P} {s : VsockStream P} (hs : s ∈ w.mStreams)
      (hzero : s.guestAvailSize = 0) : HostAtom api mode w (w.sendOp s.ref .creditRequest)
  /-- The first operation of a mask is delivered and leaves the mask. No orphan packet is
  waiting at that time. -/
  | opSent {w : World σ P} {s : VsockStream P} {op : VirtioVsockOp} (hs : s ∈ w.mStreams)
      (horph : w.mOrphanPackets = []) (hop : s.FirstOp op)
      (hfull : virtIOVSockSendIsVqFull
        (w.sendPacketHostToGuest api (some s.ref) (s.preparePacketHeader op 0) []).1 = false) :
      HostAtom api mode w
        ((w.sendPacketHostToGuest api (some s.ref) (s.preparePacketHeader op 0) []).2.clearOp
          s.ref op)
  /-- The first operation of a mask stays because the virtqueue is full. -/
  | opKept {w : World σ P} {s : VsockStream P} {op : VirtioVsockOp} (hs : s ∈ w.mStreams)
      (horph : w.mOrphanPackets = []) (hop : s.FirstOp op)
      (hfull : virtIOVSockSendIsVqFull
        (w.sendPacketHostToGuest api (some s.ref) (s.preparePacketHeader op 0) []).1 = true) :
      HostAtom api mode w
        (w.sendPacketHostToGuest api (some s.ref) (s.preparePacketHeader op 0) []).2
  /-- A mask without sendable operations is reset. -/
  | maskCleared {w : World σ P} {s : VsockStream P} (hs : s ∈ w.mStreams)
      (hnone : ∀ op ∈ maskOps, s.hasOp op = false) : HostAtom api mode w (w.setMask s.ref 0)
  /-- Data is offered to the queue; what was sent is consumed. By now no orphan packet
  and no operation of this stream is waiting. -/
  | dataSent {w : World σ P} {s : VsockStream P} {avail : Nat} {buf : SocketBuffer}
      (hs : s ∈ w.mStreams) (horph : w.mOrphanPackets = []) (hmask : s.sendOpMask = 0)
      (hok : s.hostToGuestBuf.Ok) (hpend : s.hostToGuestBuf.pending ≠ [])
      (havail : 0 < avail) (havail' : api.Bounded → avail = s.guestAvailSize)
      {hdr : VirtioVsockHdr}
      (hhdr : hdr = s.preparePacketHeader .rw
        (UInt32.ofNat (min s.hostToGuestBuf.pending.length avail)))
      (hbuf : s.hostToGuestBuf.consume (virtIOVSockSentSize
        (w.sendPacketHostToGuest api (some s.ref) hdr s.hostToGuestBuf.pending).1) = .ok buf) :
      HostAtom api mode w
        ((w.sendPacketHostToGuest api (some s.ref) hdr s.hostToGuestBuf.pending).2.afterSend s.ref
          buf (virtIOVSockSentSize
            (w.sendPacketHostToGuest api (some s.ref) hdr s.hostToGuestBuf.pending).1))
  /-- The guest is notified. -/
  | notified {w : World σ P} : HostAtom api mode w (w.emit .notify)
  /-- `connect` makes a stream on a dynamic port. -/
  | connected {w w' : World σ P} {guestPort : UInt32} {plug : P}
      (hemplace : World.emplace { w with mSrcPortAllocator := w.mSrcPortAllocator.get.2 } guestPort
        (w.mSrcPortAllocator.get.1 + kDynamicPortsStart) .connect = some w')
      (hbound : mode.bounded = true → w.dynamicCount < 2 ^ 31 - 1) :
      HostAtom api mode w (w'.afterConnect w.nextRef plug)
  /-- `listen` on a port. -/
  | listened {w : World σ P} {hostPort : UInt32}
      (hbound : mode.bounded = true → hostPort < kDynamicPortsStart) :
      HostAtom api mode w
        { w with mHostPortListeners := insert hostPort w.mHostPortListeners }
  /-- The sniffer sees outgoing data. -/
  | sniffed {w : World σ P} {sniffer : Nat} {data : List UInt8} :
      HostAtom api mode w (w.emit (.toSocket sniffer data))
  /-- `sendAsync` on a connected stream stores its data. -/
  | buffered {w : World σ P} {s : VsockStream P} {data : List UInt8} (hs : s ∈ w.mStreams)
      (hconn : s.isConnected = true) : HostAtom api mode w (w.afterSendAsync s.ref data)
  /-- `switchPlug`. -/
  | plugSwitched {w : World σ P} {s : VsockStream P} {plug : P} (hs : s ∈ w.mStreams)
      (hswitch : mode.noSwitch = false) :
      HostAtom api mode w (w.modify s.ref fun s => { s with plug := some plug })
  /-- `setDataSniffer`. -/
  | snifferSet {w : World σ P} {s : VsockStream P} {sniffer : Option Nat} (hs : s ∈ w.mStreams) :
      HostAtom api mode w (w.modify s.ref fun s => { s with dataSniffer := sniffer })
  /-- A plug hangs up. -/
  | unplugged {w w' : World σ P} {s : VsockStream P} {p : P} (hs : s ∈ w.mStreams)
      (hplug : s.plug = some p)
      (hrecycle : recycleStreamQuietly (w.emit (.unplugged s.ref p)) s .shutdown = .ok w') :
      HostAtom api mode w (w'.erase s)

/-- Which callback the device is inside of. -/
inductive Ctl
  | idle
  /-- The listener is asked for a plug for this stream. -/
  | accepting (s : Ref)
  /-- The plug of this stream refused data and is about to be unplugged. -/
  | refused (s : Ref)
  /-- The plug of this stream is being unplugged. -/
  | closing (s : Ref)
  deriving DecidableEq

/-- The effects of everything but a device reset. -/
inductive Atom (api : GoldfishVirtIOVSockDevAPI σ) (mode : Mode) :
    Ctl × World σ P → Ctl × World σ P → Prop
  /-- A call from the host side, from outside or from inside a callback. -/
  | host {c : Ctl} {w w' : World σ P} (h : HostAtom api mode w w')
      (hquiet : mode.quiet = true → c = .idle) (hc : ∀ s, c ≠ .refused s) :
      Atom api mode (c, w) (c, w')
  /-- The guest changes what it offers on the queue. -/
  | guestRx {w : World σ P} {vq : σ} : Atom api mode (.idle, w) (.idle, { w with vq })
  /-- The counters of a header are stored. -/
  | header {w : World σ P} {s : VsockStream P} {hdr : VirtioVsockHdr} (hs : s ∈ w.mStreams) :
      Atom api mode (.idle, w) (.idle, updateGuestCounters w s.ref hdr)
  /-- A CREDIT_REQUEST is to be answered. -/
  | creditAsked {w : World σ P} {s : VsockStream P} (hs : s ∈ w.mStreams) :
      Atom api mode (.idle, w) (.idle, w.sendOp s.ref .creditUpdate)
  /-- A packet nobody expects is to be answered with a RST. -/
  | resetQueued {w : World σ P} {hdr : VirtioVsockHdr} :
      Atom api mode (.idle, w) (.idle, queueReset w hdr)
  /-- A REQUEST for a port with a listener makes a stream, without a plug so far. -/
  | requested {w w' : World σ P} {hdr : VirtioVsockHdr}
      (hlisten : hdr.dstPort ∈ w.mHostPortListeners)
      (hemplace : w.emplace hdr.srcPort hdr.dstPort .listener = some w') :
      Atom api mode (.idle, w) (.accepting w.nextRef, w')
  /-- The listener accepts. -/
  | accepted {w : World σ P} {s : VsockStream P} {plug : P} {hdr : VirtioVsockHdr}
      (hs : s ∈ w.mStreams) :
      Atom api mode (.accepting s.ref, w) (.idle, w.afterAccept s.ref plug hdr)
  /-- The listener declines. -/
  | declined {w : World σ P} {s : VsockStream P} (hs : s ∈ w.mStreams) :
      Atom api mode (.accepting s.ref, w) (.idle, w.erase s)
  /-- A RESPONSE: its header has just been stored, and the stream becomes connected. -/
  | responded {w : World σ P} {s : VsockStream P} {plug : P} {hdr : VirtioVsockHdr}
      (hs : s ∈ w.mStreams) (hplug : s.plug = some plug)
      (hop : hdr.op = VirtioVsockOp.response.code)
      (honce : mode.onceConnected = true → s.isConnected = false) :
      Atom api mode (.idle, w)
        (.idle, (updateGuestCounters w s.ref hdr).afterResponse s.ref plug)
  /-- The sniffer sees incoming data. -/
  | sniffed {w : World σ P} {sniffer : Nat} {data : List UInt8} :
      Atom api mode (.idle, w) (.idle, w.emit (.toPlug sniffer data))
  /-- Data is handed to the plug of a connected stream. -/
  | handed {w : World σ P} {s : VsockStream P} {plug : P} {data : List UInt8}
      (hs : s ∈ w.mStreams) (hconn : s.isConnected = true) (hplug : s.plug = some plug) :
      Atom api mode (.idle, w) (.idle, w.emit (.onReceive s.ref plug data))
  /-- The plug took the data. -/
  | taken {w : World σ P} {s : VsockStream P} {data : List UInt8} (hs : s ∈ w.mStreams) :
      Atom api mode (.idle, w) (.idle, w.afterReceive s.ref data)
  /-- The plug refused the data. -/
  | refused {w : World σ P} {s : VsockStream P} {plug : P} (hs : s ∈ w.mStreams)
      (hkeeps : mode.keepsPlug = true → s.plug = some plug) :
      Atom api mode (.idle, w) (.refused s.ref, w.emit (.refused s.ref plug))
  /-- A stream is taken down: its plug is told. -/
  | unplugging {c : Ctl} {w : World σ P} {s : VsockStream P} {plug : P} (hs : s ∈ w.mStreams)
      (hplug : s.plug = some plug) (hc : c = .idle ∨ c = .refused s.ref) :
      Atom api mode (c, w) (.closing s.ref, w.emit (.onUnplug s.ref plug))
  /-- The stream taken down is recycled and erased. -/
  | recycled {w w' : World σ P} {s : VsockStream P} {op : VirtioVsockOp} (hs : s ∈ w.mStreams)
      (hrecycle : recycleStreamQuietly w s op = .ok w') :
      Atom api mode (.closing s.ref, w) (.idle, w'.erase s)

/-- Finitely many effects of host calls. -/
abbrev HostAtoms (api : GoldfishVirtIOVSockDevAPI σ) (mode : Mode) :
    World σ P → World σ P → Prop :=
  Relation.ReflTransGen (HostAtom api mode)

/-- Finitely many effects. -/
abbrev Atoms (api : GoldfishVirtIOVSockDevAPI σ) (mode : Mode) :
    Ctl × World σ P → Ctl × World σ P → Prop :=
  Relation.ReflTransGen (Atom api mode)

variable {api : GoldfishVirtIOVSockDevAPI σ} {mode : Mode}

theorem Atoms.ofHost {c : Ctl} {w w' : World σ P} (hquiet : mode.quiet = true → c = .idle)
    (hc : ∀ s, c ≠ .refused s) (h : HostAtoms api mode w w') :
    Atoms api mode (c, w) (c, w') := by
  induction h with
  | refl => exact .refl
  | tail _ hab ih => exact ih.tail (.host hab hquiet hc)

/-! ### A stream is created -/

section Emplace

variable {w w' : World σ P} {guestPort hostPort : UInt32} {origin : Origin}

theorem emplace_inv (h : w.emplace guestPort hostPort origin = some w') :
    ∃ streams, w.mStreams.emplace { ref := w.nextRef, guestPort, hostPort } = some streams ∧
      w' = World.emit { w with mStreams := streams, nextRef := w.nextRef + 1 }
        (.created w.nextRef ⟨guestPort, hostPort⟩ origin) := by
  unfold World.emplace at h
  split at h
  · next streams hstreams => exact ⟨streams, hstreams, (Option.some.inj h).symm⟩
  · simp at h

theorem emplace_nextRef (h : w.emplace guestPort hostPort origin = some w') :
    w'.nextRef = w.nextRef + 1 := by
  obtain ⟨streams, -, rfl⟩ := emplace_inv h
  rfl

theorem emplace_mSrcPortAllocator (h : w.emplace guestPort hostPort origin = some w') :
    w'.mSrcPortAllocator = w.mSrcPortAllocator := by
  obtain ⟨streams, -, rfl⟩ := emplace_inv h
  rfl

theorem emplace_mOrphanPackets (h : w.emplace guestPort hostPort origin = some w') :
    w'.mOrphanPackets = w.mOrphanPackets := by
  obtain ⟨streams, -, rfl⟩ := emplace_inv h
  rfl

theorem mem_emplace (h : w.emplace guestPort hostPort origin = some w') {t : VsockStream P} :
    t ∈ w'.mStreams ↔ t = { ref := w.nextRef, guestPort, hostPort } ∨ t ∈ w.mStreams := by
  obtain ⟨streams, hstreams, rfl⟩ := emplace_inv h
  exact StdSet.mem_emplace hstreams

end Emplace

/-! ### Addresses stay distinct -/

namespace World.Wf

variable {w w' : World σ P}

/-- Only the streams and the next address matter. -/
theorem congr (hw : w.Wf) (h : w'.mStreams = w.mStreams) (hn : w'.nextRef = w.nextRef) :
    w'.Wf where
  ref_lt s hs := by
    rw [h] at hs
    rw [hn]
    exact hw.ref_lt s hs
  ref_inj s hs t ht := by
    rw [h] at hs ht
    exact hw.ref_inj s hs t ht

theorem emit (hw : w.Wf) {e : Event σ P} : (w.emit e).Wf := hw.congr rfl rfl

theorem sendPacketHostToGuest (hw : w.Wf) {source : Option Ref} {hdr : VirtioVsockHdr}
    {data : List UInt8} : (w.sendPacketHostToGuest api source hdr data).2.Wf := hw.congr rfl rfl

theorem modify (hw : w.Wf) {ref : Ref} {f : VsockStream P → VsockStream P} {hf : KeepsIdentity f} :
    (w.modify ref f hf).Wf where
  ref_lt t ht := by
    obtain ⟨s, hs, rfl⟩ := mem_modify.mp ht
    have := hw.ref_lt s hs
    split
    · rw [hf.ref s]
      exact this
    · exact this
  ref_inj t ht t' ht' h := by
    obtain ⟨s, hs, rfl⟩ := mem_modify.mp ht
    obtain ⟨s', hs', rfl⟩ := mem_modify.mp ht'
    have href : ∀ s : VsockStream P, (if s.ref = ref then f s else s).ref = s.ref := by
      intro s
      split
      · exact hf.ref s
      · rfl
    rw [href, href] at h
    rw [hw.ref_inj s hs s' hs' h]

theorem sendOp (hw : w.Wf) {ref : Ref} {op : VirtioVsockOp} : (w.sendOp ref op).Wf := by
  unfold World.sendOp
  exact hw.modify.emit

theorem updateGuestCounters (hw : w.Wf) {ref : Ref} {hdr : VirtioVsockHdr} :
    (Vsock.updateGuestCounters w ref hdr).Wf := by
  unfold Vsock.updateGuestCounters
  exact hw.modify.emit

theorem emplace (hw : w.Wf) {guestPort hostPort : UInt32} {origin : Origin}
    (h : w.emplace guestPort hostPort origin = some w') : w'.Wf := by
  obtain ⟨streams, hstreams, rfl⟩ := emplace_inv h
  have hmem := fun b => StdSet.mem_emplace (b := b) hstreams
  constructor
  · intro s hs
    rcases (hmem s).mp hs with rfl | hs
    · exact Nat.lt_succ_self _
    · exact Nat.lt_succ_of_lt (hw.ref_lt s hs)
  · intro s hs t ht heq
    rcases (hmem s).mp hs with rfl | hs <;> rcases (hmem t).mp ht with rfl | ht
    · rfl
    · exact absurd heq.symm (hw.ref_lt t ht).ne
    · exact absurd heq (hw.ref_lt s hs).ne
    · exact hw.ref_inj s hs t ht heq

theorem erase (hw : w.Wf) {s : VsockStream P} : (w.erase s).Wf where
  ref_lt t ht := hw.ref_lt t (StdSet.mem_erase.mp ht).1
  ref_inj t ht t' ht' := hw.ref_inj t (StdSet.mem_erase.mp ht).1 t' (StdSet.mem_erase.mp ht').1

end World.Wf

/-! ### One stream changes, the others stay

Every effect on a live stream replaces it by an updated one; `World.Updated` is what an
invariant about streams needs to know of it. -/

/-- The streams of `w'` are those of `w` with `s` replaced by `s'`. -/
def World.Updated (w w' : World σ P) (s s' : VsockStream P) : Prop :=
  ∀ t, t ∈ w'.mStreams ↔ t = s' ∨ (t ∈ w.mStreams ∧ t.ref ≠ s.ref)

section Updated

variable {w w₁ w₂ : World σ P} {s s₁ s₂ : VsockStream P}

theorem World.Updated.mem (h : w.Updated w₁ s s₁) : s₁ ∈ w₁.mStreams := (h s₁).mpr (Or.inl rfl)

theorem World.Updated.trans (h₁ : w.Updated w₁ s s₁) (h₂ : w₁.Updated w₂ s₁ s₂)
    (href : s₁.ref = s.ref) : w.Updated w₂ s s₂ := by
  intro t
  rw [h₂ t, h₁ t, href]
  constructor
  · rintro (h | ⟨rfl | h, hne⟩)
    · exact Or.inl h
    · exact absurd href hne
    · exact Or.inr h
  · rintro (h | h)
    · exact Or.inl h
    · exact Or.inr ⟨Or.inr h, h.2⟩

theorem updated_modify (hw : w.Wf) (hs : s ∈ w.mStreams) (f : VsockStream P → VsockStream P)
    (hf : KeepsIdentity f) : w.Updated (w.modify s.ref f hf) s (f s) := by
  intro t
  rw [World.mem_modify_iff]
  constructor
  · rintro (⟨hne, ht⟩ | ⟨s', hs', href, rfl⟩)
    · exact Or.inr ⟨ht, hne⟩
    · exact Or.inl (by rw [hw.ref_inj s' hs' s hs href])
  · rintro (rfl | ⟨ht, hne⟩)
    · exact Or.inr ⟨s, hs, rfl, rfl⟩
    · exact Or.inl ⟨hne, ht⟩

variable (hw : w.Wf) (hs : s ∈ w.mStreams)
include hw hs

theorem updated_self : w.Updated w s s := by
  intro t
  constructor
  · intro ht
    by_cases href : t.ref = s.ref
    · exact Or.inl (hw.ref_inj t ht s hs href)
    · exact Or.inr ⟨ht, href⟩
  · rintro (rfl | ⟨ht, -⟩)
    · exact hs
    · exact ht

theorem updated_sendOp (op : VirtioVsockOp) : w.Updated (w.sendOp s.ref op) s
    { s with sendOpMask := s.sendOpMask ||| op.bit } :=
  updated_modify hw hs (fun s => { s with sendOpMask := s.sendOpMask ||| op.bit })
    ⟨fun _ => rfl, fun _ => rfl⟩

theorem updated_setMask (mask : UInt8) : w.Updated (w.setMask s.ref mask) s
    { s with sendOpMask := mask } :=
  updated_modify hw hs (fun s => { s with sendOpMask := mask }) ⟨fun _ => rfl, fun _ => rfl⟩

theorem updated_clearOp (op : VirtioVsockOp) : w.Updated (w.clearOp s.ref op) s
    { s with sendOpMask := s.sendOpMask &&& ~~~op.bit } :=
  updated_modify hw hs (fun s => { s with sendOpMask := s.sendOpMask &&& ~~~op.bit })
    ⟨fun _ => rfl, fun _ => rfl⟩

theorem updated_afterSend (buf : SocketBuffer) (n : Nat) :
    w.Updated (w.afterSend s.ref buf n) s
      { s with hostToGuestBuf := buf, hostSentCnt := s.hostSentCnt + UInt32.ofNat n } :=
  updated_modify hw hs (fun s =>
    { s with hostToGuestBuf := buf, hostSentCnt := s.hostSentCnt + UInt32.ofNat n })
    ⟨fun _ => rfl, fun _ => rfl⟩

theorem updated_afterSendAsync (data : List UInt8) : w.Updated (w.afterSendAsync s.ref data) s
    { s with hostToGuestBuf := s.hostToGuestBuf.append data } :=
  updated_modify hw hs (fun s => { s with hostToGuestBuf := s.hostToGuestBuf.append data })
    ⟨fun _ => rfl, fun _ => rfl⟩

theorem updated_updateGuestCounters (hdr : VirtioVsockHdr) :
    w.Updated (updateGuestCounters w s.ref hdr) s
      { s with guestBufAlloc := hdr.bufAlloc, guestFwdCnt := hdr.fwdCnt } :=
  updated_modify hw hs (fun s =>
    { s with guestBufAlloc := hdr.bufAlloc, guestFwdCnt := hdr.fwdCnt }) ⟨fun _ => rfl, fun _ => rfl⟩

theorem updated_setPlug (plug : P) :
    w.Updated (w.modify s.ref fun s => { s with plug := some plug }) s
      { s with plug := some plug } :=
  updated_modify hw hs (fun s => { s with plug := some plug }) ⟨fun _ => rfl, fun _ => rfl⟩

theorem updated_setDataSniffer (sniffer : Option Nat) :
    w.Updated (w.modify s.ref fun s => { s with dataSniffer := sniffer }) s
      { s with dataSniffer := sniffer } :=
  updated_modify hw hs (fun s => { s with dataSniffer := sniffer }) ⟨fun _ => rfl, fun _ => rfl⟩

theorem updated_setConnected :
    w.Updated (w.modify s.ref fun s => { s with isConnected := true }) s
      { s with isConnected := true } :=
  updated_modify hw hs (fun s => { s with isConnected := true }) ⟨fun _ => rfl, fun _ => rfl⟩

theorem updated_afterConnect (plug : P) : w.Updated (w.afterConnect s.ref plug) s
    { s with plug := some plug, sendOpMask := s.sendOpMask ||| VirtioVsockOp.request.bit } := by
  have hplug := updated_setPlug hw hs plug
  exact hplug.trans (updated_sendOp hw.modify hplug.mem .request) rfl

theorem updated_afterAccept (plug : P) (hdr : VirtioVsockHdr) :
    w.Updated (w.afterAccept s.ref plug hdr) s
      { s with
        plug := some plug
        guestBufAlloc := hdr.bufAlloc
        guestFwdCnt := hdr.fwdCnt
        isConnected := true
        sendOpMask := s.sendOpMask ||| VirtioVsockOp.response.bit } := by
  have hplug := updated_setPlug hw hs plug
  have hcounters := updated_updateGuestCounters hw.modify hplug.mem hdr
  have hconn := updated_setConnected hw.modify.updateGuestCounters hcounters.mem
  have hop := updated_sendOp hw.modify.updateGuestCounters.modify hconn.mem .response
  exact ((hplug.trans hcounters rfl).trans hconn rfl).trans hop rfl

theorem updated_afterResponse (plug : P) (hdr : VirtioVsockHdr) :
    w.Updated ((updateGuestCounters w s.ref hdr).afterResponse s.ref plug) s
      { s with
        guestBufAlloc := hdr.bufAlloc
        guestFwdCnt := hdr.fwdCnt
        isConnected := true } := by
  have hcounters := updated_updateGuestCounters hw hs hdr
  exact hcounters.trans (updated_setConnected hw.updateGuestCounters hcounters.mem) rfl

theorem updated_afterReceive (data : List UInt8) : w.Updated (w.afterReceive s.ref data) s
    { s with
      hostFwdCnt := s.hostFwdCnt + UInt32.ofNat data.length
      sendOpMask := s.sendOpMask ||| VirtioVsockOp.creditUpdate.bit } := by
  have hcnt := updated_modify hw hs
    (fun s => { s with hostFwdCnt := s.hostFwdCnt + UInt32.ofNat data.length })
    ⟨fun _ => rfl, fun _ => rfl⟩
  exact hcnt.trans (updated_sendOp hw.modify hcnt.mem .creditUpdate) rfl

end Updated

/-- Inversion of `recycleStreamQuietly`: a packet is queued unless the operation is
`invalid`, and the port of a dynamic stream is put back. -/
theorem recycleStreamQuietly_inv {w w' : World σ P} {s : VsockStream P} {op : VirtioVsockOp}
    (h : recycleStreamQuietly w s op = .ok w') :
    ∃ alloc, w' = { (if op ≠ .invalid then w.queueOrphanPacket (s.preparePacketHeader op 0)
        else w) with mSrcPortAllocator := alloc } ∧
      ((s.isDynamic = true ∧ w.mSrcPortAllocator.put s.dynamicId = .ok alloc) ∨
        (s.isDynamic = false ∧ alloc = w.mSrcPortAllocator)) := by
  unfold recycleStreamQuietly at h
  have halloc : (if op ≠ .invalid then w.queueOrphanPacket (s.preparePacketHeader op 0)
      else w).mSrcPortAllocator = w.mSrcPortAllocator := by
    split <;> rfl
  by_cases hdyn : kDynamicPortsStart ≤ s.hostPort
  · simp only [if_pos hdyn, bind_eq_ok, pure_eq_ok] at h
    obtain ⟨alloc, hput, rfl⟩ := h
    rw [halloc] at hput
    exact ⟨alloc, rfl, Or.inl ⟨by simpa [VsockStream.isDynamic] using hdyn, hput⟩⟩
  · simp only [if_neg hdyn, pure_eq_ok] at h
    refine ⟨w.mSrcPortAllocator, ?_, Or.inr ⟨by simpa [VsockStream.isDynamic] using hdyn, rfl⟩⟩
    rw [← h]
    split <;> rfl

theorem recycleStreamQuietly_mStreams {w w' : World σ P} {s : VsockStream P} {op : VirtioVsockOp}
    (h : recycleStreamQuietly w s op = .ok w') :
    w'.mStreams = w.mStreams ∧ w'.nextRef = w.nextRef := by
  obtain ⟨alloc, rfl, -⟩ := recycleStreamQuietly_inv h
  split <;> exact ⟨rfl, rfl⟩

/-! ### What a step preserves: addresses -/

theorem HostAtom.wf {w w' : World σ P} (h : HostAtom api mode w w') (hw : w.Wf) : w'.Wf := by
  cases h with
  | orphanSent _ _ => exact hw.congr rfl rfl
  | orphanKept _ _ => exact hw.sendPacketHostToGuest
  | needCredit _ _ => exact hw.sendOp
  | opSent _ _ _ _ =>
      unfold World.clearOp
      exact hw.sendPacketHostToGuest.modify
  | opKept _ _ _ _ => exact hw.sendPacketHostToGuest
  | maskCleared _ _ =>
      unfold World.setMask
      exact hw.modify
  | dataSent _ _ _ _ _ _ _ _ _ =>
      unfold World.afterSend
      exact hw.sendPacketHostToGuest.modify
  | notified => exact hw.emit
  | connected hemplace _ =>
      unfold World.afterConnect
      refine (World.Wf.emplace ?_ hemplace).modify.sendOp
      exact hw.congr rfl rfl
  | listened _ => exact hw.congr rfl rfl
  | sniffed => exact hw.emit
  | buffered _ _ =>
      unfold World.afterSendAsync
      exact hw.modify.emit
  | plugSwitched _ _ => exact hw.modify
  | snifferSet _ => exact hw.modify
  | unplugged _ _ hrecycle =>
      obtain ⟨hst, hn⟩ := recycleStreamQuietly_mStreams hrecycle
      exact (hw.congr hst hn).erase

theorem Atom.wf {x y : Ctl × World σ P} (h : Atom api mode x y) (hw : x.2.Wf) : y.2.Wf := by
  cases h with
  | host h _ _ => exact h.wf hw
  | guestRx => exact hw.congr rfl rfl
  | header _ => exact hw.updateGuestCounters
  | creditAsked _ => exact hw.sendOp
  | resetQueued => exact hw.congr rfl rfl
  | requested _ hemplace => exact hw.emplace hemplace
  | accepted _ =>
      unfold World.afterAccept
      exact hw.modify.updateGuestCounters.modify.sendOp.emit
  | declined _ => exact hw.erase
  | responded _ _ _ _ =>
      unfold World.afterResponse
      exact hw.updateGuestCounters.modify.emit
  | sniffed => exact hw.emit
  | handed _ _ _ => exact hw.emit
  | taken _ =>
      unfold World.afterReceive
      exact hw.modify.sendOp
  | refused _ _ => exact hw.emit
  | unplugging _ _ _ => exact hw.emit
  | recycled _ hrecycle =>
      obtain ⟨hst, hn⟩ := recycleStreamQuietly_mStreams hrecycle
      exact World.Wf.erase (hw.congr hst hn)

theorem HostAtoms.wf {w w' : World σ P} (h : HostAtoms api mode w w') (hw : w.Wf) : w'.Wf :=
  star_invariant (fun _ _ h => h.wf) h hw

theorem Atoms.wf {x y : Ctl × World σ P} (h : Atoms api mode x y) (hw : x.2.Wf) : y.2.Wf :=
  star_invariant (I := fun x => x.2.Wf) (fun _ _ h => h.wf) h hw

/-! ### What a step does to the streams and the ports

Most invariants do not care which rule was applied. They need to know that a step
leaves the streams alone, updates one of them without touching its identity, creates
one or erases one, and what happens to the port allocator meanwhile. -/

/-- What every update of a stream keeps. -/
structure VsockStream.Kept (s s' : VsockStream P) : Prop where
  ref : s'.ref = s.ref
  key : s'.key = s.key
  plug : s.plug.isSome = true → s'.plug.isSome = true
  buf : s.hostToGuestBuf.Ok → s'.hostToGuestBuf.Ok

/-- The stream whose listener is being asked: the only one without a plug. -/
def Ctl.newborn : Ctl → Option Ref
  | .accepting s => some s
  | _ => none

/-- What a step can do to the streams and the port allocator. -/
inductive Effect (mode : Mode) (x y : Ctl × World σ P) : Prop
  | same (hc : y.1.newborn = x.1.newborn) (hstreams : y.2.mStreams = x.2.mStreams)
      (halloc : y.2.mSrcPortAllocator = x.2.mSrcPortAllocator)
  | updated {s s' : VsockStream P} (hc : y.1.newborn = x.1.newborn) (hs : s ∈ x.2.mStreams)
      (hupd : x.2.Updated y.2 s s') (hkept : s.Kept s')
      (halloc : y.2.mSrcPortAllocator = x.2.mSrcPortAllocator)
  /-- A guest request: a listener's port, and no plug so far. -/
  | requested {s : VsockStream P} (hc : x.1.newborn = none) (hc' : y.1.newborn = some s.ref)
      (hmem : ∀ t, t ∈ y.2.mStreams ↔ t = s ∨ t ∈ x.2.mStreams) (href : s.ref = x.2.nextRef)
      (hbuf : s.hostToGuestBuf.Ok) (hport : s.hostPort ∈ x.2.mHostPortListeners)
      (halloc : y.2.mSrcPortAllocator = x.2.mSrcPortAllocator)
  | accepted {s s' : VsockStream P} (hc : x.1.newborn = some s.ref) (hc' : y.1.newborn = none)
      (hs : s ∈ x.2.mStreams) (hupd : x.2.Updated y.2 s s') (hkept : s.Kept s')
      (hplug : s'.plug.isSome = true)
      (halloc : y.2.mSrcPortAllocator = x.2.mSrcPortAllocator)
  /-- The listener declined; the stream never had a port of its own. -/
  | declined {s : VsockStream P} (hc : x.1.newborn = some s.ref) (hc' : y.1.newborn = none)
      (hs : s ∈ x.2.mStreams) (hmem : ∀ t, t ∈ y.2.mStreams ↔ t ∈ x.2.mStreams ∧ t.ref ≠ s.ref)
      (halloc : y.2.mSrcPortAllocator = x.2.mSrcPortAllocator)
  /-- `connect`: a port from the allocator, and a plug. -/
  | connected {s : VsockStream P} (hc : y.1.newborn = x.1.newborn)
      (hmem : ∀ t, t ∈ y.2.mStreams ↔ t = s ∨ t ∈ x.2.mStreams) (href : s.ref = x.2.nextRef)
      (hbuf : s.hostToGuestBuf.Ok) (hplug : s.plug.isSome = true)
      (hport : s.hostPort = x.2.mSrcPortAllocator.get.1 + kDynamicPortsStart)
      (halloc : y.2.mSrcPortAllocator = x.2.mSrcPortAllocator.get.2)
      (hbound : mode.bounded = true → x.2.dynamicCount < 2 ^ 31 - 1)
      (hquiet : mode.quiet = true → x.1.newborn = none)
  | erased {s : VsockStream P} (hc : y.1.newborn = x.1.newborn) (hs : s ∈ x.2.mStreams)
      (hmem : ∀ t, t ∈ y.2.mStreams ↔ t ∈ x.2.mStreams ∧ t.ref ≠ s.ref)
      (halloc : (s.isDynamic = true ∧
          x.2.mSrcPortAllocator.put s.dynamicId = .ok y.2.mSrcPortAllocator) ∨
        (s.isDynamic = false ∧ y.2.mSrcPortAllocator = x.2.mSrcPortAllocator))

/-- Erasing by ports is erasing by address. -/
theorem mem_world_erase {w : World σ P} (hw : w.Wf) {s : VsockStream P} (hs : s ∈ w.mStreams)
    {t : VsockStream P} : t ∈ (w.erase s).mStreams ↔ t ∈ w.mStreams ∧ t.ref ≠ s.ref := by
  refine StdSet.mem_erase.trans (and_congr_right fun ht => not_congr ⟨fun h => ?_, fun h => ?_⟩)
  · rw [StdSet.eq_of_key_eq ht hs h]
  · rw [hw.ref_inj t ht s hs h]

/-- A stream that is recycled and erased. -/
theorem Effect.of_recycled {c c' : Ctl} {w v w' : World σ P} {s : VsockStream P}
    {op : VirtioVsockOp} (hw : w.Wf) (hs : s ∈ w.mStreams) (hc : c'.newborn = c.newborn)
    (hstreams : v.mStreams = w.mStreams) (halloc : v.mSrcPortAllocator = w.mSrcPortAllocator)
    (hrecycle : recycleStreamQuietly v s op = .ok w') : Effect mode (c, w) (c', w'.erase s) := by
  obtain ⟨alloc, rfl, hput⟩ := recycleStreamQuietly_inv hrecycle
  refine .erased hc hs (fun t => ?_) ?_
  · rw [← mem_world_erase hw hs]
    unfold World.erase
    simp only [World.emit_mStreams]
    split
    · rw [World.queueOrphanPacket, World.emit_mStreams, hstreams]
    · rw [hstreams]
  · rw [halloc] at hput
    exact hput

theorem HostAtom.effect {c : Ctl} {w w' : World σ P} (h : HostAtom api mode w w') (hw : w.Wf)
    (hquiet : mode.quiet = true → c.newborn = none) : Effect mode (c, w) (c, w') := by
  cases h with
  | needCredit hs _ =>
      exact .updated rfl hs (updated_sendOp hw hs _) ⟨rfl, rfl, id, id⟩ rfl
  | opSent hs _ _ _ =>
      exact .updated rfl hs (updated_clearOp hw.sendPacketHostToGuest hs _) ⟨rfl, rfl, id, id⟩ rfl
  | maskCleared hs _ =>
      exact .updated rfl hs (updated_setMask hw hs 0) ⟨rfl, rfl, id, id⟩ rfl
  | dataSent hs _ _ _ _ _ _ _ hbuf =>
      exact .updated rfl hs (updated_afterSend hw.sendPacketHostToGuest hs _ _)
        ⟨rfl, rfl, id, fun _ => (SocketBuffer.consume_spec hbuf).1⟩ rfl
  | @connected w₁ guestPort plug hemplace hbound =>
      have hw₁ : w₁.Wf := by
        refine World.Wf.emplace ?_ hemplace
        exact hw.congr rfl rfl
      have hnew := (mem_emplace hemplace).mpr (Or.inl rfl)
      have hupd := updated_afterConnect hw₁ hnew plug
      let s : VsockStream P :=
        { ref := w.nextRef
          guestPort
          hostPort := w.mSrcPortAllocator.get.1 + kDynamicPortsStart
          plug := some plug
          sendOpMask := 0 ||| VirtioVsockOp.request.bit }
      refine .connected (s := s) rfl (fun t => ?_) rfl (Nat.zero_le _) rfl rfl ?_ hbound
        hquiet
      · rw [hupd t, mem_emplace hemplace]
        constructor
        · rintro (h | ⟨rfl | h, hne⟩)
          · exact Or.inl h
          · exact absurd rfl hne
          · exact Or.inr h
        · rintro (h | h)
          · exact Or.inl h
          · exact Or.inr ⟨Or.inr h, (hw.ref_lt t h).ne⟩
      · exact (emplace_mSrcPortAllocator hemplace : w₁.mSrcPortAllocator = _)
  | buffered hs _ =>
      exact .updated rfl hs (updated_afterSendAsync hw hs _)
        ⟨rfl, rfl, id, fun _ => SocketBuffer.append_ok _ _⟩ rfl
  | @plugSwitched _ plug hs _ =>
      exact .updated rfl hs (updated_setPlug hw hs plug) ⟨rfl, rfl, fun _ => rfl, id⟩ rfl
  | @snifferSet _ sniffer hs =>
      exact .updated rfl hs (updated_setDataSniffer hw hs sniffer) ⟨rfl, rfl, id, id⟩ rfl
  | @unplugged _ s p hs _ hrecycle =>
      exact .of_recycled (v := w.emit (.unplugged s.ref p)) hw hs rfl rfl rfl hrecycle
  | _ => exact .same rfl rfl rfl

theorem Atom.effect {x y : Ctl × World σ P} (h : Atom api mode x y) (hw : x.2.Wf) :
    Effect mode x y := by
  cases h with
  | host h hquiet _ => exact h.effect hw fun hq => hquiet hq ▸ rfl
  | header hs =>
      exact .updated rfl hs (updated_updateGuestCounters hw hs _) ⟨rfl, rfl, id, id⟩ rfl
  | creditAsked hs => exact .updated rfl hs (updated_sendOp hw hs _) ⟨rfl, rfl, id, id⟩ rfl
  | requested hlisten hemplace =>
      exact .requested rfl rfl (fun t => mem_emplace hemplace) rfl (Nat.zero_le _) hlisten
        (emplace_mSrcPortAllocator hemplace)
  | @accepted _ _ plug hdr hs =>
      exact .accepted rfl rfl hs (updated_afterAccept hw hs plug hdr) ⟨rfl, rfl, fun _ => rfl, id⟩
        rfl World.afterAccept_fields.1
  | declined hs => exact .declined rfl rfl hs (fun t => mem_world_erase hw hs) rfl
  | @responded _ _ plug hdr hs _ _ _ =>
      exact .updated rfl hs (updated_afterResponse hw hs plug hdr) ⟨rfl, rfl, id, id⟩ rfl
  | taken hs => exact .updated rfl hs (updated_afterReceive hw hs _) ⟨rfl, rfl, id, id⟩ rfl
  | unplugging _ _ hc =>
      refine .same ?_ rfl rfl
      rcases hc with rfl | rfl <;> rfl
  | recycled hs hrecycle => exact .of_recycled hw hs rfl rfl rfl hrecycle
  | _ => exact .same rfl rfl rfl

end Goldfish.Vsock
