import Mathlib.Data.Fintype.Card
import Goldfish.Cable.SaveLoad
import Goldfish.Vsock.Ports

/-!
# Goldfish.Vsock.Snapshot

**Snapshots of the device** (`saveToSnapshot`, `loadFromSnapshot` in `vsock.cpp`). The
allocator, the orphan packets and the streams are written one after the other, without
tags. A stream whose plug does not support loading is written as its ports and
`hostFwdCnt` only; when it is loaded, the guest gets a RST for it. Of the other streams
everything is written, and the plug is loaded by the loader for its type.

The loop over the streams of `loadFromSnapshot` ends with `return true` after the first
plug it has loaded, and the result of the function is an `int` in which 0 means success.
Two things follow. The snapshot is read back as it was written exactly if no plug supports
loading (`loadFromSnapshot_roundTrip_iff`). And the ports of the streams that were dropped
are not given back to the allocator: it agrees with the streams exactly if no stream with
a dynamic port was dropped (`loadFromSnapshot_portsAgree_iff`).
-/

namespace Goldfish.Vsock

open Goldfish.Lib
open Goldfish.Archive
open Goldfish.Cable

variable {σ P : Type}

/-! ### The parts of the device -/

/-- `UniqueIdAllocator::saveToSnapshot`. -/
def UniqueIdAllocator.saveToSnapshot (a : UniqueIdAllocator) : Bytes :=
  putUInt32 a.mLastId ++ (putSize a.mReturnedIds.elems.length ++
    a.mReturnedIds.elems.flatMap putUInt32)

/-- `UniqueIdAllocator::loadFromSnapshot`, which cannot fail. -/
def UniqueIdAllocator.loadFromSnapshot (r : Bytes) : UniqueIdAllocator × Bytes :=
  let (mLastId, r) := getUInt32 r
  let (n, r) := getSize r
  let (mReturnedIds, r) := getLoop (fun ids r => (getUInt32 r).map ids.insert id) n ∅ r
  ({ mLastId, mReturnedIds }, r)

/-- `SocketBuffer::saveToSnapshot`: the unconsumed bytes. -/
def SocketBuffer.saveToSnapshot (b : SocketBuffer) : Except Fault Bytes := do
  let x ← b.peek
  pure (putSize x.length ++ x)

/-- `SocketBuffer::loadFromSnapshot`. The size is kept in a `uint32_t`; bytes that cannot be
read are zero. Whether there were enough of them is its answer, which nobody looks at. -/
def SocketBuffer.loadFromSnapshot (r : Bytes) : SocketBuffer × Bytes :=
  let (size, r) := getUInt32 r
  let (data, r) := read r size.toNat
  ({ mBuf := data ++ List.replicate (size.toNat - data.length) 0, mConsumed := 0 }, r)

/-- An orphan packet in a snapshot. -/
def saveOrphan (packet : VirtioVsockHdr) : Bytes :=
  putUInt32 packet.srcPort ++ (putUInt32 packet.dstPort ++ (putUInt16 packet.op ++
    (putUInt32 packet.bufAlloc ++ putUInt32 packet.fwdCnt)))

/-- Orphan packets don't carry data. The other fields are not initialised; they are filled
in when the packet is sent. -/
def loadOrphan (r : Bytes) : VirtioVsockHdr × Bytes :=
  let (srcPort, r) := getUInt32 r
  let (dstPort, r) := getUInt32 r
  let (op, r) := getUInt16 r
  let (bufAlloc, r) := getUInt32 r
  let (fwdCnt, r) := getUInt32 r
  ({ srcPort, dstPort, op, bufAlloc, fwdCnt, len := 0 }, r)

/-! ### Saving -/

/-- `isConnected` and `sendOpMask` in one number. Bit 0 of the mask belongs to no operation
that is ever sent. -/
def VsockStream.flags (s : VsockStream P) : UInt32 :=
  (if s.isConnected then 1 else 0) ||| s.sendOpMask.toUInt32

/-- The part of a stream that is only written if its plug supports loading. -/
def saveLoadable (plugType : PlugType P Ref) (s : VsockStream P) (plug : P) :
    Except Fault (Bool × Bytes) := do
  if ¬ plugType.supportsLoadingFromSnapshot plug then pure (true, [])
  else if s.dataSniffer.isSome then .error .assertSniffer
  else
    let data ← s.hostToGuestBuf.saveToSnapshot
    let (ok, state) := savePlugToSnapshot plugType plug
    pure (ok, putUInt32 s.guestBufAlloc ++ (putUInt32 s.guestFwdCnt ++
      (putUInt32 s.hostSentCnt ++ (putUInt32 s.flags ++ (data ++ state)))))

/-- One stream: whether its plug could be saved, and the bytes. -/
def saveStream (plugType : PlugType P Ref) (s : VsockStream P) : Except Fault (Bool × Bytes) := do
  let plug ← notNull s.plug
  let (ok, body) ← saveLoadable plugType s plug
  pure (ok, putUInt32 s.guestPort ++ (putUInt32 s.hostPort ++ (putUInt32 s.hostFwdCnt ++
    (putBool (plugType.supportsLoadingFromSnapshot plug) ++ body))))

/-- The loop over `mStreams`. It is left when a plug could not be saved. -/
def saveStreams (plugType : PlugType P Ref) :
    List (VsockStream P) → Except Fault (Bool × Bytes)
  | [] => pure (true, [])
  | s :: streams => do
      let (ok, bytes) ← saveStream plugType s
      if ¬ ok then pure (false, bytes)
      else
        let (ok, more) ← saveStreams plugType streams
        pure (ok, bytes ++ more)

/-- The handlers for the state of the parent device, with the answer of the one that saves
and what it writes. -/
structure ParentState where
  mParentStateSave : Option (Int × Bytes) := none
  mParentStateLoad : Option (Bytes → Int × Bytes) := none

/-- Save the state of the parent, if there is a handler. -/
def ParentState.save (parent : ParentState) : Int × Bytes := parent.mParentStateSave.getD (0, [])

/-- Load the state of the parent, if there is a handler. -/
def ParentState.load (parent : ParentState) (r : Bytes) : Int × Bytes :=
  match parent.mParentStateLoad with
  | some load => load r
  | none => (0, r)

/-- The parent reads back what it has written. -/
def ParentState.Faithful (parent : ParentState) : Prop :=
  ∀ bytes rest, parent.save = (0, bytes) → parent.load (bytes ++ rest) = (0, rest)

/-- `saveToSnapshot`: its answer and the bytes. -/
def saveToSnapshot (plugType : PlugType P Ref) (parent : ParentState) (w : World σ P) :
    Except Fault (Int × Bytes) := do
  let (answer, parentBytes) := parent.save
  if answer ≠ 0 then pure (answer, parentBytes)
  else
    let (ok, streams) ← saveStreams plugType w.mStreams.elems
    pure (if ok then 0 else 1, parentBytes ++ (w.mSrcPortAllocator.saveToSnapshot ++
      (putSize w.mOrphanPackets.length ++ (w.mOrphanPackets.flatMap saveOrphan ++
        (putSize w.mStreams.elems.length ++ streams)))))

/-! ### Loading -/

/-- A stream whose plug supports loading. Its address is the old `nextRef`. -/
def loadStream (plugType : PlugType P Ref) (guestPort hostPort hostFwdCnt : UInt32)
    (w : World σ P) (r : Bytes) : Int × World σ P × Bytes :=
  let ref := w.nextRef
  match w.mStreams.emplace { ref, guestPort, hostPort } with
  | none => (1, w, r)
  | some mStreams =>
      let (guestBufAlloc, r) := getUInt32 r
      let (guestFwdCnt, r) := getUInt32 r
      let (hostSentCnt, r) := getUInt32 r
      let (flags, r) := getUInt8 r
      let (hostToGuestBuf, r) := SocketBuffer.loadFromSnapshot r
      let w := { w with mStreams, nextRef := ref + 1 }
      let w := w.modify ref fun s =>
        { s with
          hostFwdCnt
          guestBufAlloc
          guestFwdCnt
          hostSentCnt
          isConnected := flags &&& 1 ≠ 0
          sendOpMask := flags &&& ~~~1
          hostToGuestBuf }
      match loadPlugFromSnapshot plugType ref r with
      | (.plug plug, r) =>
          -- `return true`, which is the answer 1
          (1, w.setPlug ref plug, r)
      | (.socket _, r) => (1, { w with mStreams := w.mStreams.erase ⟨guestPort, hostPort⟩ }, r)

/-- The loop over the streams. It goes on behind streams that do not support loading. -/
def loadStreams (plugType : PlugType P Ref) :
    (n : Nat) → World σ P → Bytes → Int × World σ P × Bytes
  | 0, w, r => (0, w, r)
  | n + 1, w, r =>
      let (guestPort, r) := getUInt32 r
      let (hostPort, r) := getUInt32 r
      let (hostFwdCnt, r) := getUInt32 r
      let (supportsLoading, r) := getBool r
      if supportsLoading then loadStream plugType guestPort hostPort hostFwdCnt w r
      else
        loadStreams plugType n
          (w.queueOrphanPacket (preparePacketHeader hostPort guestPort .rst hostFwdCnt 0)) r

/-- `loadFromSnapshot` before any packet is sent. The history goes on: it has no event for a
stream that is cleared or loaded. -/
def loadState (plugType : PlugType P Ref) (parent : ParentState) (w : World σ P) (r : Bytes) :
    Int × World σ P × Bytes :=
  let (answer, r) := parent.load r
  if answer ≠ 0 then (answer, w, r)
  else
    let (mSrcPortAllocator, r) := UniqueIdAllocator.loadFromSnapshot r
    let (n, r) := getSize r
    let (mOrphanPackets, r) := getLoop (fun packets r => (loadOrphan r).map (packets ++ [·]) id) n [] r
    let (n, r) := getSize r
    loadStreams plugType n { w with mSrcPortAllocator, mOrphanPackets, mStreams := ∅ } r

/-- `loadFromSnapshot`: its answer, the device, and the bytes that are left. -/
def loadFromSnapshot (api : GoldfishVirtIOVSockDevAPI σ) (plugType : PlugType P Ref)
    (parent : ParentState) (w : World σ P) (r : Bytes) : Except Fault (Int × World σ P × Bytes) := do
  let (answer, w, r) := loadState plugType parent w r
  if answer ≠ 0 then pure (answer, w, r)
  else
    let w ← sendPacketsAndNotifyLocked api w
    pure (0, w, r)

/-! ### The parts are read back -/

theorem length_le_of_nodup {l : List UInt32} (h : l.Nodup) : l.length ≤ 2 ^ 32 := by
  have hfin : (l.map UInt32.toFin).Nodup := h.map fun a b hab => UInt32.toFin_inj.mp hab
  simpa using List.Nodup.length_le_card hfin

theorem UniqueIdAllocator.load_save (a : UniqueIdAllocator) (rest : Bytes) :
    UniqueIdAllocator.loadFromSnapshot (a.saveToSnapshot ++ rest) = (a, rest) := by
  obtain ⟨mLastId, mReturnedIds⟩ := a
  have hlen : mReturnedIds.elems.length < 2 ^ 64 :=
    (length_le_of_nodup mReturnedIds.nodup).trans_lt (by decide)
  have hids : mReturnedIds.elems.foldl StdSet.insert ∅ = mReturnedIds :=
    StdSet.ext (StdSet.elems_foldl_insert (by simpa using mReturnedIds.sorted))
  have hloop := @getLoop_flatMap (StdSet (id : UInt32 → UInt32) (· > ·)) UInt32
    (fun ids r => (getUInt32 r).map ids.insert id) putUInt32 StdSet.insert
    (fun ids x rest => by rw [getUInt32_put, Prod.map_apply, id]) rest mReturnedIds.elems ∅
  simp only [UniqueIdAllocator.loadFromSnapshot, UniqueIdAllocator.saveToSnapshot,
    List.append_assoc, getUInt32_put, getSize_put hlen, hloop, hids]

/-- What is left of an orphan packet that was saved. -/
def reloadOrphan (packet : VirtioVsockHdr) : VirtioVsockHdr :=
  { srcPort := packet.srcPort, dstPort := packet.dstPort, op := packet.op
    bufAlloc := packet.bufAlloc, fwdCnt := packet.fwdCnt, len := 0 }

theorem loadOrphan_save (packet : VirtioVsockHdr) (rest : Bytes) :
    loadOrphan (saveOrphan packet ++ rest) = (reloadOrphan packet, rest) := by
  simp [loadOrphan, saveOrphan, reloadOrphan, List.append_assoc]

theorem loadOrphans_save (packets : List VirtioVsockHdr) (rest : Bytes) :
    getLoop (fun packets r => (loadOrphan r).map (packets ++ [·]) id) packets.length []
      (packets.flatMap saveOrphan ++ rest) = (packets.map reloadOrphan, rest) := by
  rw [getLoop_flatMap (f := fun done packet => done ++ [reloadOrphan packet])
    (fun done packet rest => by simp [loadOrphan_save])]
  have hfold : ∀ (packets done : List VirtioVsockHdr),
      packets.foldl (fun done packet => done ++ [reloadOrphan packet]) done =
        done ++ packets.map reloadOrphan := by
    intro packets
    induction packets with
    | nil => simp
    | cons packet packets ih => simp [ih]
  rw [hfold, List.nil_append]

/-! ### Saved streams -/

/-- Does the plug of the stream support loading? -/
def VsockStream.loadable (plugType : PlugType P Ref) (s : VsockStream P) : Bool :=
  s.plug.any plugType.supportsLoadingFromSnapshot

variable {plugType : PlugType P Ref}

theorem saveStream_inv {s : VsockStream P} {bytes : Bytes}
    (h : saveStream plugType s = .ok (true, bytes)) :
    ∃ plug body, s.plug = some plug ∧ saveLoadable plugType s plug = .ok (true, body) ∧
      bytes = putUInt32 s.guestPort ++ (putUInt32 s.hostPort ++ (putUInt32 s.hostFwdCnt ++
        (putBool (s.loadable plugType) ++ body))) := by
  simp only [saveStream, bind_eq_ok, notNull_eq_ok, pure_eq_ok, Prod.exists, Prod.mk.injEq] at h
  obtain ⟨plug, hplug, ok, body, hbody, rfl, rfl⟩ := h
  have hloadable : s.loadable plugType = plugType.supportsLoadingFromSnapshot plug := by
    rw [VsockStream.loadable, hplug, Option.any_some]
  exact ⟨plug, body, hplug, hbody, by rw [hloadable]⟩

/-- Nothing more is written of a stream that is not loadable. -/
theorem saveLoadable_skip {s : VsockStream P} {plug : P} {body : Bytes} (hplug : s.plug = some plug)
    (hload : s.loadable plugType = false) (h : saveLoadable plugType s plug = .ok (true, body)) :
    body = [] := by
  have hsupports : plugType.supportsLoadingFromSnapshot plug = false := by
    simpa [VsockStream.loadable, hplug] using hload
  simp only [saveLoadable, hsupports, Bool.false_eq_true, not_false_eq_true, if_true, pure_eq_ok,
    Prod.mk.injEq, true_and] at h
  exact h.symm

theorem saveStreams_cons {s : VsockStream P} {streams : List (VsockStream P)} {bytes : Bytes}
    (h : saveStreams plugType (s :: streams) = .ok (true, bytes)) :
    ∃ first more, saveStream plugType s = .ok (true, first) ∧
      saveStreams plugType streams = .ok (true, more) ∧ bytes = first ++ more := by
  simp only [saveStreams, bind_eq_ok, Prod.exists] at h
  obtain ⟨ok, first, hfirst, h⟩ := h
  split at h
  · simp at h
  · next hok =>
    obtain rfl : ok = true := not_not.mp hok
    simp only [bind_eq_ok, pure_eq_ok, Prod.exists, Prod.mk.injEq] at h
    obtain ⟨ok, more, hmore, rfl, rfl⟩ := h
    exact ⟨first, more, hfirst, hmore, rfl⟩

/-- The RSTs for streams that are not loaded. -/
def World.queueResets (w : World σ P) (streams : List (VsockStream P)) : World σ P :=
  streams.foldl (fun w s => w.queueOrphanPacket (s.preparePacketHeader .rst 0)) w

theorem World.queueResets_fields : ∀ (streams : List (VsockStream P)) (w : World σ P),
    (w.queueResets streams).mOrphanPackets =
        w.mOrphanPackets ++ streams.map (·.preparePacketHeader .rst 0) ∧
      (w.queueResets streams).mStreams = w.mStreams ∧
      (w.queueResets streams).mSrcPortAllocator = w.mSrcPortAllocator ∧
      (w.queueResets streams).nextRef = w.nextRef
  | [], w => ⟨(List.append_nil _).symm, rfl, rfl, rfl⟩
  | s :: streams, w => by
      obtain ⟨horph, hrest⟩ :=
        World.queueResets_fields streams (w.queueOrphanPacket (s.preparePacketHeader .rst 0))
      refine ⟨horph.trans ?_, hrest⟩
      simp [World.queueOrphanPacket]

/-- The streams up to the first that is loadable are answered with RSTs; that one is the
last to be looked at. -/
theorem loadStreams_saved (rest : Bytes) : ∀ {streams : List (VsockStream P)} {bytes : Bytes}
    (w : World σ P), saveStreams plugType streams = .ok (true, bytes) →
    ((∀ s ∈ streams, s.loadable plugType = false) ∧
      loadStreams plugType streams.length w (bytes ++ rest) = (0, w.queueResets streams, rest)) ∨
    ∃ before s after plug body tail, streams = before ++ s :: after ∧
      (∀ t ∈ before, t.loadable plugType = false) ∧ s.loadable plugType = true ∧
      s.plug = some plug ∧ saveLoadable plugType s plug = .ok (true, body) ∧
      saveStreams plugType after = .ok (true, tail) ∧
      loadStreams plugType streams.length w (bytes ++ rest) =
        loadStream plugType s.guestPort s.hostPort s.hostFwdCnt (w.queueResets before)
          (body ++ (tail ++ rest))
  | [], bytes, w, h => by
      obtain rfl : [] = bytes := by simpa [saveStreams] using h
      exact Or.inl ⟨by simp, rfl⟩
  | s :: streams, bytes, w, h => by
      obtain ⟨first, more, hfirst, hmore, rfl⟩ := saveStreams_cons h
      obtain ⟨plug, body, hplug, hbody, rfl⟩ := saveStream_inv hfirst
      cases hload : s.loadable plugType with
      | true =>
          refine Or.inr ⟨[], s, streams, plug, body, more, rfl, by simp, hload, hplug, hbody, hmore, ?_⟩
          simp [loadStreams, List.append_assoc, World.queueResets]
      | false =>
          obtain rfl := saveLoadable_skip hplug hload hbody
          have hskip : loadStreams plugType (s :: streams).length w
              ((putUInt32 s.guestPort ++ (putUInt32 s.hostPort ++ (putUInt32 s.hostFwdCnt ++
                (putBool false ++ [])))) ++ more ++ rest) =
              loadStreams plugType streams.length
                (w.queueOrphanPacket (s.preparePacketHeader .rst 0)) (more ++ rest) := by
            simp [loadStreams, List.append_assoc, VsockStream.preparePacketHeader]
          rw [hskip]
          rcases loadStreams_saved rest (w.queueOrphanPacket (s.preparePacketHeader .rst 0)) hmore with
            ⟨hnone, heq⟩ | ⟨before, t, after, q, body, tail, rfl, hbefore, hrest, hq, hbody', htail, heq⟩
          · refine Or.inl ⟨fun t ht => ?_, heq⟩
            rcases List.mem_cons.mp ht with rfl | ht
            · exact hload
            · exact hnone t ht
          · refine Or.inr ⟨s :: before, t, after, q, body, tail, rfl, fun t' ht' => ?_, hrest, hq,
              hbody', htail, heq⟩
            rcases List.mem_cons.mp ht' with rfl | ht'
            · exact hload
            · exact hbefore t' ht'

/-! ### A stream that is loaded -/

/-- The plug of the stream can be loaded at the address `ref` from what was saved of the
stream, with `rest` behind it. -/
def VsockStream.Reloads (plugType : PlugType P Ref) (ref : Ref) (s : VsockStream P)
    (rest : Bytes) : Prop :=
  ∃ plug data state p r, s.plug = some plug ∧ s.hostToGuestBuf.saveToSnapshot = .ok data ∧
    savePlugToSnapshot plugType plug = (true, state) ∧
    loadPlugFromSnapshot plugType ref (SocketBuffer.loadFromSnapshot (data ++ (state ++ rest))).2 =
      (.plug p, r)

theorem reloads_of_saved {s : VsockStream P} {plug : P} {data state : Bytes}
    (hplug : s.plug = some plug) (hdata : s.hostToGuestBuf.saveToSnapshot = .ok data)
    (hstate : savePlugToSnapshot plugType plug = (true, state)) {ref : Ref} {rest : Bytes} :
    s.Reloads plugType ref rest ↔ ∃ p r, loadPlugFromSnapshot plugType ref
      (SocketBuffer.loadFromSnapshot (data ++ (state ++ rest))).2 = (.plug p, r) := by
  constructor
  · intro hgiven
    obtain ⟨plug', data', state', p, r, hplug', hdata', hstate', h⟩ := hgiven
    obtain rfl : plug = plug' := Option.some.inj (hplug.symm.trans hplug')
    obtain rfl : data = data' := Except.ok.inj (hdata.symm.trans hdata')
    obtain rfl : state = state' := (Prod.mk.inj (hstate.symm.trans hstate')).2
    exact ⟨p, r, h⟩
  · intro hgiven
    obtain ⟨p, r, h⟩ := hgiven
    exact ⟨plug, data, state, p, r, hplug, hdata, hstate, h⟩

theorem saveLoadable_inv {s : VsockStream P} {plug : P} {body : Bytes} (hplug : s.plug = some plug)
    (hload : s.loadable plugType = true) (h : saveLoadable plugType s plug = .ok (true, body)) :
    ∃ data state, s.hostToGuestBuf.saveToSnapshot = .ok data ∧
      savePlugToSnapshot plugType plug = (true, state) ∧
      body = putUInt32 s.guestBufAlloc ++ (putUInt32 s.guestFwdCnt ++
        (putUInt32 s.hostSentCnt ++ (putUInt32 s.flags ++ (data ++ state)))) := by
  have hsupports : plugType.supportsLoadingFromSnapshot plug = true := by
    simpa [VsockStream.loadable, hplug] using hload
  simp only [saveLoadable, hsupports, not_true_eq_false, if_false] at h
  split at h
  · simp at h
  · simp only [bind_eq_ok, pure_eq_ok, Prod.mk.injEq] at h
    obtain ⟨data, hdata, hok, rfl⟩ := h
    exact ⟨data, _, hdata, Prod.ext hok rfl, rfl⟩

theorem getUInt8_putUInt32 (x : UInt32) (rest : Bytes) :
    getUInt8 (putUInt32 x ++ rest) = (x.toUInt8, rest) := by
  simp [getUInt8, putUInt32]

theorem emplace_empty (s : VsockStream P) :
    ∃ streams, (∅ : Streams P).emplace s = some streams ∧ streams.elems = [s] :=
  ⟨⟨[s], List.pairwise_singleton _ _⟩, StdSet.emplace_eq_some.mpr ⟨rfl, rfl⟩, rfl⟩

theorem modify_keys {w : World σ P} {ref : Ref} {f : VsockStream P → VsockStream P}
    (hf : KeepsIdentity f) : (w.modify ref f hf).mStreams.elems.map VsockStream.key =
      w.mStreams.elems.map VsockStream.key := by
  rw [World.modify_elems, List.map_map]
  refine List.map_congr_left fun s _ => ?_
  rw [Function.comp_apply]
  split
  · exact hf.key s
  · rfl

/-- The first loadable stream ends the load, with answer 1. It is there afterwards if its
plug could be loaded. -/
theorem loadStream_saved {w : World σ P} (hempty : w.mStreams = ∅) {s : VsockStream P} {plug : P}
    {body : Bytes} (hplug : s.plug = some plug) (hload : s.loadable plugType = true)
    (hbody : saveLoadable plugType s plug = .ok (true, body)) (rest : Bytes) :
    ∃ w' r, loadStream plugType s.guestPort s.hostPort s.hostFwdCnt w (body ++ rest) = (1, w', r) ∧
      w'.mSrcPortAllocator = w.mSrcPortAllocator ∧
      ((s.Reloads plugType w.nextRef rest ∧ w'.mStreams.elems.map VsockStream.key = [s.key]) ∨
        (¬ s.Reloads plugType w.nextRef rest ∧ w'.mStreams.elems = [])) := by
  obtain ⟨data, state, hdata, hstate, rfl⟩ := saveLoadable_inv hplug hload hbody
  obtain ⟨streams, hemplace, helems⟩ := emplace_empty
    ({ ref := w.nextRef, guestPort := s.guestPort, hostPort := s.hostPort } : VsockStream P)
  have hreloads := @reloads_of_saved P plugType s plug data state hplug hdata hstate w.nextRef rest
  simp only [loadStream, hempty, hemplace, List.append_assoc, getUInt32_put, getUInt8_putUInt32]
  cases hloaded : loadPlugFromSnapshot plugType w.nextRef
      (SocketBuffer.loadFromSnapshot (data ++ (state ++ rest))).2 with
  | mk answer r =>
      cases answer with
      | plug p =>
          refine ⟨_, _, rfl, rfl, Or.inl ⟨hreloads.mpr ⟨p, r, hloaded⟩, ?_⟩⟩
          rw [modify_keys, modify_keys, helems]
          rfl
      | socket ref =>
          refine ⟨_, _, rfl, rfl, Or.inr ⟨fun h => ?_, ?_⟩⟩
          · obtain ⟨p, r', heq⟩ := hreloads.mp h
            rw [hloaded] at heq
            cases heq
          · simp only [StdSet.erase, World.modify, StdSet.elems_map, helems, List.map_cons, List.map_nil]
            simp [VsockStream.key]

/-- A buffer of less than 4 GiB is read back. -/
theorem SocketBuffer.load_save {b : SocketBuffer} {data : Bytes} (h : b.saveToSnapshot = .ok data)
    (hlen : b.pending.length < 2 ^ 32) (rest : Bytes) :
    SocketBuffer.loadFromSnapshot (data ++ rest) = (⟨b.pending, 0⟩, rest) := by
  simp only [SocketBuffer.saveToSnapshot, bind_eq_ok, pure_eq_ok, peek_eq_ok] at h
  obtain ⟨-, ⟨-, rfl⟩, rfl⟩ := h
  have hsize : getUInt32 (putSize b.pending.length ++ (b.pending ++ rest)) =
      (UInt32.ofNat b.pending.length, b.pending ++ rest) := by
    simp [getUInt32, putSize]
  simp only [SocketBuffer.loadFromSnapshot, List.append_assoc, hsize,
    UInt32.toNat_ofNat_of_lt' hlen, read_append, Nat.sub_self, List.replicate_zero, List.append_nil]

/-- Whether a stream survives is then up to the loader of its plug. -/
theorem VsockStream.reloads_iff {s : VsockStream P} {plug : P} {data state : Bytes}
    (hplug : s.plug = some plug) (hdata : s.hostToGuestBuf.saveToSnapshot = .ok data)
    (hstate : savePlugToSnapshot plugType plug = (true, state))
    (hlen : s.hostToGuestBuf.pending.length < 2 ^ 32)
    (hid : (plugType.getSnapshotTypeId plug).length < 2 ^ 64) (ref : Ref) (rest : Bytes) :
    s.Reloads plugType ref rest ↔ ∃ loader p r,
      plugType.loaders (plugType.getSnapshotTypeId plug) = some loader ∧
        loader ref ((plugType.saveStateToSnapshot plug).2 ++ rest) = (.plug p, r) := by
  rw [reloads_of_saved hplug hdata hstate, SocketBuffer.load_save hdata hlen,
    loadPlugFromSnapshot_saved hstate hid]
  cases plugType.loaders (plugType.getSnapshotTypeId plug) with
  | none => simp
  | some loader => simp

/-- What a snapshot keeps of a stream. -/
structure StreamImage where
  guestPort : UInt32
  hostPort : UInt32
  guestBufAlloc : UInt32
  guestFwdCnt : UInt32
  hostSentCnt : UInt32
  hostFwdCnt : UInt32
  isConnected : Bool
  sendOpMask : UInt8
  /-- The unconsumed bytes. -/
  pending : Bytes

/-- The image of a stream. -/
def VsockStream.image (s : VsockStream P) : StreamImage :=
  { guestPort := s.guestPort, hostPort := s.hostPort, guestBufAlloc := s.guestBufAlloc
    guestFwdCnt := s.guestFwdCnt, hostSentCnt := s.hostSentCnt, hostFwdCnt := s.hostFwdCnt
    isConnected := s.isConnected, sendOpMask := s.sendOpMask, pending := s.hostToGuestBuf.pending }

/-- What a snapshot keeps of an orphan packet. -/
def VirtioVsockHdr.image (hdr : VirtioVsockHdr) : UInt32 × UInt32 × UInt16 × UInt32 × UInt32 :=
  (hdr.srcPort, hdr.dstPort, hdr.op, hdr.bufAlloc, hdr.fwdCnt)

theorem flags_toUInt8 {s : VsockStream P} (hmask : s.sendOpMask &&& 1 = 0) :
    s.flags.toUInt8 &&& ~~~1 = s.sendOpMask ∧
      decide (s.flags.toUInt8 &&& 1 ≠ 0) = s.isConnected := by
  have hflags : s.flags.toUInt8 = (if s.isConnected then 1 else 0) ||| s.sendOpMask := by
    rw [VsockStream.flags, UInt32.toUInt8_or, UInt8.toUInt8_toUInt32]
    split <;> rfl
  have hrest : s.sendOpMask &&& ~~~1 = s.sendOpMask := by
    have hall : (1 ||| ~~~1) &&& s.sendOpMask = s.sendOpMask := by
      rw [show (1 ||| ~~~1 : UInt8) = -1 from rfl, UInt8.neg_one_and]
    rwa [VirtioVsockOp.or_and_mask, UInt8.and_comm, hmask, UInt8.zero_or, UInt8.and_comm] at hall
  rw [hflags, VirtioVsockOp.or_and_mask, VirtioVsockOp.or_and_mask, hmask, hrest]
  cases s.isConnected <;> simp

/-- The stream that is loaded is the one that was saved. -/
theorem loadStream_image {w : World σ P} (hempty : w.mStreams = ∅) {s : VsockStream P} {plug : P}
    {body : Bytes} (hplug : s.plug = some plug) (hload : s.loadable plugType = true)
    (hbody : saveLoadable plugType s plug = .ok (true, body))
    (hlen : s.hostToGuestBuf.pending.length < 2 ^ 32) (hmask : s.sendOpMask &&& 1 = 0)
    {rest : Bytes} (hreloads : s.Reloads plugType w.nextRef rest) :
    (loadStream plugType s.guestPort s.hostPort s.hostFwdCnt w (body ++ rest)).2.1.mStreams.elems.map
      VsockStream.image = [s.image] := by
  obtain ⟨data, state, hdata, hstate, rfl⟩ := saveLoadable_inv hplug hload hbody
  obtain ⟨streams, hemplace, helems⟩ := emplace_empty
    ({ ref := w.nextRef, guestPort := s.guestPort, hostPort := s.hostPort } : VsockStream P)
  obtain ⟨p, r, hloaded⟩ := (reloads_of_saved hplug hdata hstate).mp hreloads
  rw [SocketBuffer.load_save hdata hlen] at hloaded
  obtain ⟨hops, hconn⟩ := flags_toUInt8 hmask
  simp only [loadStream, hempty, hemplace, List.append_assoc, getUInt32_put, getUInt8_putUInt32,
    SocketBuffer.load_save hdata hlen, hloaded, World.modify_elems, helems, List.map_cons,
    List.map_nil, if_true, hops, hconn]
  rfl

/-! ### Whole snapshots -/

/-- The sizes of the containers are values of `size_t`. -/
structure World.SizesFit (w : World σ P) : Prop where
  orphans : w.mOrphanPackets.length < 2 ^ 64
  streams : w.mStreams.elems.length < 2 ^ 64

/-- The device before the first stream is loaded. -/
def World.restored (w w₀ : World σ P) : World σ P :=
  { w₀ with
    mSrcPortAllocator := w.mSrcPortAllocator
    mOrphanPackets := w.mOrphanPackets.map reloadOrphan
    mStreams := ∅ }

/-- Allocator and orphan packets are read back. -/
theorem loadState_saved {parent : ParentState} (hparent : parent.Faithful) {w : World σ P}
    (hfit : w.SizesFit) {bytes : Bytes} (hsave : saveToSnapshot plugType parent w = .ok (0, bytes))
    (w₀ : World σ P) (rest : Bytes) :
    ∃ streams, saveStreams plugType w.mStreams.elems = .ok (true, streams) ∧
      loadState plugType parent w₀ (bytes ++ rest) =
        loadStreams plugType w.mStreams.elems.length (w.restored w₀) (streams ++ rest) := by
  unfold saveToSnapshot at hsave
  cases hsaved : parent.save with
  | mk answer parentBytes =>
      rw [hsaved] at hsave
      dsimp only at hsave
      split at hsave
      · next hne =>
        obtain ⟨rfl, -⟩ : answer = 0 ∧ parentBytes = bytes := by simpa using hsave
        exact absurd rfl hne
      · next hzero =>
        obtain rfl : answer = 0 := not_not.mp hzero
        simp only [bind_eq_ok, pure_eq_ok, Prod.exists, Prod.mk.injEq] at hsave
        obtain ⟨ok, streams, hstreams, hok, rfl⟩ := hsave
        obtain rfl : ok = true := by
          by_contra hcontra
          simp [hcontra] at hok
        refine ⟨streams, hstreams, ?_⟩
        simp only [loadState, List.append_assoc, hparent _ _ hsaved, ne_eq, not_true_eq_false,
          if_false, UniqueIdAllocator.load_save, getSize_put hfit.orphans, loadOrphans_save,
          getSize_put hfit.streams, World.restored]

/-- Without streams, only orphan packets are sent. -/
theorem sendOrphanPackets_fields (api : GoldfishVirtIOVSockDevAPI σ) :
    ∀ (packets : List VirtioVsockHdr) (w : World σ P) (needNotify : Bool),
      (sendOrphanPackets api packets w needNotify).world.mStreams = w.mStreams ∧
        (sendOrphanPackets api packets w needNotify).world.mSrcPortAllocator = w.mSrcPortAllocator
  | [], w, _ => ⟨rfl, rfl⟩
  | hdr :: packets, w, needNotify => by
      unfold sendOrphanPackets
      dsimp only
      split
      · exact ⟨rfl, rfl⟩
      · exact sendOrphanPackets_fields api packets _ _

theorem sendPacketsAndNotifyLocked_empty (api : GoldfishVirtIOVSockDevAPI σ) {w : World σ P}
    (hempty : w.mStreams = ∅) :
    ∃ w', sendPacketsAndNotifyLocked api w = .ok w' ∧ w'.mStreams = ∅ ∧
      w'.mSrcPortAllocator = w.mSrcPortAllocator := by
  obtain ⟨hstreams, halloc⟩ := sendOrphanPackets_fields api w.mOrphanPackets w false
  rw [hempty] at hstreams
  have hsend : ∃ needNotify w', sendPacketsLocked api w = .ok (needNotify, w') ∧ w'.mStreams = ∅ ∧
      w'.mSrcPortAllocator = w.mSrcPortAllocator := by
    simp only [sendPacketsLocked]
    split
    · exact ⟨_, _, rfl, hstreams, halloc⟩
    · rw [hstreams]
      exact ⟨_, _, rfl, hstreams, halloc⟩
  obtain ⟨needNotify, w', hw', hstreams', halloc'⟩ := hsend
  refine ⟨_, by rw [sendPacketsAndNotifyLocked, hw', ok_bind]; rfl, ?_⟩
  split <;> exact ⟨hstreams', halloc'⟩

/-! ### The round trip -/

/-- `w'` is what loading a snapshot of `w` should lead to, before any packet is sent. -/
structure RoundTrip (plugType : PlugType P Ref) (w w' : World σ P) : Prop where
  alloc : w'.mSrcPortAllocator = w.mSrcPortAllocator
  streams : w'.mStreams.elems.map VsockStream.image =
    (w.mStreams.elems.filter (·.loadable plugType)).map VsockStream.image
  /-- A RST for each stream that is not loadable follows the packets that were waiting. -/
  orphans : w'.mOrphanPackets.map VirtioVsockHdr.image =
    w.mOrphanPackets.map VirtioVsockHdr.image ++
      (w.mStreams.elems.filter (!·.loadable plugType)).map
        fun s => (s.preparePacketHeader .rst 0).image

/-- A snapshot that was saved is loaded as it was saved, with answer 0 and up to its end,
exactly if no stream of the device is loadable. -/
theorem loadFromSnapshot_roundTrip_iff {api : GoldfishVirtIOVSockDevAPI σ} {parent : ParentState}
    (hparent : parent.Faithful) {w w₀ : World σ P} (hfit : w.SizesFit) {bytes : Bytes}
    (hsave : saveToSnapshot plugType parent w = .ok (0, bytes)) (rest : Bytes) :
    (∃ w₁ w₂, loadState plugType parent w₀ (bytes ++ rest) = (0, w₁, rest) ∧
      RoundTrip plugType w w₁ ∧
      loadFromSnapshot api plugType parent w₀ (bytes ++ rest) = .ok (0, w₂, rest)) ↔
    ∀ s ∈ w.mStreams, s.loadable plugType = false := by
  obtain ⟨streams, hstreams, hload⟩ := loadState_saved hparent hfit hsave w₀ rest
  rcases loadStreams_saved rest (w.restored w₀) hstreams with
    ⟨hnone, heq⟩ | ⟨before, s, after, plug, body, tail, helems, -, hs, hplug, hbody, -, heq⟩
  · refine ⟨fun _ => hnone, fun _ => ?_⟩
    rw [heq] at hload
    obtain ⟨horphans, hempty, halloc, -⟩ :=
      World.queueResets_fields w.mStreams.elems (w.restored w₀)
    obtain ⟨w₂, hsend, -⟩ := sendPacketsAndNotifyLocked_empty api hempty
    refine ⟨_, w₂, hload, ⟨halloc, ?_, ?_⟩, ?_⟩
    · have hfilter : w.mStreams.elems.filter (·.loadable plugType) = [] :=
        List.filter_eq_nil_iff.mpr fun s hs => by simp [hnone s hs]
      rw [hempty, hfilter]
      rfl
    · have hfilter : w.mStreams.elems.filter (!·.loadable plugType) = w.mStreams.elems :=
        List.filter_eq_self.mpr fun s hs => by simp [hnone s hs]
      rw [horphans, hfilter]
      simp only [World.restored, List.map_append, List.map_map]
      rfl
    · simp only [loadFromSnapshot, hload, ne_eq, not_true_eq_false, if_false, hsend, ok_bind]
      rfl
  · -- the first stream that is loadable makes the answer 1
    obtain ⟨w', r, hone, -⟩ := loadStream_saved
      ((World.queueResets_fields before (w.restored w₀)).2.1) hplug hs hbody (tail ++ rest)
    constructor
    · intro hgiven
      obtain ⟨w₁, w₂, hzero, -⟩ := hgiven
      rw [hload, heq, hone] at hzero
      simp at hzero
    · intro hnone
      have hmem : s ∈ w.mStreams := by simp [StdSet.mem_def, helems]
      exact absurd hs (by simp [hnone s hmem])

/-- A device without a parent. -/
theorem ParentState.faithful_default : ({} : ParentState).Faithful := by
  intro bytes rest h
  obtain rfl : [] = bytes := (Prod.mk.inj h).2
  rfl

/-- Plugs without state that are loadable or not. -/
def samplePlugs : PlugType Bool Ref where
  supportsLoadingFromSnapshot plug := plug
  getSnapshotTypeId _ := [103]
  saveStateToSnapshot _ := (true, [])
  loaders typeId := if typeId = [103] then some fun _ r => (.plug true, r) else none

/-- The snapshot of a device with one connection is loaded, and the guest gets a RST. -/
theorem loadFromSnapshot_roundTrip_connect : ∃ (w w₁ w₂ : World VirtIOVSock Bool) (bytes : Bytes),
    run devApi (World.realized ∅ ⟨3, []⟩) [.host (.connect 1000 false)] = .ok w ∧
      saveToSnapshot samplePlugs {} w = .ok (0, bytes) ∧
      loadState samplePlugs {} (World.realized ∅ ⟨3, []⟩) (bytes ++ []) = (0, w₁, []) ∧
      RoundTrip samplePlugs w w₁ ∧
      loadFromSnapshot devApi samplePlugs {} (World.realized ∅ ⟨3, []⟩) (bytes ++ []) =
        .ok (0, w₂, []) := by
  obtain ⟨w, bytes, hrun, hsave, horphans, hstreams⟩ : ∃ (w : World VirtIOVSock Bool) (bytes : Bytes),
      run devApi (World.realized ∅ ⟨3, []⟩) [.host (.connect 1000 false)] = .ok w ∧
        saveToSnapshot samplePlugs {} w = .ok (0, bytes) ∧ w.mOrphanPackets.length = 0 ∧
        w.mStreams.elems.map (·.plug) = [some false] := ⟨_, _, rfl, rfl, rfl, rfl⟩
  have hfit : w.SizesFit := by
    have := congrArg List.length hstreams
    rw [List.length_map] at this
    exact ⟨by rw [horphans]; decide, by rw [this]; decide⟩
  obtain ⟨w₁, w₂, hload⟩ := (loadFromSnapshot_roundTrip_iff ParentState.faithful_default hfit hsave
    []).mpr fun s hs => by
      have := List.mem_map_of_mem (f := (·.plug)) hs
      rw [hstreams, List.mem_singleton] at this
      rw [VsockStream.loadable, this]
      rfl
  exact ⟨w, w₁, w₂, bytes, hrun, hsave, hload⟩

/-- A snapshot of two connections. -/
def twoStreams : Bytes :=
  [2, 0, 0, 2,
    232, 7, 129, 128, 128, 128, 8, 0, 1, 0, 0, 0, 130, 1, 0, 1, 103,
    233, 7, 130, 128, 128, 128, 8, 0, 1, 0, 0, 0, 2, 0, 1, 103]

/-- Two connections with plugs that their loader accepts are saved. The load stops after the
first of them, says 1, and leaves the second one unread. -/
theorem second_stream_lost : ∃ (w w' : World VirtIOVSock Bool) (bytes rest : Bytes),
    (∀ socket rest, loadPlugFromSnapshot samplePlugs socket
      ((savePlugToSnapshot samplePlugs true).2 ++ rest) = (.plug true, rest)) ∧
    run devApi (World.realized ∅ ⟨3, []⟩)
      [.host (.connect 1000 true), .host (.connect 1001 true)] = .ok w ∧
    w.mStreams.elems.map (·.plug) = [some true, some true] ∧
    saveToSnapshot samplePlugs {} w = .ok (0, bytes) ∧
    loadFromSnapshot devApi samplePlugs {} (World.realized ∅ ⟨3, []⟩) (bytes ++ []) =
      .ok (1, w', rest) ∧
    w'.mStreams.elems.length = 1 ∧ rest ≠ [] ∧
    ¬ ∃ w₁ w₂, loadState samplePlugs {} (World.realized ∅ ⟨3, []⟩) (bytes ++ []) = (0, w₁, []) ∧
      RoundTrip samplePlugs w w₁ ∧
      loadFromSnapshot devApi samplePlugs {} (World.realized ∅ ⟨3, []⟩) (bytes ++ []) =
        .ok (0, w₂, []) := by
  obtain ⟨w, hrun, hplugs, hsave⟩ : ∃ w : World VirtIOVSock Bool,
      run devApi (World.realized ∅ ⟨3, []⟩)
        [.host (.connect 1000 true), .host (.connect 1001 true)] = .ok w ∧
      w.mStreams.elems.map (·.plug) = [some true, some true] ∧
      saveToSnapshot samplePlugs {} w = .ok (0, twoStreams) := ⟨_, rfl, rfl, rfl⟩
  have hsummary : (loadFromSnapshot devApi samplePlugs {} (World.realized ∅ ⟨3, []⟩)
      (twoStreams ++ [])).toOption.map (fun (answer, w', rest) =>
        (answer, w'.mStreams.elems.length, rest.length)) = some (1, 1, 16) := by decide +kernel
  obtain ⟨⟨answer, w', rest⟩, hloaded, hvalues⟩ := Option.map_eq_some_iff.mp hsummary
  have hload := toOption_eq_some.mp hloaded
  simp only [Prod.mk.injEq] at hvalues
  obtain ⟨rfl, hlen, hrest⟩ := hvalues
  have haccepts : ∀ socket rest, loadPlugFromSnapshot samplePlugs socket
      ((savePlugToSnapshot samplePlugs true).2 ++ rest) = (.plug true, rest) :=
    fun socket rest => @loadPlugFromSnapshot_saved _ _ samplePlugs true _ rfl (by decide) socket rest
  refine ⟨w, w', twoStreams, rest, haccepts, hrun, hplugs, hsave, hload, hlen, ?_, ?_⟩
  · intro heq
    subst heq
    simp at hrest
  · intro hgiven
    obtain ⟨w₁, w₂, -, -, hzero⟩ := hgiven
    rw [hload] at hzero
    simp at hzero

/-! ### The ports -/

/-- The stream is there again after a load: it is the first one that is loadable, and its
plug can be loaded. -/
def Survives (plugType : PlugType P Ref) (ref : Ref) (w : World σ P) (rest : Bytes)
    (s : VsockStream P) : Prop :=
  ∃ before after tail, w.mStreams.elems = before ++ s :: after ∧
    (∀ t ∈ before, t.loadable plugType = false) ∧ s.loadable plugType = true ∧
    saveStreams plugType after = .ok (true, tail) ∧ s.Reloads plugType ref (tail ++ rest)

/-- There is one first element with a property. -/
theorem first_unique {α : Type} {p : α → Bool} {before before' after after' : List α} {a a' : α}
    (h : before ++ a :: after = before' ++ a' :: after') (hbefore : ∀ x ∈ before, p x = false)
    (ha : p a = true) (hbefore' : ∀ x ∈ before', p x = false) (ha' : p a' = true) :
    a = a' ∧ after = after' := by
  rcases List.append_eq_append_iff.mp h with ⟨as, rfl, heq⟩ | ⟨as, rfl, heq⟩
  · cases as with
    | nil => exact List.cons.inj heq
    | cons x as =>
        obtain ⟨rfl, -⟩ := List.cons.inj heq
        simp [hbefore' a] at ha
  · cases as with
    | nil => exact (List.cons.inj heq).imp Eq.symm Eq.symm
    | cons x as =>
        obtain ⟨rfl, -⟩ := List.cons.inj heq
        simp [hbefore a'] at ha'

/-- What is there after a load: the allocator as it was saved, and the streams that survive
it, of which there is at most one. -/
theorem loadFromSnapshot_streams (api : GoldfishVirtIOVSockDevAPI σ) {parent : ParentState}
    (hparent : parent.Faithful) {w : World σ P} (hfit : w.SizesFit) {bytes : Bytes}
    (hsave : saveToSnapshot plugType parent w = .ok (0, bytes)) (w₀ : World σ P) (rest : Bytes) :
    ∃ answer w' r, loadFromSnapshot api plugType parent w₀ (bytes ++ rest) = .ok (answer, w', r) ∧
      w'.mSrcPortAllocator = w.mSrcPortAllocator ∧
      ∃ survivors : List (VsockStream P), survivors.Sublist w.mStreams.elems ∧
        (∀ s, s ∈ survivors ↔ Survives plugType w₀.nextRef w rest s) ∧
        w'.mStreams.elems.map VsockStream.key = survivors.map VsockStream.key := by
  obtain ⟨streams, hstreams, hload⟩ := loadState_saved hparent hfit hsave w₀ rest
  rcases loadStreams_saved rest (w.restored w₀) hstreams with
    ⟨hnone, heq⟩ | ⟨before, s, after, plug, body, tail, helems, hbefore, hs, hplug, hbody, htail, heq⟩
  · rw [heq] at hload
    obtain ⟨-, hempty, halloc, -⟩ := World.queueResets_fields w.mStreams.elems (w.restored w₀)
    obtain ⟨w₂, hsend, hempty₂, halloc₂⟩ := sendPacketsAndNotifyLocked_empty api hempty
    refine ⟨0, w₂, rest, ?_, halloc₂.trans halloc, [], List.nil_sublist _, fun s => ?_, ?_⟩
    · simp only [loadFromSnapshot, hload, ne_eq, not_true_eq_false, if_false, hsend, ok_bind]
      rfl
    · refine ⟨fun h => absurd h List.not_mem_nil, ?_⟩
      intro hgiven
      obtain ⟨before, after, tail, helems, -, hs, -⟩ := hgiven
      exact absurd hs (by simp [hnone s (helems ▸ by simp)])
    · rw [hempty₂]
      rfl
  · obtain ⟨-, hempty, halloc, hnext⟩ := World.queueResets_fields before (w.restored w₀)
    obtain ⟨w', r, hone, halloc', hcases⟩ := loadStream_saved hempty hplug hs hbody (tail ++ rest)
    rw [heq, hone] at hload
    rw [hnext] at hcases
    have hsurvives : ∀ t, Survives plugType w₀.nextRef w rest t ↔
        t = s ∧ s.Reloads plugType w₀.nextRef (tail ++ rest) := by
      intro t
      constructor
      · intro hgiven
        obtain ⟨before', after', tail', helems', hbefore', ht, htail', hreloads⟩ := hgiven
        obtain ⟨rfl, rfl⟩ := first_unique (helems.symm.trans helems') hbefore hs hbefore' ht
        obtain ⟨-, rfl⟩ := Prod.mk.inj (Except.ok.inj (htail.symm.trans htail'))
        exact ⟨rfl, hreloads⟩
      · intro hgiven
        obtain ⟨rfl, hreloads⟩ := hgiven
        exact ⟨before, after, tail, helems, hbefore, hs, htail, hreloads⟩
    refine ⟨1, w', r, ?_, halloc'.trans halloc, ?_⟩
    · simp only [loadFromSnapshot, hload]
      rfl
    · rcases hcases with ⟨hreloads, hkeys⟩ | ⟨hnot, hnil⟩
      · refine ⟨[s], ?_, fun t => ?_, hkeys⟩
        · rw [helems, List.singleton_sublist]
          simp
        · rw [List.mem_singleton, hsurvives]
          exact (and_iff_left hreloads).symm
      · refine ⟨[], List.nil_sublist _, fun t => ⟨fun h => absurd h List.not_mem_nil, fun ht => ?_⟩, ?_⟩
        · exact absurd ((hsurvives t).mp ht).2 hnot
        · rw [hnil]

/-- The dynamic ports in use are a matter of the keys. -/
theorem dynamicIds_of_keys {w : World σ P} {streams : List (VsockStream P)}
    (h : w.mStreams.elems.map VsockStream.key = streams.map VsockStream.key) :
    w.dynamicIds = (streams.filter (·.isDynamic)).map (·.dynamicId) := by
  have hkeys : ∀ l : List (VsockStream P), (l.filter (·.isDynamic)).map (·.dynamicId) =
      ((l.map VsockStream.key).filter fun key => kDynamicPortsStart ≤ key.hostPort).map
        fun key => key.hostPort - kDynamicPortsStart := by
    intro l
    rw [List.filter_map, List.map_map]
    rfl
  rw [World.dynamicIds, hkeys, h, ← hkeys]

/-- After a load the dynamic ports in use are the outstanding ones exactly if every stream
with such a port is there again. -/
theorem loadFromSnapshot_portsAgree_iff {api : GoldfishVirtIOVSockDevAPI σ} {parent : ParentState}
    (hparent : parent.Faithful) {w w₀ : World σ P} (hfit : w.SizesFit) {bytes : Bytes}
    (hsave : saveToSnapshot plugType parent w = .ok (0, bytes)) (hagree : w.PortsAgree)
    (rest : Bytes) :
    (∃ answer w' r, loadFromSnapshot api plugType parent w₀ (bytes ++ rest) = .ok (answer, w', r) ∧
      w'.PortsAgree) ↔
    ∀ s ∈ w.mStreams, s.isDynamic = true → Survives plugType w₀.nextRef w rest s := by
  obtain ⟨answer, w', r, hload, halloc, survivors, hsub, hsurvives, hkeys⟩ :=
    loadFromSnapshot_streams api hparent hfit hsave w₀ rest
  have hids := dynamicIds_of_keys hkeys
  have hdistinct : w'.dynamicIds.Nodup := by
    rw [hids]
    exact hagree.distinct.sublist ((hsub.filter _).map _)
  constructor
  · intro hgiven s hs hdyn
    obtain ⟨answer', w'', r', hload', hagree'⟩ := hgiven
    obtain ⟨-, rfl, -⟩ : answer = answer' ∧ w' = w'' ∧ r = r' := by
      simpa using hload.symm.trans hload'
    have hout := (hagree.outstanding s.dynamicId).mp (mem_dynamicIds.mpr ⟨s, hs, hdyn, rfl⟩)
    rw [← halloc, ← hagree'.outstanding, hids, List.mem_map] at hout
    obtain ⟨t, ht, hid⟩ := hout
    obtain ⟨ht, htdyn⟩ := List.mem_filter.mp ht
    obtain rfl := nodup_dynamicIds.mp hagree.distinct t (hsub.subset ht) s hs htdyn hdyn hid
    exact (hsurvives t).mp ht
  · intro hall
    refine ⟨answer, w', r, hload, hdistinct, fun id => ?_⟩
    rw [halloc, ← hagree.outstanding, hids, mem_dynamicIds, List.mem_map]
    constructor
    · intro hgiven
      obtain ⟨s, hs, hid⟩ := hgiven
      obtain ⟨hs, hdyn⟩ := List.mem_filter.mp hs
      exact ⟨s, hsub.subset hs, hdyn, hid⟩
    · intro hgiven
      obtain ⟨s, hs, hdyn, hid⟩ := hgiven
      exact ⟨s, List.mem_filter.mpr ⟨(hsurvives s).mpr (hall s hs hdyn), hdyn⟩, hid⟩

/-- The ports agree after one `connect`. -/
theorem connect_portsAgree {plug : Bool} {w : World VirtIOVSock Bool}
    (hrun : run devApi (World.realized ∅ ⟨3, []⟩) [.host (.connect 1000 plug)] = .ok w) :
    w.PortsAgree := by
  have hlegal : Along (step devApi) PortLegal (World.realized ∅ ⟨3, []⟩)
      [.host (.connect 1000 plug)] := ⟨portLegal_connect (by decide), fun _ _ => trivial⟩
  obtain ⟨w', hrun', hw'⟩ := run_portState devApi_lawful (realized_portState (by simp)) hlegal
  obtain rfl := Except.ok.inj (hrun.symm.trans hrun')
  exact hw'.ports.agree

/-- One connection whose plug is loaded keeps its port. -/
theorem loadFromSnapshot_portsAgree_connect :
    ∃ (w w' : World VirtIOVSock Bool) (bytes r : Bytes) (answer : Int),
      run devApi (World.realized ∅ ⟨3, []⟩) [.host (.connect 1000 true)] = .ok w ∧
        saveToSnapshot samplePlugs {} w = .ok (0, bytes) ∧
        loadFromSnapshot devApi samplePlugs {} (World.realized ∅ ⟨3, []⟩) (bytes ++ []) =
          .ok (answer, w', r) ∧ w'.PortsAgree := by
  obtain ⟨w, bytes, s, hrun, hsave, horphans, hstreams, hload, hplug, hdata⟩ :
      ∃ (w : World VirtIOVSock Bool) (bytes : Bytes) (s : VsockStream Bool),
        run devApi (World.realized ∅ ⟨3, []⟩) [.host (.connect 1000 true)] = .ok w ∧
        saveToSnapshot samplePlugs {} w = .ok (0, bytes) ∧ w.mOrphanPackets.length = 0 ∧
        w.mStreams.elems = [s] ∧ s.loadable samplePlugs = true ∧ s.plug = some true ∧
        s.hostToGuestBuf.saveToSnapshot = .ok [0] := ⟨_, _, _, rfl, rfl, rfl, rfl, rfl, rfl, rfl⟩
  have hfit : w.SizesFit := ⟨by rw [horphans]; decide, by simp [hstreams]⟩
  have hsurvives : Survives samplePlugs 0 w [] s :=
    ⟨[], [], [], hstreams, by simp, hload, rfl, true, [0], [1, 103], true, [], hplug, hdata, rfl, rfl⟩
  obtain ⟨answer, w', r, h⟩ := (@loadFromSnapshot_portsAgree_iff _ _ samplePlugs devApi {}
    ParentState.faithful_default w (World.realized ∅ ⟨3, []⟩) hfit bytes hsave
    (connect_portsAgree hrun) []).mpr fun t ht _ => by
      rw [StdSet.mem_def, hstreams, List.mem_singleton] at ht
      exact ht ▸ hsurvives
  exact ⟨w, w', bytes, r, answer, hrun, hsave, h⟩

/-- One connection whose plug is not loadable is dropped, and its port stays taken. -/
theorem port_leaked : ∃ (w w' : World VirtIOVSock Bool) (bytes : Bytes),
    run devApi (World.realized ∅ ⟨3, []⟩) [.host (.connect 1000 false)] = .ok w ∧ w.PortsAgree ∧
      saveToSnapshot samplePlugs {} w = .ok (0, bytes) ∧
      loadFromSnapshot devApi samplePlugs {} (World.realized ∅ ⟨3, []⟩) bytes = .ok (0, w', []) ∧
      w'.mStreams.elems = [] ∧ w'.mSrcPortAllocator.Outstanding 1 ∧ ¬ w'.PortsAgree := by
  obtain ⟨w, w', bytes, hrun, hsave, hload, hnil, hlast, hreturned⟩ :
      ∃ (w w' : World VirtIOVSock Bool) (bytes : Bytes),
        run devApi (World.realized ∅ ⟨3, []⟩) [.host (.connect 1000 false)] = .ok w ∧
        saveToSnapshot samplePlugs {} w = .ok (0, bytes) ∧
        loadFromSnapshot devApi samplePlugs {} (World.realized ∅ ⟨3, []⟩) bytes = .ok (0, w', []) ∧
        w'.mStreams.elems = [] ∧ w'.mSrcPortAllocator.mLastId = 1 ∧
        w'.mSrcPortAllocator.mReturnedIds.elems = [] := ⟨_, _, _, rfl, rfl, rfl, rfl, rfl, rfl⟩
  have hout : w'.mSrcPortAllocator.Outstanding 1 := by
    refine ⟨by decide, by rw [hlast]; decide, ?_⟩
    rw [StdSet.mem_def, hreturned]
    exact List.not_mem_nil
  refine ⟨w, w', bytes, hrun, connect_portsAgree hrun, hsave, hload, hnil, hout, fun h => ?_⟩
  obtain ⟨s, hs, -⟩ := mem_dynamicIds.mp ((h.outstanding 1).mpr hout)
  rw [StdSet.mem_def, hnil] at hs
  exact List.not_mem_nil hs

end Goldfish.Vsock
