import Goldfish.Vsock.Faults

/-!
# Goldfish.Vsock.Life

**The life of one stream.** A step of the abstract device adds some events to the
history and touches at most one stream. `Turn` is what such a step looks like from
the inside of the stream it touches, `Born` how a stream comes to be, and
`Atom.turn` says that nothing else happens to a stream.

A property of a stream and the history behind it then needs no argument about the
rest of the device: `run_living` asks for one obligation per turn, one for being born,
and that the events of other streams do not matter.
-/

namespace Goldfish.Vsock

open Goldfish.Lib

variable {σ P : Type} {api : GoldfishVirtIOVSockDevAPI σ} {mode : Mode}

/-- The stream an event is about. -/
def Event.ref? : Event σ P → Option Ref
  | .created s _ _ => some s
  | .erased s => some s
  | .opQueued s _ => some s
  | .call source _ _ _ => source
  | .buffered s _ => some s
  | .received s _ => some s
  | .onConnect s _ => some s
  | .onReceive s _ _ => some s
  | .refused s _ => some s
  | .onUnplug s _ => some s
  | .unplugged s _ => some s
  | _ => none

/-- A callback of a plug, or the answer to one. -/
def Event.isCallback : Event σ P → Bool
  | .onConnect _ _ => true
  | .onReceive _ _ _ => true
  | .refused _ _ => true
  | .onUnplug _ _ => true
  | _ => false

/-- A turn in the life of a stream with some history behind it: the events it leaves there,
and the stream afterwards. In a quiet run a stream that takes a turn has a plug, unless it
is the turn that attaches one. -/
inductive Turn (api : GoldfishVirtIOVSockDevAPI σ) (mode : Mode) (log : List (Event σ P)) :
    VsockStream P → List (Event σ P) → VsockStream P → Prop
  | needCredit {s : VsockStream P} (hplug : mode.quiet = true → s.plug.isSome = true)
      (hzero : s.guestAvailSize = 0) :
      Turn api mode log s [.opQueued s.ref .creditRequest]
        { s with sendOpMask := s.sendOpMask ||| VirtioVsockOp.creditRequest.bit }
  | opSent {s : VsockStream P} {vq : σ} {op : VirtioVsockOp}
      (hplug : mode.quiet = true → s.plug.isSome = true) (hop : s.FirstOp op)
      (hfull : virtIOVSockSendIsVqFull
        (api.sendPacketHostToGuest vq (s.preparePacketHeader op 0) []).result = false) :
      Turn api mode log s [.call (some s.ref) vq (s.preparePacketHeader op 0) []]
        { s with sendOpMask := s.sendOpMask &&& ~~~op.bit }
  | opKept {s : VsockStream P} {vq : σ} {op : VirtioVsockOp}
      (hplug : mode.quiet = true → s.plug.isSome = true) (hop : s.FirstOp op)
      (hfull : virtIOVSockSendIsVqFull
        (api.sendPacketHostToGuest vq (s.preparePacketHeader op 0) []).result = true) :
      Turn api mode log s [.call (some s.ref) vq (s.preparePacketHeader op 0) []] s
  | maskCleared {s : VsockStream P} (hplug : mode.quiet = true → s.plug.isSome = true)
      (hnone : ∀ op ∈ maskOps, s.hasOp op = false) : Turn api mode log s [] { s with sendOpMask := 0 }
  | dataSent {s : VsockStream P} {vq : σ} {avail : Nat} {hdr : VirtioVsockHdr}
      {buf : SocketBuffer} (hplug : mode.quiet = true → s.plug.isSome = true)
      (hmask : s.sendOpMask = 0) (hok : s.hostToGuestBuf.Ok)
      (hpend : s.hostToGuestBuf.pending ≠ []) (havail : 0 < avail)
      (havail' : api.Bounded → avail = s.guestAvailSize)
      (hhdr : hdr = s.preparePacketHeader .rw
        (UInt32.ofNat (min s.hostToGuestBuf.pending.length avail)))
      (hbuf : s.hostToGuestBuf.consume (virtIOVSockSentSize
        (api.sendPacketHostToGuest vq hdr s.hostToGuestBuf.pending).result) = .ok buf) :
      Turn api mode log s [.call (some s.ref) vq hdr s.hostToGuestBuf.pending]
        { s with
          hostToGuestBuf := buf
          hostSentCnt := s.hostSentCnt + UInt32.ofNat (virtIOVSockSentSize
            (api.sendPacketHostToGuest vq hdr s.hostToGuestBuf.pending).result) }
  | buffered {s : VsockStream P} {data : List UInt8}
      (hplug : mode.quiet = true → s.plug.isSome = true) (hconn : s.isConnected = true) :
      Turn api mode log s [.buffered s.ref data]
        { s with hostToGuestBuf := s.hostToGuestBuf.append data }
  | plugSwitched {s : VsockStream P} {plug : P}
      (hplug : mode.quiet = true → s.plug.isSome = true) :
      Turn api mode log s [] { s with plug := some plug }
  | snifferSet {s : VsockStream P} {sniffer : Option Nat}
      (hplug : mode.quiet = true → s.plug.isSome = true) :
      Turn api mode log s [] { s with dataSniffer := sniffer }
  | header {s : VsockStream P} {hdr : VirtioVsockHdr}
      (hplug : mode.quiet = true → s.plug.isSome = true) :
      Turn api mode log s [.received s.ref hdr]
        { s with guestBufAlloc := hdr.bufAlloc, guestFwdCnt := hdr.fwdCnt }
  | creditAsked {s : VsockStream P} (hplug : mode.quiet = true → s.plug.isSome = true) :
      Turn api mode log s [.opQueued s.ref .creditUpdate]
        { s with sendOpMask := s.sendOpMask ||| VirtioVsockOp.creditUpdate.bit }
  | accepted {s : VsockStream P} {plug : P} {hdr : VirtioVsockHdr}
      (hnew : ∃ key, .created s.ref key .listener ∈ log) :
      Turn api mode log s
        [.received s.ref hdr, .opQueued s.ref .response, .onConnect s.ref plug]
        { s with
          plug := some plug
          guestBufAlloc := hdr.bufAlloc
          guestFwdCnt := hdr.fwdCnt
          isConnected := true
          sendOpMask := s.sendOpMask ||| VirtioVsockOp.response.bit }
  | responded {s : VsockStream P} {plug : P} {hdr : VirtioVsockHdr}
      (hplug : s.plug = some plug) (hop : hdr.op = VirtioVsockOp.response.code)
      (honce : mode.onceConnected = true → s.isConnected = false) :
      Turn api mode log s [.received s.ref hdr, .onConnect s.ref plug]
        { s with guestBufAlloc := hdr.bufAlloc, guestFwdCnt := hdr.fwdCnt, isConnected := true }
  | handed {s : VsockStream P} {plug : P} {data : List UInt8} (hconn : s.isConnected = true)
      (hplug : s.plug = some plug) : Turn api mode log s [.onReceive s.ref plug data] s
  | taken {s : VsockStream P} {data : List UInt8}
      (hplug : mode.quiet = true → s.plug.isSome = true) :
      Turn api mode log s [.opQueued s.ref .creditUpdate]
        { s with
          hostFwdCnt := s.hostFwdCnt + UInt32.ofNat data.length
          sendOpMask := s.sendOpMask ||| VirtioVsockOp.creditUpdate.bit }
  | refused {s : VsockStream P} {plug : P} (hplug : mode.quiet = true → s.plug.isSome = true) :
      Turn api mode log s [.refused s.ref plug] s
  | unplugging {s : VsockStream P} {plug : P} (hplug : s.plug = some plug) :
      Turn api mode log s [.onUnplug s.ref plug] s

/-- How a stream comes to be. -/
inductive Born : List (Event σ P) → VsockStream P → Prop
  | connected {ref : Ref} {guestPort hostPort : UInt32} {plug : P} :
      Born [.created ref ⟨guestPort, hostPort⟩ .connect, .opQueued ref .request]
        { ref, guestPort, hostPort, plug := some plug,
          sendOpMask := 0 ||| VirtioVsockOp.request.bit }
  | requested {ref : Ref} {guestPort hostPort : UInt32} :
      Born [.created ref ⟨guestPort, hostPort⟩ .listener] { ref, guestPort, hostPort }

/-! ### The history of the device's primitives -/

section Log

variable {w : World σ P} {ref : Ref}

@[simp] theorem sendPacketHostToGuest_log {source : Option Ref} {hdr : VirtioVsockHdr}
    {data : List UInt8} : (w.sendPacketHostToGuest api source hdr data).2.log =
      w.log ++ [.call source w.vq hdr data] := rfl

@[simp] theorem sendOp_log {op : VirtioVsockOp} :
    (w.sendOp ref op).log = w.log ++ [.opQueued ref op] := rfl

@[simp] theorem updateGuestCounters_log {hdr : VirtioVsockHdr} :
    (updateGuestCounters w ref hdr).log = w.log ++ [.received ref hdr] := rfl

@[simp] theorem erase_log {s : VsockStream P} : (w.erase s).log = w.log ++ [.erased s.ref] := rfl

theorem afterAccept_log {plug : P} {hdr : VirtioVsockHdr} :
    (w.afterAccept ref plug hdr).log = w.log ++
      [.received ref hdr, .opQueued ref .response, .onConnect ref plug] := by
  simp [World.afterAccept]

theorem emplace_log {w' : World σ P} {guestPort hostPort : UInt32} {origin : Origin}
    (h : w.emplace guestPort hostPort origin = some w') :
    w'.log = w.log ++ [.created w.nextRef ⟨guestPort, hostPort⟩ origin] := by
  obtain ⟨streams, -, rfl⟩ := emplace_inv h
  rfl

theorem connected_log {w' : World σ P} {alloc : UniqueIdAllocator} {guestPort hostPort : UInt32}
    {plug : P} (h : World.emplace { w with mSrcPortAllocator := alloc } guestPort hostPort .connect =
      some w') : (w'.afterConnect w.nextRef plug).log = w.log ++
        [.created w.nextRef ⟨guestPort, hostPort⟩ .connect, .opQueued w.nextRef .request] := by
  show w'.log ++ _ = _
  rw [emplace_log h, List.append_assoc]
  rfl

theorem afterResponse_log {plug : P} {hdr : VirtioVsockHdr} :
    ((updateGuestCounters w ref hdr).afterResponse ref plug).log =
      w.log ++ [.received ref hdr, .onConnect ref plug] := by
  simp [World.afterResponse]

theorem recycleStreamQuietly_log {w' : World σ P} {s : VsockStream P} {op : VirtioVsockOp}
    (h : recycleStreamQuietly w s op = .ok w') : w'.log = w.log ++
      if op ≠ .invalid then [.orphanQueued (s.preparePacketHeader op 0)] else [] := by
  obtain ⟨alloc, rfl, -⟩ := recycleStreamQuietly_inv h
  split
  · rfl
  · simp

theorem recycleStreamQuietly_mOrphanPackets {w' : World σ P} {s : VsockStream P}
    {op : VirtioVsockOp} (h : recycleStreamQuietly w s op = .ok w') : w'.mOrphanPackets =
      w.mOrphanPackets ++ if op ≠ .invalid then [s.preparePacketHeader op 0] else [] := by
  obtain ⟨alloc, rfl, -⟩ := recycleStreamQuietly_inv h
  split
  · rfl
  · simp

end Log

/-! ### A step seen from its stream -/

/-- The events a step left, and what they were for each stream that is there afterwards. -/
structure Touched (api : GoldfishVirtIOVSockDevAPI σ) (mode : Mode) (w w' : World σ P)
    (es : List (Event σ P)) : Prop where
  log : w'.log = w.log ++ es
  /-- The events are about streams that are there, or the one that is born. -/
  about : ∀ e ∈ es, ∀ ref ∈ e.ref?,
    (∃ s ∈ w.mStreams, s.ref = ref) ∨ (ref = w.nextRef ∧ w.nextRef < w'.nextRef)
  nextRef : w.nextRef ≤ w'.nextRef
  streams : ∀ t ∈ w'.mStreams,
    (t ∈ w.mStreams ∧ ∀ e ∈ es, e.ref? ≠ some t.ref) ∨
    (∃ s ∈ w.mStreams, s.ref = t.ref ∧ Turn api mode w.log s es t) ∨
    (t.ref = w.nextRef ∧ Born es t)
  /-- A stream that is not there any more was erased. -/
  gone : ∀ ref < w'.nextRef, (∃ s ∈ w.mStreams, s.ref = ref) ∨ w.nextRef ≤ ref →
    (∃ t ∈ w'.mStreams, t.ref = ref) ∨ .erased ref ∈ es

section Touched

variable {w w' : World σ P} {es : List (Event σ P)}

/-- The streams stay as they are. -/
theorem Touched.same (hstreams : w'.mStreams = w.mStreams) (hnext : w'.nextRef = w.nextRef)
    (hlog : w'.log = w.log ++ es) (hes : ∀ e ∈ es, e.ref? = none) : Touched api mode w w' es where
  log := hlog
  about e he ref href := by simp [hes e he] at href
  nextRef := hnext.ge
  streams t ht := Or.inl ⟨hstreams ▸ ht, fun e he => by simp [hes e he]⟩
  gone ref hlt h := by
    rcases h with h | h
    · exact Or.inl (hstreams ▸ h)
    · exact absurd hlt (not_lt.mpr (hnext ▸ h))

/-- One stream takes a turn. -/
theorem Touched.turn {s s' : VsockStream P} (hs : s ∈ w.mStreams)
    (hupd : w.Updated w' s s') (href : s'.ref = s.ref) (hnext : w'.nextRef = w.nextRef)
    (hlog : w'.log = w.log ++ es) (hes : ∀ e ∈ es, e.ref? = some s.ref)
    (hturn : Turn api mode w.log s es s') : Touched api mode w w' es where
  log := hlog
  about e he ref hr := Or.inl ⟨s, hs, by simpa [hes e he] using hr⟩
  nextRef := hnext.ge
  streams t ht := by
    rcases (hupd t).mp ht with rfl | ⟨ht, hne⟩
    · exact Or.inr (Or.inl ⟨s, hs, href.symm, hturn⟩)
    · refine Or.inl ⟨ht, fun e he => ?_⟩
      rw [hes e he]
      exact fun h => hne (Option.some.inj h).symm
  gone ref hlt h := by
    rcases h with ⟨t, ht, rfl⟩ | h
    · by_cases hne : t.ref = s.ref
      · exact Or.inl ⟨s', hupd.mem, href.trans hne.symm⟩
      · exact Or.inl ⟨t, (hupd t).mpr (Or.inr ⟨ht, hne⟩), rfl⟩
    · exact absurd hlt (not_lt.mpr (hnext ▸ h))

/-- One stream is gone. -/
theorem Touched.lost {s : VsockStream P} (hs : s ∈ w.mStreams)
    (hmem : ∀ t, t ∈ w'.mStreams ↔ t ∈ w.mStreams ∧ t.ref ≠ s.ref)
    (hnext : w'.nextRef = w.nextRef) (hlog : w'.log = w.log ++ es)
    (hes : ∀ e ∈ es, e.ref? = some s.ref ∨ e.ref? = none) (herased : .erased s.ref ∈ es) :
    Touched api mode w w' es where
  log := hlog
  about e he ref hr := by
    rcases hes e he with h | h
    · exact Or.inl ⟨s, hs, by simpa [h] using hr⟩
    · simp [h] at hr
  nextRef := hnext.ge
  streams t ht := by
    obtain ⟨ht, hne⟩ := (hmem t).mp ht
    refine Or.inl ⟨ht, fun e he h => ?_⟩
    rcases hes e he with h' | h'
    · exact hne (Option.some.inj (h.symm.trans h'))
    · simp [h'] at h
  gone ref hlt h := by
    rcases h with ⟨t, ht, rfl⟩ | h
    · by_cases hne : t.ref = s.ref
      · exact Or.inr (hne ▸ herased)
      · exact Or.inl ⟨t, (hmem t).mpr ⟨ht, hne⟩, rfl⟩
    · exact absurd hlt (not_lt.mpr (hnext ▸ h))

/-- A stream is born. -/
theorem Touched.born {s : VsockStream P} (hw : w.Wf)
    (hmem : ∀ t, t ∈ w'.mStreams ↔ t = s ∨ t ∈ w.mStreams) (href : s.ref = w.nextRef)
    (hnext : w'.nextRef = w.nextRef + 1) (hlog : w'.log = w.log ++ es)
    (hes : ∀ e ∈ es, e.ref? = some s.ref) (hborn : Born es s) : Touched api mode w w' es where
  log := hlog
  about e he ref hr := by
    obtain rfl : s.ref = ref := by simpa [hes e he] using hr
    exact Or.inr ⟨href, hnext ▸ Nat.lt_succ_self _⟩
  nextRef := hnext ▸ Nat.le_succ _
  streams t ht := by
    rcases (hmem t).mp ht with rfl | ht
    · exact Or.inr (Or.inr ⟨href, hborn⟩)
    · refine Or.inl ⟨ht, fun e he h => ?_⟩
      rw [hes e he, href] at h
      exact (hw.ref_lt t ht).ne' (Option.some.inj h)
  gone ref hlt h := by
    rcases h with ⟨t, ht, rfl⟩ | h
    · exact Or.inl ⟨t, (hmem t).mpr (Or.inr ht), rfl⟩
    · refine Or.inl ⟨s, (hmem s).mpr (Or.inl rfl), ?_⟩
      rw [hnext] at hlt
      exact href.trans (Nat.le_antisymm h (Nat.lt_succ_iff.mp hlt))

/-- The stream whose packet is offered to the queue takes the turn. -/
theorem Touched.sender {ref : Ref} {vq : σ} {hdr : VirtioVsockHdr} {data : List UInt8} (hw : w.Wf)
    (h : Touched api mode w w' [.call (some ref) vq hdr data]) :
    ∃ s ∈ w.mStreams, s.ref = ref ∧
      ∃ s', Turn api mode w.log s [.call (some ref) vq hdr data] s' := by
  have habout := h.about _ List.mem_cons_self ref rfl
  obtain ⟨hlt, hold⟩ : ref < w'.nextRef ∧ ((∃ s ∈ w.mStreams, s.ref = ref) ∨ w.nextRef ≤ ref) := by
    rcases habout with ⟨s, hs, rfl⟩ | ⟨rfl, hlt⟩
    · exact ⟨(hw.ref_lt s hs).trans_le h.nextRef, Or.inl ⟨s, hs, rfl⟩⟩
    · exact ⟨hlt, Or.inr le_rfl⟩
  rcases h.gone ref hlt hold with ⟨t, ht, rfl⟩ | herased
  · rcases h.streams t ht with ⟨-, hother⟩ | ⟨s, hs, href, hturn⟩ | ⟨-, hborn⟩
    · exact absurd rfl (hother _ List.mem_cons_self)
    · exact ⟨s, hs, href, t, hturn⟩
    · cases hborn
  · simp at herased

end Touched

theorem HostAtom.turn {w w' : World σ P} (h : HostAtom api mode w w') (hw : w.Wf)
    (hplug : mode.quiet = true → ∀ s ∈ w.mStreams, s.plug.isSome = true) :
    ∃ es, Touched api mode w w' es := by
  cases h with
  | orphanSent _ _ => exact ⟨_, .same rfl rfl rfl (by simp [Event.ref?])⟩
  | orphanKept _ _ => exact ⟨_, .same rfl rfl rfl (by simp [Event.ref?])⟩
  | needCredit hs hzero =>
      exact ⟨_, .turn hs (updated_sendOp hw hs _) rfl rfl rfl (by simp [Event.ref?])
        (.needCredit (fun hq => hplug hq _ hs) hzero)⟩
  | opSent hs _ hop hfull =>
      exact ⟨_, .turn hs (updated_clearOp hw.sendPacketHostToGuest hs _) rfl rfl rfl
        (by simp [Event.ref?]) (.opSent (fun hq => hplug hq _ hs) hop hfull)⟩
  | opKept hs _ hop hfull =>
      have hupd := updated_self hw hs
      exact ⟨_, .turn hs hupd rfl rfl rfl (by simp [Event.ref?])
        (.opKept (fun hq => hplug hq _ hs) hop hfull)⟩
  | maskCleared hs hnone =>
      exact ⟨[], .turn hs (updated_setMask hw hs 0) rfl rfl (List.append_nil _).symm (by simp)
        (.maskCleared (fun hq => hplug hq _ hs) hnone)⟩
  | dataSent hs _ hmask hok hpend havail havail' hhdr hbuf =>
      exact ⟨_, .turn hs (updated_afterSend hw.sendPacketHostToGuest hs _ _) rfl rfl rfl
        (by simp [Event.ref?])
        (.dataSent (fun hq => hplug hq _ hs) hmask hok hpend havail havail' hhdr hbuf)⟩
  | notified => exact ⟨_, .same rfl rfl rfl (by simp [Event.ref?])⟩
  | @connected w₁ guestPort plug hemplace _ =>
      have hw₁ : w₁.Wf := by
        refine World.Wf.emplace ?_ hemplace
        exact hw.congr rfl rfl
      have hupd := updated_afterConnect hw₁ ((mem_emplace hemplace).mpr (Or.inl rfl)) plug
      have hnext := emplace_nextRef hemplace
      have hborn := @Born.connected σ P w.nextRef guestPort
        (w.mSrcPortAllocator.get.1 + kDynamicPortsStart) plug
      refine ⟨_, .born hw (fun t => ?_) rfl hnext (connected_log hemplace) (by simp [Event.ref?])
        hborn⟩
      rw [hupd t, mem_emplace hemplace]
      constructor
      · rintro (h | ⟨h | h, hne⟩)
        · exact Or.inl h
        · exact absurd (h ▸ rfl) hne
        · exact Or.inr h
      · rintro (h | h)
        · exact Or.inl h
        · exact Or.inr ⟨Or.inr h, (hw.ref_lt t h).ne⟩
  | listened _ => exact ⟨[], .same rfl rfl (List.append_nil _).symm (by simp)⟩
  | sniffed => exact ⟨_, .same rfl rfl rfl (by simp [Event.ref?])⟩
  | buffered hs hconn =>
      exact ⟨_, .turn hs (updated_afterSendAsync hw hs _) rfl rfl rfl (by simp [Event.ref?])
        (.buffered (fun hq => hplug hq _ hs) hconn)⟩
  | @plugSwitched _ plug hs _ =>
      exact ⟨[], .turn hs (updated_setPlug hw hs plug) rfl rfl (List.append_nil _).symm (by simp)
        (.plugSwitched fun hq => hplug hq _ hs)⟩
  | @snifferSet _ sniffer hs =>
      exact ⟨[], .turn hs (updated_setDataSniffer hw hs sniffer) rfl rfl
        (List.append_nil _).symm (by simp) (.snifferSet fun hq => hplug hq _ hs)⟩
  | @unplugged _ s p hs _ hrecycle =>
      obtain ⟨hstreams, hnext⟩ := recycleStreamQuietly_mStreams hrecycle
      refine ⟨[.unplugged s.ref p, .orphanQueued (s.preparePacketHeader .shutdown 0),
        .erased s.ref], .lost hs (fun t => ?_) hnext ?_ ?_ (by simp)⟩
      · rw [← mem_world_erase hw hs]
        unfold World.erase
        simp only [World.emit_mStreams, hstreams]
      · rw [erase_log, recycleStreamQuietly_log hrecycle]
        simp
      · simp [Event.ref?]

/-- A call from the host side does not call a plug back. -/
theorem HostAtom.silent {w w' : World σ P} (h : HostAtom api mode w w') :
    ∃ es, w'.log = w.log ++ es ∧ ∀ e ∈ es, e.isCallback = false := by
  cases h with
  | listened _ => exact ⟨[], (List.append_nil _).symm, by simp⟩
  | plugSwitched _ _ => exact ⟨[], (List.append_nil _).symm, by simp⟩
  | snifferSet _ => exact ⟨[], (List.append_nil _).symm, by simp⟩
  | maskCleared _ _ => exact ⟨[], (List.append_nil _).symm, by simp⟩
  | connected hemplace _ => exact ⟨_, connected_log hemplace, by simp [Event.isCallback]⟩
  | @unplugged _ s p _ _ hrecycle =>
      refine ⟨[.unplugged s.ref p, .orphanQueued (s.preparePacketHeader .shutdown 0),
        .erased s.ref], ?_, by simp [Event.isCallback]⟩
      rw [erase_log, recycleStreamQuietly_log hrecycle]
      simp
  | _ => exact ⟨_, rfl, by simp [Event.isCallback]⟩

/-- A turn is of one stream. -/
theorem Turn.ref_eq {log es : List (Event σ P)} {s s' : VsockStream P}
    (h : Turn api mode log s es s') : s'.ref = s.ref := by
  cases h <;> rfl

/-- A stream that is connected stays so. -/
theorem Turn.isConnected {log es : List (Event σ P)} {s s' : VsockStream P}
    (h : Turn api mode log s es s') (hs : s.isConnected = true) : s'.isConnected = true := by
  cases h with
  | accepted _ => rfl
  | responded _ _ _ => rfl
  | _ => exact hs

/-- A step of the abstract device touches the streams one at a time, in turns. -/
theorem Atom.turn {x y : Ctl × World σ P} (h : Atom api mode x y) (hw : x.2.Wf)
    (hplugged : Plugged x)
    (hnewborn : ∀ ref, x.1 = .accepting ref → ∃ key, .created ref key .listener ∈ x.2.log) :
    ∃ es, Touched api mode x.2 y.2 es := by
  have hidle : x.1.newborn = none → ∀ s ∈ x.2.mStreams, s.plug.isSome = true :=
    fun hc s hs => hplugged s hs (by simp [hc])
  cases h with
  | host h hquiet _ =>
      refine h.turn hw fun hq => hidle ?_
      rw [hquiet hq]
      rfl
  | guestRx => exact ⟨[], .same rfl rfl (List.append_nil _).symm (by simp)⟩
  | header hs =>
      exact ⟨_, .turn hs (updated_updateGuestCounters hw hs _) rfl rfl rfl
        (by simp [Event.ref?]) (.header fun _ => hidle rfl _ hs)⟩
  | creditAsked hs =>
      exact ⟨_, .turn hs (updated_sendOp hw hs _) rfl rfl rfl (by simp [Event.ref?])
        (.creditAsked fun _ => hidle rfl _ hs)⟩
  | resetQueued => exact ⟨_, .same rfl rfl rfl (by simp [Event.ref?])⟩
  | @requested w w' hdr _ hemplace =>
      have hborn := @Born.requested σ P w.nextRef hdr.srcPort hdr.dstPort
      exact ⟨_, .born hw (fun t => mem_emplace hemplace) rfl (emplace_nextRef hemplace)
        (emplace_log hemplace) (by simp [Event.ref?]) hborn⟩
  | @accepted _ _ plug hdr hs =>
      exact ⟨_, .turn hs (updated_afterAccept hw hs plug hdr) rfl
        World.afterAccept_fields.2.2.2.1 afterAccept_log (by simp [Event.ref?])
        (.accepted (hnewborn _ rfl))⟩
  | declined hs =>
      exact ⟨_, .lost hs (fun t => mem_world_erase hw hs) rfl rfl (by simp [Event.ref?])
        List.mem_cons_self⟩
  | @responded _ _ plug hdr hs hplug hop honce =>
      exact ⟨_, .turn hs (updated_afterResponse hw hs plug hdr) rfl rfl afterResponse_log
        (by simp [Event.ref?]) (.responded hplug hop honce)⟩
  | sniffed => exact ⟨_, .same rfl rfl rfl (by simp [Event.ref?])⟩
  | handed hs hconn hplug =>
      have hupd := updated_self hw hs
      exact ⟨_, .turn hs hupd rfl rfl rfl (by simp [Event.ref?]) (.handed hconn hplug)⟩
  | taken hs =>
      exact ⟨_, .turn hs (updated_afterReceive hw hs _) rfl rfl rfl (by simp [Event.ref?])
        (.taken fun _ => hidle rfl _ hs)⟩
  | refused hs _ =>
      have hupd := updated_self hw hs
      exact ⟨_, .turn hs hupd rfl rfl rfl (by simp [Event.ref?])
        (.refused fun _ => hidle rfl _ hs)⟩
  | unplugging hs hplug _ =>
      have hupd := updated_self hw hs
      exact ⟨_, .turn hs hupd rfl rfl rfl (by simp [Event.ref?]) (.unplugging hplug)⟩
  | @recycled w w' s op hs hrecycle =>
      obtain ⟨hstreams, hnext⟩ := recycleStreamQuietly_mStreams hrecycle
      refine ⟨(if op ≠ .invalid then [.orphanQueued (s.preparePacketHeader op 0)] else []) ++
        [.erased s.ref], .lost hs (fun t => ?_) hnext ?_ ?_ (by simp)⟩
      · rw [← mem_world_erase hw hs]
        unfold World.erase
        simp only [World.emit_mStreams, hstreams]
      · rw [erase_log, recycleStreamQuietly_log hrecycle, List.append_assoc]
      · split <;> simp [Event.ref?]

/-! ### Properties of a stream and its history -/

/-- A property of a stream and the history behind it, kept by every turn. -/
structure Lasting (api : GoldfishVirtIOVSockDevAPI σ) (mode : Mode)
    (Q : List (Event σ P) → VsockStream P → Prop) : Prop where
  /-- Events about other streams do not matter. -/
  frame : ∀ log es s, (∀ e ∈ es, e.ref? ≠ some s.ref) → Q log s → Q (log ++ es) s
  turn : ∀ log es s s', Turn api mode log s es s' → Q log s → Q (log ++ es) s'
  born : ∀ log es s, (∀ e ∈ log, e.ref? ≠ some s.ref) → Born es s → Q (log ++ es) s

/-- What holds on every path, of the streams and the history. -/
structure Living (Q : List (Event σ P) → VsockStream P → Prop) (x : Ctl × World σ P) : Prop where
  wf : x.2.Wf
  plugged : Plugged x
  /-- A stream whose listener is being asked was requested by the guest. -/
  newborn : ∀ ref, x.1 = .accepting ref → ∃ key, .created ref key .listener ∈ x.2.log
  old : ∀ e ∈ x.2.log, ∀ ref ∈ e.ref?, ref < x.2.nextRef
  gone : ∀ ref < x.2.nextRef, (∃ s ∈ x.2.mStreams, s.ref = ref) ∨ .erased ref ∈ x.2.log
  each : ∀ s ∈ x.2.mStreams, Q x.2.log s

variable {Q : List (Event σ P) → VsockStream P → Prop}

/-- Only a request of the guest makes the device ask a listener. -/
theorem Atom.newborn {x y : Ctl × World σ P} (h : Atom api mode x y)
    (hx : ∀ ref, x.1 = .accepting ref → ∃ key, .created ref key .listener ∈ x.2.log) :
    ∀ ref, y.1 = .accepting ref → ∃ key, .created ref key .listener ∈ y.2.log := by
  cases h with
  | host h _ _ =>
      intro ref hc
      obtain ⟨es, hlog, -⟩ := h.silent
      obtain ⟨key, hkey⟩ := hx ref hc
      exact ⟨key, hlog ▸ List.mem_append_left _ hkey⟩
  | @requested _ _ hdr _ hemplace =>
      intro ref hc
      obtain rfl := Ctl.accepting.inj hc
      exact ⟨⟨hdr.srcPort, hdr.dstPort⟩, by rw [emplace_log hemplace]; simp⟩
  | _ => simp

theorem Atom.living (hQ : Lasting api mode Q) {x y : Ctl × World σ P} (h : Atom api mode x y)
    (hx : Living Q x) : Living Q y := by
  obtain ⟨es, hes⟩ := h.turn hx.wf hx.plugged hx.newborn
  refine ⟨h.wf hx.wf, (h.effect hx.wf).plugged hx.plugged, h.newborn hx.newborn,
    fun e he ref href => ?_, fun ref hlt => ?_, fun t ht => ?_⟩
  · rw [hes.log] at he
    rcases List.mem_append.mp he with he | he
    · exact (hx.old e he ref href).trans_le hes.nextRef
    · rcases hes.about e he ref href with ⟨s, hs, rfl⟩ | ⟨rfl, hlt⟩
      · exact (hx.wf.ref_lt s hs).trans_le hes.nextRef
      · exact hlt
  · rw [hes.log, List.mem_append]
    rcases lt_or_ge ref x.2.nextRef with hold | hnew
    · rcases hx.gone ref hold with hlive | hgone
      · exact (hes.gone ref hlt (Or.inl hlive)).imp_right Or.inr
      · exact Or.inr (Or.inl hgone)
    · exact (hes.gone ref hlt (Or.inr hnew)).imp_right Or.inr
  · rw [hes.log]
    rcases hes.streams t ht with ⟨ht, hother⟩ | ⟨s, hs, -, hturn⟩ | ⟨href, hborn⟩
    · exact hQ.frame _ _ t hother (hx.each t ht)
    · exact hQ.turn _ _ s t hturn (hx.each s hs)
    · refine hQ.born _ _ t (fun e he h => ?_) hborn
      exact (hx.old e he t.ref h).ne href

theorem Atoms.living (hQ : Lasting api mode Q) {x y : Ctl × World σ P} (h : Atoms api mode x y)
    (hx : Living Q x) : Living Q y :=
  star_invariant (fun _ _ hab => hab.living hQ) h hx

/-- A reset only tells the plugs. -/
theorem setStatus_living
    (hreset : ∀ log es s, (∀ e ∈ es, ∃ ref p, e = Event.onUnplug ref p) → Q log s →
      Q (log ++ es) s) {w w' : World σ P} {status : UInt8} (h : setStatus w status = .ok w')
    (hw : Living Q (.idle, w)) : Living Q (.idle, w') := by
  rcases setStatus_cases h with ⟨-, rfl⟩ | ⟨-, rfl, -⟩
  · exact hw
  · have hcalls : ∀ e ∈ unplugCalls (σ := σ) w.mStreams.elems,
        ∃ s ∈ w.mStreams, ∃ p, e = .onUnplug s.ref p := by
      intro e he
      obtain ⟨s, hs, he⟩ := List.mem_filterMap.mp he
      obtain ⟨p, -, rfl⟩ := Option.map_eq_some_iff.mp he
      exact ⟨s, hs, p, rfl⟩
    refine ⟨hw.wf.congr rfl rfl, hw.plugged, by simp, fun e he ref href => ?_,
      fun ref hlt => (hw.gone ref hlt).imp_right (List.mem_append_left _), fun s hs => ?_⟩
    · rcases List.mem_append.mp he with he | he
      · exact hw.old e he ref href
      · obtain ⟨s, hs, p, rfl⟩ := hcalls e he
        obtain rfl : s.ref = ref := by simpa [Event.ref?] using href
        exact hw.wf.ref_lt s hs
    · refine hreset _ _ s (fun e he => ?_) (hw.each s hs)
      obtain ⟨s, -, p, rfl⟩ := hcalls e he
      exact ⟨s.ref, p, rfl⟩

/-- The rule for runs: what every turn keeps holds of every stream in every state reached. -/
theorem run_living (hQ : Lasting api mode Q)
    (hreset : ∀ log es s, (∀ e ∈ es, ∃ ref p, e = Event.onUnplug ref p) → Q log s →
      Q (log ++ es) s) {w w' : World σ P} {acts : List (Action σ P)}
    (hallowed : Along (step api) mode.Allows w acts) (hw : Living Q (.idle, w))
    (hrun : run api w acts = .ok w') : Living Q (.idle, w') := by
  refine hallowed.invariant (I := fun v => Living Q (.idle, v)) (fun v a v' hv hallows hstep => ?_)
    hw hrun
  by_cases hstatus : ∃ status, a = .setStatus status
  · obtain ⟨status, rfl⟩ := hstatus
    exact setStatus_living hreset hstep hv
  · exact (step_atoms hv.wf hallows (fun status hs => hstatus ⟨status, hs⟩) hstep).living hQ hv

theorem living_realized {listeners : Finset UInt32} {vq : σ} :
    Living Q (.idle, World.realized listeners vq) where
  wf := realized_sane.wf
  plugged s hs := absurd hs (StdSet.not_mem_empty s)
  newborn _ h := by simp at h
  old _ he := absurd he List.not_mem_nil
  gone _ hlt := absurd hlt (Nat.not_lt_zero _)
  each s hs := absurd hs (StdSet.not_mem_empty s)

end Goldfish.Vsock
