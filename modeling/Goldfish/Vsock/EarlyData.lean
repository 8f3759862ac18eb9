import Goldfish.Vsock.Credit

/-!
# Goldfish.Vsock.EarlyData

**Data sent before the connection is established.** `ISocket::sendAsync` promises that
data sent before `onConnect` sits and waits. `sendAsyncImpl` drops it: it stores data only
when the stream is connected.

The history does not show what was dropped, so the calls themselves are followed here:
`Action.calls` lists the calls that the host side makes in one action, those of the
callbacks included, each with the device as the call finds it. What is stored is what the
calls keep (`run_stored`); so nothing is lost exactly if no call for the stream was early
(`run_nothingLost_iff`).
-/

namespace Goldfish.Vsock

open Goldfish.Lib

variable {σ P : Type}

/-! ### The calls of the host side -/

/-- A call on the device, and the device it is made on. -/
structure Call (σ P : Type) where
  device : World σ P
  op : HostOp P

section Calls

variable (api : GoldfishVirtIOVSockDevAPI σ)

/-- The calls of `hostOps`. -/
def hostCalls : World σ P → List (HostOp P) → List (Call σ P)
  | _, [] => []
  | w, op :: ops =>
      ⟨w, op⟩ ::
        match hostOp api w op with
        | .ok w => hostCalls w ops
        | .error _ => []

variable (cb : Callbacks P)

/-- The calls of `onUnplug` in `recycleStreamLocked`. -/
def recycleCalls (w : World σ P) (ref : Ref) : List (Call σ P) :=
  match w.deref ref with
  | .ok s =>
      match s.plug with
      | some p => hostCalls api (w.emit (.onUnplug ref p)) cb.onUnplug
      | none => []
  | .error _ => []

/-- The calls of the listener, and those of the `onConnect` of the plug it returns. -/
def requestCalls (w : World σ P) (hdr : VirtioVsockHdr) : List (Call σ P) :=
  if hdr.dstPort ∈ w.mHostPortListeners then
    match w.emplace hdr.srcPort hdr.dstPort .listener with
    | some w₀ =>
        hostCalls api w₀ cb.listener.1 ++
          match hostOps api w₀ cb.listener.1, cb.listener.2 with
          | .ok w₁, some plug => hostCalls api (w₁.afterAccept w.nextRef plug hdr) cb.onConnect
          | _, _ => []
    | none => []
  else []

/-- The calls made while `onPacketReceiveControl` runs. -/
def controlCalls (w : World σ P) (hdr : VirtioVsockHdr) : List (Call σ P) :=
  if hdr.op = VirtioVsockOp.request.code then requestCalls api cb w hdr
  else
    match w.mStreams.find? ⟨hdr.srcPort, hdr.dstPort⟩ with
    | some s =>
        let w := updateGuestCounters w s.ref hdr
        match VirtioVsockOp.ofCode hdr.op with
        | some .response =>
            match s.plug with
            | some p => hostCalls api (w.afterResponse s.ref p) cb.onConnect
            | none => []
        | some .creditUpdate => []
        | some .creditRequest => []
        | _ => recycleCalls api cb w s.ref
    | none => []

/-- The calls of `onReceive` for one piece of data. -/
def receiveCalls (ops : List (HostOp P)) (w : World σ P) (ref : Ref) (data : List UInt8) :
    List (Call σ P) :=
  match w.deref ref with
  | .ok s =>
      if s.isConnected then
        match s.plug with
        | some p =>
            hostCalls api ((w.sniff s.dataSniffer (.toPlug · data)).emit (.onReceive ref p data)) ops
        | none => []
      else []
  | .error _ => []

/-- The calls made while the pieces of a packet are handed over. -/
def pieceCalls (ref : Ref) : Nat → List (List UInt8) → World σ P → List (Call σ P)
  | _, [], _ => []
  | i, data :: rest, w =>
      receiveCalls api (cb.onReceive i).1 w ref data ++
        match onPacketReceiveRw api (cb.onReceive i) w ref data with
        | .ok (false, w) => pieceCalls ref (i + 1) rest w
        | _ => []

/-- The calls made while a RW packet is handled. -/
def packetCalls (w : World σ P) (hdr : VirtioVsockHdr) (pieces : List (List UInt8)) :
    List (Call σ P) :=
  match onPacketReceiveRwStart w hdr with
  | (none, _) => []
  | (some ref, w) =>
      pieceCalls api cb ref 0 pieces w ++
        match receivePieces api cb ref 0 pieces w with
        | .ok (true, w) => recycleCalls api cb w ref
        | _ => []

/-- The calls the host side makes in an action. -/
def Action.calls (w : World σ P) : Action σ P → List (Call σ P)
  | .host op => [⟨w, op⟩]
  | .control hdr cb => controlCalls api cb w hdr
  | .rw hdr pieces cb => packetCalls api cb w hdr pieces
  | _ => []

/-- The calls the host side makes in a run. -/
def runCalls : World σ P → List (Action σ P) → List (Call σ P)
  | _, [] => []
  | w, a :: acts =>
      a.calls api w ++
        match step api w a with
        | .ok w => runCalls w acts
        | .error _ => []

end Calls

/-- The bytes a call passes to `sendAsync` for a stream. -/
def Call.asks (ref : Ref) (c : Call σ P) : List UInt8 :=
  match c.op with
  | .sendAsync s data => if s = ref then data else []
  | _ => []

/-- Is there a connected stream at the address? -/
def World.connectedAt (w : World σ P) (ref : Ref) : Bool :=
  match w.deref ref with
  | .ok s => s.isConnected
  | .error _ => false

/-- The bytes the device stores of them. -/
def Call.keeps (ref : Ref) (c : Call σ P) : List UInt8 :=
  if c.device.connectedAt ref then c.asks ref else []

/-- Data for a stream that is not connected. -/
def Call.Early (ref : Ref) (c : Call σ P) : Prop :=
  c.device.connectedAt ref = false ∧ c.asks ref ≠ []

/-- All bytes passed to `sendAsync` for a stream. -/
def asked (ref : Ref) (calls : List (Call σ P)) : List UInt8 := calls.flatMap (Call.asks ref)

/-- The part of them the device stores. -/
def kept (ref : Ref) (calls : List (Call σ P)) : List UInt8 := calls.flatMap (Call.keeps ref)

@[simp] theorem kept_append {ref : Ref} {calls calls' : List (Call σ P)} :
    kept ref (calls ++ calls') = kept ref calls ++ kept ref calls' := List.flatMap_append

theorem keeps_length_le (ref : Ref) (c : Call σ P) : (c.keeps ref).length ≤ (c.asks ref).length := by
  unfold Call.keeps
  split
  · exact le_rfl
  · exact Nat.zero_le _

theorem kept_length_le (ref : Ref) (calls : List (Call σ P)) :
    (kept ref calls).length ≤ (asked ref calls).length := by
  induction calls with
  | nil => exact le_rfl
  | cons c calls ih =>
      simp only [kept, asked, List.flatMap_cons, List.length_append] at ih ⊢
      exact Nat.add_le_add (keeps_length_le ref c) ih

theorem keeps_eq_asks_iff {ref : Ref} {c : Call σ P} : c.keeps ref = c.asks ref ↔ ¬ c.Early ref := by
  unfold Call.keeps Call.Early
  cases c.device.connectedAt ref with
  | true => simp
  | false =>
      rw [if_neg Bool.false_ne_true]
      refine ⟨fun h hearly => hearly.2 h.symm, fun h => ?_⟩
      by_contra hne
      exact h ⟨rfl, fun hnil => hne hnil.symm⟩

/-- Everything is stored exactly if no call was early: what one call drops, no other adds. -/
theorem kept_eq_asked_iff {ref : Ref} {calls : List (Call σ P)} :
    kept ref calls = asked ref calls ↔ ∀ c ∈ calls, ¬ c.Early ref := by
  induction calls with
  | nil => simp [kept, asked]
  | cons c calls ih =>
      rw [List.forall_mem_cons, ← keeps_eq_asks_iff, ← ih]
      have hhead := keeps_length_le ref c
      have hrest := kept_length_le ref calls
      simp only [kept, asked, List.flatMap_cons] at hrest ⊢
      constructor
      · intro heq
        have hlen := congrArg List.length heq
        rw [List.length_append, List.length_append] at hlen
        exact List.append_inj heq (by omega)
      · intro ⟨hone, hall⟩
        rw [hone, hall]

/-! ### What is stored is what the calls keep -/

/-- Between two states the calls stored what they keep, and nothing else was stored. -/
def Stores (ref : Ref) (w w' : World σ P) (calls : List (Call σ P)) : Prop :=
  stored ref w'.log = stored ref w.log ++ kept ref calls

section Stores

variable {api : GoldfishVirtIOVSockDevAPI σ} {cb : Callbacks P} {ref : Ref} {w w₁ w' : World σ P}

theorem Stores.trans {calls calls' : List (Call σ P)} (h : Stores ref w w₁ calls)
    (h' : Stores ref w₁ w' calls') : Stores ref w w' (calls ++ calls') := by
  unfold Stores at *
  rw [h', h, kept_append, List.append_assoc]

/-- Some events that store nothing. -/
theorem stores_of_log {es : List (Event σ P)} (hlog : w'.log = w.log ++ es)
    (hes : ∀ e ∈ es, e.stores ref = []) : Stores ref w w' [] := by
  unfold Stores
  rw [hlog, stored_append]
  congr 1
  exact List.flatMap_eq_nil_iff.mpr hes

theorem stores_of_log_eq (hlog : w'.log = w.log) : Stores ref w w' [] :=
  @stores_of_log _ _ ref w w' [] (by rw [hlog, List.append_nil]) (by simp)

theorem OnlySends.stores {full : Bool} (h : OnlySends api w w' full) : Stores ref w w' [] := by
  obtain ⟨es, hlog, hsends, -⟩ := h
  refine stores_of_log hlog fun e he => ?_
  have := hsends e he
  cases e with
  | buffered _ _ => exact absurd this Bool.false_ne_true
  | _ => rfl

theorem sendPacketsAndNotifyLocked_stores (h : sendPacketsAndNotifyLocked api w = .ok w') :
    Stores ref w w' [] := by
  unfold sendPacketsAndNotifyLocked at h
  rw [bind_eq_ok] at h
  obtain ⟨⟨needNotify, w₁⟩, hsend, h⟩ := h
  have hsends : Stores ref w w₁ [] := (sendPacketsLocked_onlySends hsend).stores
  rw [pure_eq_ok] at h
  subst h
  cases needNotify with
  | true => exact hsends.trans (stores_of_log rfl (by simp [Event.stores]))
  | false => exact hsends

theorem recycleStreamQuietly_stores {s : VsockStream P} {op : VirtioVsockOp}
    (h : recycleStreamQuietly w s op = .ok w') : Stores ref w (w'.erase s) [] := by
  have hlog : (w'.erase s).log = w.log ++ ((if op ≠ .invalid then
      [.orphanQueued (s.preparePacketHeader op 0)] else []) ++ [.erased s.ref]) := by
    rw [erase_log, recycleStreamQuietly_log h, List.append_assoc]
  refine stores_of_log hlog fun e he => ?_
  · split at he
    · simp only [List.mem_append, List.mem_singleton] at he
      rcases he with rfl | rfl <;> rfl
    · simp only [List.nil_append, List.mem_singleton] at he
      exact he ▸ rfl

/-- One call stores what it keeps. -/
theorem hostOp_stores {op : HostOp P} (h : hostOp api w op = .ok w') :
    Stores ref w w' [⟨w, op⟩] := by
  have hnone : kept ref [(⟨w, op⟩ : Call σ P)] = [] → Stores ref w w' [] →
      Stores ref w w' [⟨w, op⟩] := by
    intro hkept hstores
    unfold Stores at *
    rw [hkept, hstores]
    rfl
  cases op with
  | connect guestPort plug =>
      refine hnone (by simp [kept, Call.keeps, Call.asks]) ?_
      simp only [hostOp, connect, map_eq_ok] at h
      obtain ⟨⟨r, v⟩, h, rfl⟩ := h
      split at h
      · simp at h
      · next v₁ hemplace =>
        simp only [bind_eq_ok, pure_eq_ok, Prod.mk.injEq] at h
        obtain ⟨v₂, hsend, -, rfl⟩ := h
        have hcreated : Stores ref w (v₁.afterConnect w.nextRef plug) [] :=
          stores_of_log (connected_log hemplace) (by simp [Event.stores])
        exact hcreated.trans (sendPacketsAndNotifyLocked_stores hsend)
  | listen hostPort =>
      refine hnone (by simp [kept, Call.keeps, Call.asks]) ?_
      obtain rfl := Except.ok.inj h
      exact stores_of_log_eq rfl
  | sendAsync r data =>
      simp only [hostOp, sendAsyncImpl, bind_eq_ok] at h
      obtain ⟨s, hs, h⟩ := h
      have hat : ∀ b, s.isConnected = b → Call.keeps ref (⟨w, .sendAsync r data⟩ : Call σ P) =
          if b ∧ r = ref then data else [] := by
        intro b heq
        subst heq
        by_cases href : r = ref
        · subst href
          simp [Call.keeps, Call.asks, World.connectedAt, hs]
        · simp [Call.keeps, Call.asks, href]
      cases hconn : s.isConnected with
      | false =>
          rw [hconn, if_neg Bool.false_ne_true, pure_eq_ok] at h
          subst h
          refine hnone ?_ (stores_of_log_eq rfl)
          simp [kept, hat false hconn]
      | true =>
          rw [hconn, if_pos rfl] at h
          have hsniff : Stores ref w (w.sniff s.dataSniffer (.toSocket · data)) [] := by
            cases s.dataSniffer with
            | none => exact stores_of_log_eq rfl
            | some i => exact stores_of_log rfl (by simp [Event.stores])
          have hput : Stores ref (w.sniff s.dataSniffer (.toSocket · data))
              (((w.sniff s.dataSniffer (.toSocket · data)).appendData r data).emit
                (.buffered r data)) [⟨w, .sendAsync r data⟩] := by
            unfold Stores
            rw [World.emit_log, World.modify_log, stored_append]
            simp [stored, kept, hat true hconn, Event.stores]
          exact (hsniff.trans hput).trans (sendPacketsAndNotifyLocked_stores h)
  | switchPlug r plug =>
      refine hnone (by simp [kept, Call.keeps, Call.asks]) ?_
      simp only [hostOp, switchPlug, map_eq_ok, bind_eq_ok, pure_eq_ok] at h
      obtain ⟨p, ⟨s, -, rfl⟩, rfl⟩ := h
      exact stores_of_log_eq rfl
  | setDataSniffer r sniffer =>
      refine hnone (by simp [kept, Call.keeps, Call.asks]) ?_
      simp only [hostOp, setDataSniffer, bind_eq_ok, pure_eq_ok] at h
      obtain ⟨s, -, rfl⟩ := h
      exact stores_of_log_eq rfl
  | unplug r =>
      refine hnone (by simp [kept, Call.keeps, Call.asks]) ?_
      simp only [hostOp, unplugImpl, map_eq_ok, bind_eq_ok, pure_eq_ok] at h
      obtain ⟨p, ⟨s, -, q, -, v, hrecycle, v', hsend, rfl⟩, rfl⟩ := h
      have hgone : Stores ref (w.emit (.unplugged r q)) (v.erase s) [] :=
        recycleStreamQuietly_stores hrecycle
      have htold : Stores ref w (w.emit (.unplugged r q)) [] :=
        stores_of_log rfl (by simp [Event.stores])
      exact (htold.trans hgone).trans (sendPacketsAndNotifyLocked_stores hsend)

theorem hostOps_stores : ∀ {ops : List (HostOp P)} {w w' : World σ P},
    hostOps api w ops = .ok w' → Stores ref w w' (hostCalls api w ops)
  | [], w, w', h => by
      obtain rfl := Except.ok.inj h
      exact stores_of_log_eq rfl
  | op :: ops, w, w', h => by
      unfold hostOps at h
      rw [List.foldlM_cons, bind_eq_ok] at h
      obtain ⟨w₁, hop, h⟩ := h
      have hrest : Stores ref w₁ w' (hostCalls api w₁ ops) := hostOps_stores h
      simp only [hostCalls, hop]
      exact (hostOp_stores hop).trans hrest

theorem updateGuestCounters_stores (w : World σ P) (r : Ref) (hdr : VirtioVsockHdr) :
    Stores ref w (updateGuestCounters w r hdr) [] :=
  stores_of_log (updateGuestCounters_log) (by simp [Event.stores])

/-! ### Packets -/

theorem recycleStreamLocked_stores {r : Ref} {op : VirtioVsockOp}
    (h : recycleStreamLocked api cb w r op = .ok w') : Stores ref w w' (recycleCalls api cb w r) := by
  simp only [recycleStreamLocked, bind_eq_ok, notNull_eq_ok, pure_eq_ok] at h
  obtain ⟨s, hs, p, hplug, w₁, hops, t, -, w₂, hrecycle, rfl⟩ := h
  simp only [recycleCalls, hs, hplug]
  have htold : Stores ref w (w.emit (.onUnplug r p)) [] :=
    stores_of_log rfl (by simp [Event.stores])
  have hgone : Stores ref w₁ (w₂.erase t) [] := recycleStreamQuietly_stores hrecycle
  have hall := (htold.trans (hostOps_stores hops)).trans hgone
  rwa [List.nil_append, List.append_nil] at hall

theorem processPacketOpRequestLocked_stores {hdr : VirtioVsockHdr} {done : Bool}
    (h : processPacketOpRequestLocked api cb w hdr = .ok (done, w')) :
    Stores ref w w' (requestCalls api cb w hdr) := by
  unfold processPacketOpRequestLocked at h
  unfold requestCalls
  by_cases hlisten : hdr.dstPort ∈ w.mHostPortListeners
  · rw [if_pos hlisten] at h ⊢
    cases hemplace : w.emplace hdr.srcPort hdr.dstPort .listener with
    | none =>
        simp only [hemplace, pure_eq_ok, Prod.mk.injEq] at h
        rw [← h.2]
        exact stores_of_log_eq rfl
    | some w₀ =>
        simp only [hemplace, bind_eq_ok] at h
        obtain ⟨w₁, hops, s, hs, h⟩ := h
        have hmade : Stores ref w w₀ [] := stores_of_log (emplace_log hemplace) (by simp [Event.stores])
        have hasked := hmade.trans (hostOps_stores hops)
        rw [List.nil_append] at hasked
        simp only [hops]
        cases hanswer : cb.listener.2 with
        | none =>
            simp only [hanswer, pure_eq_ok, Prod.mk.injEq] at h
            rw [← h.2]
            exact hasked.trans (stores_of_log erase_log (by simp [Event.stores]))
        | some plug =>
            simp only [hanswer, bind_eq_ok, pure_eq_ok, Prod.mk.injEq] at h
            obtain ⟨w₂, honConnect, -, rfl⟩ := h
            have haccept : Stores ref w₁ (w₁.afterAccept w.nextRef plug hdr) [] :=
              stores_of_log afterAccept_log (by simp [Event.stores])
            have hconnect := haccept.trans (hostOps_stores honConnect)
            rw [List.nil_append] at hconnect
            exact hasked.trans hconnect
  · rw [if_neg hlisten] at h ⊢
    simp only [pure_eq_ok, Prod.mk.injEq] at h
    rw [← h.2]
    exact stores_of_log_eq rfl

theorem onPacketReceiveControl_stores {hdr : VirtioVsockHdr}
    (h : onPacketReceiveControl api cb w hdr = .ok w') :
    Stores ref w w' (controlCalls api cb w hdr) := by
  have hreset : ∀ v : World σ P, Stores ref v (queueReset v hdr) [] := fun v =>
    stores_of_log rfl (by simp [Event.stores])
  unfold onPacketReceiveControl at h
  unfold controlCalls
  by_cases hrequest : hdr.op = VirtioVsockOp.request.code
  · rw [if_pos hrequest, bind_eq_ok] at h
    obtain ⟨⟨done, w₁⟩, hprocess, h⟩ := h
    rw [if_pos hrequest]
    have hstores : Stores ref w w₁ _ := processPacketOpRequestLocked_stores hprocess
    rw [pure_eq_ok] at h
    subst h
    cases done with
    | true => exact hstores
    | false =>
        have := hstores.trans (hreset w₁)
        rwa [List.append_nil] at this
  · rw [if_neg hrequest] at h ⊢
    cases hfind : w.mStreams.find? ⟨hdr.srcPort, hdr.dstPort⟩ with
    | none =>
        simp only [hfind] at h
        obtain rfl := Except.ok.inj h
        split
        · exact hreset w
        · exact stores_of_log_eq rfl
    | some s =>
        simp only [hfind] at h ⊢
        have hcounters := @updateGuestCounters_stores _ _ ref w s.ref hdr
        have hrecycle : ∀ op, recycleStreamLocked api cb (updateGuestCounters w s.ref hdr) s.ref op =
            .ok w' → Stores ref w w' (recycleCalls api cb (updateGuestCounters w s.ref hdr) s.ref) := by
          intro op hrec
          have := hcounters.trans (recycleStreamLocked_stores hrec)
          rwa [List.nil_append] at this
        generalize VirtioVsockOp.ofCode hdr.op = named at h ⊢
        split at h
        · simp only [bind_eq_ok, notNull_eq_ok] at h
          obtain ⟨p, hplug, hops⟩ := h
          simp only [hplug]
          have hresponse : Stores ref w ((updateGuestCounters w s.ref hdr).afterResponse s.ref p) [] :=
            stores_of_log afterResponse_log (by simp [Event.stores])
          have := hresponse.trans (hostOps_stores hops)
          rwa [List.nil_append] at this
        · exact hrecycle _ h
        · exact hrecycle _ h
        · obtain rfl := Except.ok.inj h
          exact hcounters
        · obtain rfl := Except.ok.inj h
          exact hcounters.trans (stores_of_log sendOp_log (by simp [Event.stores]))
        · next hresponse _ _ hupdate hcredit =>
          -- every other operation ends the connection
          split
          · exact absurd rfl hresponse
          · exact absurd rfl hupdate
          · exact absurd rfl hcredit
          · exact hrecycle _ h

theorem onPacketReceiveRw_stores {answer : List (HostOp P) × Bool} {r : Ref} {data : List UInt8}
    {eraseStream : Bool} (h : onPacketReceiveRw api answer w r data = .ok (eraseStream, w')) :
    Stores ref w w' (receiveCalls api answer.1 w r data) := by
  simp only [onPacketReceiveRw, bind_eq_ok] at h
  obtain ⟨s, hs, h⟩ := h
  simp only [receiveCalls, hs]
  cases hconn : s.isConnected with
  | false =>
      simp only [hconn, Bool.false_eq_true, if_false, pure_eq_ok, Prod.mk.injEq] at h ⊢
      rw [← h.2]
      exact stores_of_log_eq rfl
  | true =>
      simp only [hconn, if_true, bind_eq_ok, notNull_eq_ok] at h ⊢
      obtain ⟨p, hplug, w₁, hops, h⟩ := h
      simp only [hplug]
      have hsniff : Stores ref w (w.sniff s.dataSniffer (.toPlug · data)) [] := by
        cases s.dataSniffer with
        | none => exact stores_of_log_eq rfl
        | some i => exact stores_of_log rfl (by simp [Event.stores])
      have hhand : Stores ref (w.sniff s.dataSniffer (.toPlug · data))
          ((w.sniff s.dataSniffer (.toPlug · data)).emit (.onReceive r p data)) [] :=
        stores_of_log rfl (by simp [Event.stores])
      have hcalls := (hsniff.trans hhand).trans (hostOps_stores hops)
      rw [List.nil_append, List.nil_append] at hcalls
      cases hanswer : answer.2 with
      | true =>
          simp only [hanswer, if_true, bind_eq_ok, pure_eq_ok, Prod.mk.injEq] at h
          obtain ⟨t, -, -, rfl⟩ := h
          have htaken : Stores ref w₁ ((w₁.addHostFwdCnt r data).sendOp r .creditUpdate) [] :=
            stores_of_log rfl (by simp [Event.stores])
          have := hcalls.trans htaken
          rwa [List.append_nil] at this
      | false =>
          simp only [hanswer, Bool.false_eq_true, if_false, pure_eq_ok, Prod.mk.injEq] at h
          obtain ⟨-, rfl⟩ := h
          have hrefused : Stores ref w₁ (w₁.emit (.refused r p)) [] :=
            stores_of_log rfl (by simp [Event.stores])
          have := hcalls.trans hrefused
          rwa [List.append_nil] at this

theorem receivePieces_stores {r : Ref} :
    ∀ (pieces : List (List UInt8)) (i : Nat) {w w' : World σ P} {eraseStream : Bool},
      receivePieces api cb r i pieces w = .ok (eraseStream, w') →
      Stores ref w w' (pieceCalls api cb r i pieces w)
  | [], i, w, w', _, h => by
      simp only [receivePieces, pure_eq_ok, Prod.mk.injEq] at h
      rw [← h.2]
      exact stores_of_log_eq rfl
  | data :: rest, i, w, w', _, h => by
      simp only [receivePieces, bind_eq_ok] at h
      obtain ⟨⟨refused, w₁⟩, hone, h⟩ := h
      have hfirst : Stores ref w w₁ _ := onPacketReceiveRw_stores hone
      simp only [pieceCalls, hone]
      cases refused with
      | true =>
          simp only [if_true, pure_eq_ok, Prod.mk.injEq] at h
          rw [← h.2, List.append_nil]
          exact hfirst
      | false =>
          simp only [Bool.false_eq_true, if_false] at h
          exact hfirst.trans (receivePieces_stores rest (i + 1) h)

theorem onPacketReceiveRwPacket_stores {hdr : VirtioVsockHdr} {pieces : List (List UInt8)}
    (h : onPacketReceiveRwPacket api cb w hdr pieces = .ok w') :
    Stores ref w w' (packetCalls api cb w hdr pieces) := by
  unfold onPacketReceiveRwPacket onPacketReceiveRwStart at h
  unfold packetCalls onPacketReceiveRwStart
  cases hfind : w.mStreams.find? ⟨hdr.srcPort, hdr.dstPort⟩ with
  | none =>
      simp only [hfind] at h
      obtain rfl := Except.ok.inj h
      exact stores_of_log_eq rfl
  | some s =>
      simp only [hfind, bind_eq_ok] at h ⊢
      obtain ⟨⟨eraseStream, w₁⟩, hpieces, hend⟩ := h
      have hhanded := (updateGuestCounters_stores w s.ref hdr).trans
        (@receivePieces_stores _ _ _ _ ref _ pieces 0 _ _ _ hpieces)
      rw [List.nil_append] at hhanded
      simp only [hpieces]
      cases eraseStream with
      | false =>
          rw [List.append_nil, ← Except.ok.inj hend]
          exact hhanded
      | true => exact hhanded.trans (recycleStreamLocked_stores hend)

/-! ### Runs -/

theorem step_stores {a : Action σ P} (h : step api w a = .ok w') :
    Stores ref w w' (a.calls api w) := by
  cases a with
  | host op => exact hostOp_stores h
  | control hdr cb => exact onPacketReceiveControl_stores h
  | rw hdr pieces cb => exact onPacketReceiveRwPacket_stores h
  | sendPackets => exact sendPacketsAndNotifyLocked_stores h
  | guestRx vq =>
      obtain rfl := Except.ok.inj h
      exact stores_of_log_eq rfl
  | setStatus status =>
      rcases setStatus_cases h with ⟨-, rfl⟩ | ⟨-, rfl, -⟩
      · exact stores_of_log_eq rfl
      · refine stores_of_log rfl fun e he => ?_
        obtain ⟨s, -, he⟩ := List.mem_filterMap.mp he
        obtain ⟨p, -, rfl⟩ := Option.map_eq_some_iff.mp he
        rfl

/-- In a run, what was stored for a stream is what the calls of the host side kept. -/
theorem run_stored : ∀ {acts : List (Action σ P)} {w w' : World σ P},
    run api w acts = .ok w' → Stores ref w w' (runCalls api w acts)
  | [], w, w', h => by
      obtain rfl := Except.ok.inj h
      exact stores_of_log_eq rfl
  | a :: acts, w, w', h => by
      unfold run at h
      rw [List.foldlM_cons, bind_eq_ok] at h
      obtain ⟨w₁, hstep, h⟩ := h
      have hrest : Stores ref w₁ w' (runCalls api w₁ acts) := run_stored h
      simp only [runCalls, hstep]
      exact (step_stores hstep).trans hrest

end Stores

/-! ### Nothing is lost unless it is early -/

/-- With calls that fit, `dev_api` keeps every stream intact. -/
theorem fits_streamIntact_lasting {mode : Mode} : Lasting devApi mode
    (fun (log : List (Event VirtIOVSock P)) s => Fits s.ref log → StreamIntact devApi log s) where
  frame _ _ _ hother h hfits :=
    (h hfits.of_append).quiet rfl rfl rfl (delivered_of_ref_ne hother) (stored_of_ref_ne hother)
  turn log _ s s' hturn h hfits := by
    rw [hturn.ref_eq] at hfits
    refine (h hfits.of_append).turn hturn fun vq hdr data hcall => ?_
    exact devApi_answersExactly data (hfits vq hdr data (List.mem_append_right _ hcall))
  born _ _ _ hnew hborn _ := streamIntact_born hnew hborn

/-- While every call fits, the bytes delivered and those still waiting are all the bytes
passed to `sendAsync` exactly if none of them came before the connection. -/
theorem run_nothingLost_iff {listeners : Finset UInt32} {vq : VirtIOVSock}
    {acts : List (Action VirtIOVSock P)} {w : World VirtIOVSock P}
    (hrun : run devApi (World.realized listeners vq) acts = .ok w) {s : VsockStream P}
    (hs : s ∈ w.mStreams) (hfits : Fits s.ref w.log) :
    delivered devApi s.ref w.log ++ s.hostToGuestBuf.pending =
        asked s.ref (runCalls devApi (World.realized listeners vq) acts) ↔
      ∀ c ∈ runCalls devApi (World.realized listeners vq) acts, ¬ c.Early s.ref := by
  have hlasting : Lasting devApi {} (fun (log : List (Event VirtIOVSock P)) s =>
      Fits s.ref log → StreamIntact devApi log s) := fits_streamIntact_lasting
  have hliving := run_living hlasting (fun log es s hes h hfits => ?_)
    (along_of_forall fun w a => Mode.allows_default w a) living_realized hrun
  · have hintact : StreamIntact devApi w.log s := hliving.each s hs hfits
    have hstored : stored s.ref w.log =
        kept s.ref (runCalls devApi (World.realized listeners vq) acts) := run_stored hrun
    rw [hintact.bytes, hstored]
    exact kept_eq_asked_iff
  · obtain ⟨hdel, hst⟩ := @quiet_of_unplugs _ _ devApi s.ref es hes
    exact (h hfits.of_append).quiet rfl rfl rfl hdel hst

/-- Three bytes are sent to a guest that has accepted the connection: two of them are
delivered and one waits. -/
theorem run_nothingLost_sendThree : ∃ w s,
    run devApi (World.realized ∅ ⟨3, [44, 44, 46]⟩) sendThree = .ok w ∧ s ∈ w.mStreams ∧
      Fits s.ref w.log ∧
      (delivered devApi s.ref w.log ++ s.hostToGuestBuf.pending =
          asked s.ref (runCalls devApi (World.realized ∅ ⟨3, [44, 44, 46]⟩) sendThree) ↔
        ∀ c ∈ runCalls devApi (World.realized ∅ ⟨3, [44, 44, 46]⟩) sendThree,
          ¬ c.Early s.ref) := by
  obtain ⟨w, hrun, hlog, s, hs, href⟩ : ∃ w,
      run devApi (World.realized ∅ ⟨3, [44, 44, 46]⟩) sendThree = .ok w ∧
        w.log = sendThreeLog ∧ ∃ s ∈ w.mStreams, s.ref = 0 :=
    ⟨_, rfl, rfl, _, List.mem_cons_self, rfl⟩
  have hfits : Fits s.ref w.log := by
    rw [hlog, href]
    exact sendThreeLog_fits
  exact ⟨w, s, hrun, hs, hfits, run_nothingLost_iff hrun hs hfits⟩

/-- The same three bytes, sent before the guest accepts. -/
def sendEarly : List (Action VirtIOVSock Unit) :=
  [.host (.connect 1000 ()), .host (.sendAsync 0 [1, 2, 3]),
    .control (guestHeader 1000 2147483649 .response 0 8 0) {}]

/-- Data sent before the guest accepts the connection is not there afterwards. -/
theorem sendEarly_lost : ¬ ∀ (listeners : Finset UInt32) (vq : VirtIOVSock)
    (acts : List (Action VirtIOVSock Unit)) (w : World VirtIOVSock Unit) (s : VsockStream Unit),
    run devApi (World.realized listeners vq) acts = .ok w → s ∈ w.mStreams →
    (∃ key, .created s.ref key .connect ∈ w.log) →
    delivered devApi s.ref w.log ++ s.hostToGuestBuf.pending =
      asked s.ref (runCalls devApi (World.realized listeners vq) acts) := by
  intro h
  obtain ⟨w, hrun, hcreated, s, hs, href, hnone⟩ : ∃ w,
      run devApi (World.realized ∅ ⟨3, [44, 44, 46]⟩) sendEarly = .ok w ∧
        .created 0 ⟨1000, 2147483649⟩ .connect ∈ w.log ∧ ∃ s ∈ w.mStreams, s.ref = 0 ∧
          delivered devApi 0 w.log ++ s.hostToGuestBuf.pending = [] :=
    ⟨_, rfl, List.mem_cons_self, _, List.mem_cons_self, rfl, rfl⟩
  have hall := h ∅ _ sendEarly w s hrun hs ⟨_, href ▸ hcreated⟩
  rw [href, hnone] at hall
  have hasked : asked 0 (runCalls devApi (World.realized ∅ ⟨3, [44, 44, 46]⟩) sendEarly) =
      [1, 2, 3] := rfl
  rw [hasked] at hall
  cases hall

end Goldfish.Vsock
