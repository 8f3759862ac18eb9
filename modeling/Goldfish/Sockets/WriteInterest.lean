import Goldfish.Sockets.AsyncSocket

/-!
# Goldfish.Sockets.WriteInterest

When the looper watches a socket for writing (`AsyncSocket.cpp`, `AsyncWriter.cpp`). On top
of the threads that send and write (`Goldfish.Sockets.AsyncSocket`) there is the interest
of the `FdWatch`. It is set by `AsyncWriter::reset` and by the callback of `wantWrite`,
which runs on the looper some time after `send` has queued its string; it is cleared by a
`run` that has written the buffer to its end, but not by one that finds nothing to write.

`send` is called on other threads than the looper, and `onWrite` comes at any time. A
callback is pending from the moment its string is in the queue. With the looper between two
events and nothing pending, the interest is right (`InterestRight`) exactly if the last
callback found something to write, and no empty string was the last one taken from the
queue (`Needed`).
-/

namespace Goldfish.Sockets

open Goldfish.Lib

/-- The threads, the interest and the callbacks of `wantWrite`. -/
structure Watched (T : Type) where
  world : World T
  /-- The looper watches for writing. -/
  interest : Bool
  /-- The callbacks that the looper has still to run. -/
  outstanding : Nat
  /-- The threads in `send`, behind the queue and in front of `scheduleCallback`. -/
  scheduling : T → Bool

/-- A step of a thread, or of the looper. -/
inductive WatchedAction (T : Type) where
  | thread (t : T) (a : Action)
  /-- `wantWrite`, at the end of `send`. -/
  | wantWrite (t : T)
  /-- The looper runs a callback. -/
  | callback
deriving DecidableEq

/-- A step of a thread sets and clears the interest. -/
def interestAfter (socket : AsyncSocket) (interest : Bool) : Call → Action → Bool
  | .run _, .socketSend (.wrote bytes) =>
    if socket.mAsyncWriter.mPos + bytes < socket.mAsyncWriter.mBufferSize then interest else false
  | .pop, .next =>
    match socket.mWriteQueue with
    | [] => interest
    | front :: _ => if 0 < front.length then true else interest
  | _, _ => interest

/-- A step of a thread puts a string into the queue. -/
def pushes (capacity : Nat) (socket : AsyncSocket) : Call → Action → Bool
  | .send _, .next => socket.mWriteQueue.length < capacity
  | _, _ => false

/-- `send` is for the other threads. -/
def Action.sends : Action → Bool
  | .send _ => true
  | _ => false

section Steps

variable {T : Type} [DecidableEq T] (capacity : Nat) (looper : T)

/-- Nothing is to be sent or watched. -/
def Watched.initial : Watched T := ⟨World.initial, false, 0, fun _ => false⟩

/-- One step. The looper's thread runs the callbacks. -/
def Watched.step (s : Watched T) : WatchedAction T → Except Blocked (Watched T)
  | .thread t a =>
    if s.scheduling t || (t = looper && a.sends) then .error .blocked
    else do
      let world ← Threads.step (atom capacity looper) s.world (t, a)
      let pushed := pushes capacity s.world.shared (s.world.locals t) a
      return { s with
        world
        interest := interestAfter s.world.shared s.interest (s.world.locals t) a
        scheduling := if pushed then Function.update s.scheduling t true else s.scheduling }
  | .wantWrite t =>
    if s.scheduling t then
      .ok { s with outstanding := s.outstanding + 1, scheduling := Function.update s.scheduling t false }
    else .error .blocked
  | .callback =>
    if s.world.locals looper = .idle ∧ 0 < s.outstanding then
      .ok { s with interest := true, outstanding := s.outstanding - 1 }
    else .error .blocked

/-- A run from the start. -/
def Watched.run (acts : List (WatchedAction T)) : Except Blocked (Watched T) :=
  acts.foldlM (Watched.step capacity looper) Watched.initial

end Steps

/-! ### The interest -/

/-- There are unsent bytes, or strings in the queue. -/
def BytesLeft (socket : AsyncSocket) : Prop := socket.rest ≠ [] ∨ socket.mWriteQueue ≠ []

/-- No callback is outstanding. -/
def NonePending {T : Type} (s : Watched T) : Prop := s.outstanding = 0 ∧ ∀ t, s.scheduling t = false

/-- **Interest in writing**: with the looper between two events, and no callback outstanding, it is there
exactly if there is something to write. -/
def InterestRight {T : Type} (looper : T) (s : Watched T) : Prop :=
  s.world.locals looper = .idle → NonePending s → (s.interest = true ↔ BytesLeft s.world.shared)

/-- The last callback finds something to write. And if no callback is outstanding, an empty string is taken
from the queue only if the interest is then as the rest of the queue. -/
def Needed {T : Type} (s : Watched T) : WatchedAction T → Prop
  | .callback => s.outstanding = 1 → (∀ t, s.scheduling t = false) → BytesLeft s.world.shared
  | .thread t _ => s.world.locals t = .pop → NonePending s → ∀ queue, s.world.shared.mWriteQueue = [] :: queue →
      (s.interest = true ↔ queue ≠ [])
  | .wantWrite _ => True

/-! ### What a step does -/

section Moved

variable {T : Type} {capacity : Nat} {looper thread : T} {socket socket' : AsyncSocket} {interest : Bool}
  {call call' : Call} {a : Action}

theorem rest_eq_nil_iff (h : Stream socket) :
    socket.rest = [] ↔ socket.mAsyncWriter.mPos ≥ socket.mAsyncWriter.mBufferSize := by
  rw [AsyncSocket.rest, List.drop_eq_nil_iff, h.size]

/-- The steps of a thread that queue nothing, with the interest then. -/
inductive Moved (socket : AsyncSocket) (interest : Bool) : Call → Bool → AsyncSocket → Call → Prop
  | send (call call' : Call) (sends : List (Bytes × Int)) (hcall : call.writing = false)
      (hcall' : call'.writing = false) :
      Moved socket interest call interest { socket with sends } call'
  | startDone (hrest : socket.rest = []) :
      Moved socket interest .idle interest socket (.subtract 0 .kAsyncCompleted)
  | start (before : Nat) (hrest : socket.rest ≠ []) :
      Moved socket interest .idle interest socket (.run before)
  | more (before bytes : Nat) (hrest : (socket.write before bytes).1.rest ≠ []) :
      Moved socket interest (.run before) interest (socket.write before bytes).1 (.run before)
  | done (before bytes delta : Nat) (hrest : (socket.write before bytes).1.rest = []) :
      Moved socket interest (.run before) false (socket.write before bytes).1
        (.subtract delta .kAsyncCompleted)
  | stop (before delta : Nat) (status : AsyncStatus) (hstatus : status ≠ .kAsyncCompleted) :
      Moved socket interest (.run before) interest socket (.subtract delta status)
  | subtract (delta : Nat) (status : AsyncStatus) (mSendBuffer : Int) :
      Moved socket interest (.subtract delta status) interest { socket with mSendBuffer }
        (if status = .kAsyncCompleted then .canPop else .idle)
  | look : Moved socket interest .canPop interest socket
      (if socket.mWriteQueue = [] then .idle else .pop)
  | pop (front : Bytes) (queue : List Bytes) (hqueue : socket.mWriteQueue = front :: queue) :
      Moved socket interest .pop (if 0 < front.length then true else interest) socket.pop .idle
  | popNone (hqueue : socket.mWriteQueue = []) : Moved socket interest .pop interest socket.pop .idle

/-- A turn of the loop of `run`: the interest is cleared if it is the last one. -/
theorem moved_of_write (hstream : Stream socket) (before bytes : Nat) :
    Moved socket interest (.run before) (interestAfter socket interest (.run before) (.socketSend (.wrote bytes)))
      (socket.write before bytes).1 (socket.write before bytes).2 := by
  have hafter := rest_eq_nil_iff (hstream.write before bytes)
  by_cases hmore : socket.mAsyncWriter.mPos + bytes < socket.mAsyncWriter.mBufferSize
  · have hcall : (socket.write before bytes).2 = .run before := if_pos hmore
    have hinterest : interestAfter socket interest (.run before) (.socketSend (.wrote bytes)) = interest :=
      if_pos hmore
    rw [hcall, hinterest]
    exact .more before bytes (hafter.not.mpr (Nat.not_le_of_lt hmore))
  · have hcall : (socket.write before bytes).2 =
        .subtract (socket.mAsyncWriter.mPos + bytes - before) .kAsyncCompleted := if_neg hmore
    have hinterest : interestAfter socket interest (.run before) (.socketSend (.wrote bytes)) = false :=
      if_neg hmore
    rw [hcall, hinterest]
    exact .done before bytes _ (hafter.mpr (Nat.le_of_not_lt hmore))

theorem moved_of_atom [DecidableEq T] (hstream : Stream socket) (interest : Bool)
    (hatom : atom capacity looper thread socket call a = .ok (socket', call')) :
    (pushes capacity socket call a = true ∧ ∃ buffer, socket' = socket.push capacity buffer ∧ call' = .idle) ∨
      Moved socket interest call (interestAfter socket interest call a) socket' call' := by
  unfold atom at hatom
  split at hatom
  case h_1 buffer =>
    right
    split at hatom
    · cases hatom
      exact .send _ _ _ rfl rfl
    · cases hatom
      exact .send _ _ socket.sends rfl rfl
  case h_2 buffer =>
    cases hatom
    by_cases hroom : socket.mWriteQueue.length < capacity
    · exact .inl ⟨decide_eq_true hroom, buffer, rfl, rfl⟩
    · right
      rw [AsyncSocket.push, if_neg hroom]
      exact .send _ _ _ rfl rfl
  case h_3 =>
    right
    split at hatom
    · cases hatom
    · split at hatom
      · cases hatom
        exact .send _ _ socket.sends rfl rfl
      · split at hatom
        · rename_i hdone
          cases hatom
          exact .startDone ((rest_eq_nil_iff hstream).mpr hdone)
        · rename_i hmore
          cases hatom
          exact .start _ ((rest_eq_nil_iff hstream).not.mpr hmore)
  case h_4 before bytes =>
    right
    split at hatom
    · obtain ⟨rfl, rfl⟩ := Prod.mk.inj (Except.ok.inj hatom)
      exact moved_of_write hstream before bytes
    · cases hatom
  case h_5 before =>
    cases hatom
    exact .inr (.stop before _ _ nofun)
  case h_6 before =>
    cases hatom
    exact .inr (.stop before _ _ nofun)
  case h_7 delta status =>
    cases hatom
    exact .inr (.subtract delta status _)
  case h_8 =>
    cases hatom
    exact .inr .look
  case h_9 =>
    cases hatom
    right
    cases hqueue : socket.mWriteQueue with
    | nil =>
      simp only [interestAfter, hqueue]
      exact .popNone hqueue
    | cons front queue =>
      simp only [interestAfter, hqueue]
      exact .pop front queue hqueue
  case h_10 => cases hatom

end Moved

/-! ### Where the looper is -/

/-- What is left of the buffer, by the place of the looper. -/
def Placed (socket : AsyncSocket) : Call → Prop
  | .run _ => socket.rest ≠ []
  | .subtract _ status => status = .kAsyncCompleted ↔ socket.rest = []
  | .canPop => socket.rest = []
  | .pop => socket.rest = [] ∧ socket.mWriteQueue ≠ []
  | .idle | .send _ => True

/-- The interest, if no callback is outstanding. Within `onWrite` it may be too low for the queue. -/
structure Interested (interest : Bool) (socket : AsyncSocket) (call : Call) : Prop where
  left : interest = true → BytesLeft socket
  unsent : socket.rest ≠ [] → interest = true
  queued : call.writing = false → socket.mWriteQueue ≠ [] → interest = true

section Places

variable {socket socket' : AsyncSocket} {interest interest' : Bool} {call call' : Call}

theorem placed_of_resting (hcall : call.writing = false) : Placed socket call := by
  cases call with
  | idle | send buffer => trivial
  | _ => cases hcall

theorem Placed.mono (h : Placed socket call) (hrest : socket'.rest = socket.rest)
    (hqueue : socket.mWriteQueue ≠ [] → socket'.mWriteQueue ≠ []) : Placed socket' call := by
  cases call with
  | idle | send buffer => trivial
  | pop => exact ⟨hrest.trans h.1, hqueue h.2⟩
  | _ =>
    simp only [Placed, hrest] at h ⊢
    exact h

theorem Placed.moved (h : Placed socket call) (hmoved : Moved socket interest call interest' socket' call') :
    Placed socket' call' := by
  cases hmoved with
  | send _ _ sends hcall hcall' => exact placed_of_resting hcall'
  | startDone hrest => exact iff_of_true rfl hrest
  | start before hrest => exact hrest
  | more before bytes hrest => exact hrest
  | done before bytes delta hrest => exact iff_of_true rfl hrest
  | stop before delta status hstatus => exact iff_of_false hstatus h
  | subtract delta status mSendBuffer =>
    split
    · rename_i hstatus
      exact h.mp hstatus
    · trivial
  | look =>
    split
    · trivial
    · rename_i hqueue
      exact ⟨h, hqueue⟩
  | pop front queue hqueue => trivial
  | popNone hqueue => trivial

theorem interested_iff (hcall : call.writing = false) :
    Interested interest socket call ↔ (interest = true ↔ BytesLeft socket) := by
  constructor
  · intro h
    exact ⟨h.left, fun hleft => hleft.elim h.unsent (h.queued hcall)⟩
  · intro h
    exact ⟨h.mp, fun hrest => h.mpr (.inl hrest), fun _ hqueue => h.mpr (.inr hqueue)⟩

theorem Interested.congr (h : Interested interest socket call) (hrest : socket'.rest = socket.rest)
    (hqueue : socket'.mWriteQueue = socket.mWriteQueue) : Interested interest socket' call := by
  refine ⟨fun hinterest => ?_, fun hne => h.unsent (hrest ▸ hne), fun hcall hne => h.queued hcall (hqueue ▸ hne)⟩
  rw [BytesLeft, hrest, hqueue]
  exact h.left hinterest

/-- Within `onWrite`. -/
theorem Interested.within (h : Interested interest socket call) (hcall : call'.writing = true) :
    Interested interest socket call' :=
  ⟨h.left, h.unsent, fun hresting => by simp [hcall] at hresting⟩

theorem pop_rest {front : Bytes} {queue : List Bytes} (hqueue : socket.mWriteQueue = front :: queue) :
    socket.pop.rest = front ∧ socket.pop.mWriteQueue = queue := by
  simp only [AsyncSocket.pop, hqueue, AsyncSocket.rest, AsyncWriter.reset, List.drop_zero, and_self]

/-- **One step of the looper** keeps the interest as it should be, but for an empty string. -/
theorem Interested.moved (h : Interested interest socket call) (hplaced : Placed socket call)
    (hmoved : Moved socket interest call interest' socket' call')
    (hempty : call = .pop → ∀ queue, socket.mWriteQueue = [] :: queue → (interest = true ↔ queue ≠ [])) :
    Interested interest' socket' call' := by
  cases hmoved with
  | send _ _ sends hcall hcall' =>
    have hinterest := (interested_iff hcall).mp h
    exact (interested_iff hcall').mpr hinterest
  | startDone hrest => exact h.within rfl
  | start before hrest => exact h.within rfl
  | more before bytes hrest =>
    have hinterest : interest = true := h.unsent hplaced
    exact ⟨fun _ => .inl hrest, fun _ => hinterest, nofun⟩
  | done before bytes delta hrest => exact ⟨nofun, fun hne => absurd hrest hne, nofun⟩
  | stop before delta status hstatus => exact h.within rfl
  | subtract delta status mSendBuffer =>
    have hcanPop : Interested interest socket .canPop := h.within rfl
    split
    · exact hcanPop.congr rfl rfl
    · rename_i hstatus
      have hrest : socket.rest ≠ [] := fun hnil => hstatus (hplaced.mpr hnil)
      rw [interested_iff rfl]
      exact iff_of_true (h.unsent hrest) (.inl hrest)
  | look =>
    split
    · rename_i hqueue
      have hnothing : ¬ BytesLeft socket := fun hleft => hleft.elim (fun hne => hne hplaced) fun hne => hne hqueue
      rw [interested_iff rfl]
      exact iff_of_false (fun hinterest => hnothing (h.left hinterest)) hnothing
    · exact h.within rfl
  | pop front queue hqueue =>
    obtain ⟨hrest, hrestQueue⟩ := pop_rest hqueue
    rw [interested_iff rfl, BytesLeft, hrest, hrestQueue]
    cases front with
    | nil =>
      rw [or_iff_right (not_not_intro rfl)]
      exact hempty rfl queue hqueue
    | cons byte bytes => exact iff_of_true (if_pos (Nat.succ_pos _)) (.inl nofun)
  | popNone hqueue => exact absurd hqueue hplaced.2

/-- Another thread than the looper changes neither the interest nor what is left. -/
theorem Moved.other (h : Moved socket interest call interest' socket' call') (hcall : call.writing = false)
    (hcall' : call'.writing = false) :
    interest' = interest ∧ socket'.rest = socket.rest ∧ socket'.mWriteQueue = socket.mWriteQueue := by
  cases h with
  | send _ _ sends _ _ => exact ⟨rfl, rfl, rfl⟩
  | startDone _ | start _ _ => cases hcall'
  | _ => cases hcall

end Places

/-! ### One step -/

/-- What holds of the threads, and, if no callback is outstanding, of the interest. -/
structure WatchInv {T : Type} (looper : T) (s : Watched T) : Prop where
  threads : Threads.Holds Stream (Writes looper) s.world
  placed : Placed s.world.shared (s.world.locals looper)
  interested : NonePending s → Interested s.interest s.world.shared (s.world.locals looper)

section Step

variable {T : Type} [DecidableEq T] {capacity : Nat} {looper : T} {s s' : Watched T} {t : T} {a : Action}

omit [DecidableEq T] in
theorem WatchInv.right (h : WatchInv looper s) : InterestRight looper s := by
  intro hidle hpending
  have hinterested := h.interested hpending
  rw [hidle] at hinterested
  exact (interested_iff rfl).mp hinterested

/-- A step of a thread. -/
structure ThreadStep (capacity : Nat) (looper : T) (s : Watched T) (t : T) (a : Action) (s' : Watched T)
    (socket : AsyncSocket) (call : Call) : Prop where
  atom : atom capacity looper t s.world.shared (s.world.locals t) a = .ok (socket, call)
  world : s'.world = ⟨socket, Function.update s.world.locals t call⟩
  interest : s'.interest = interestAfter s.world.shared s.interest (s.world.locals t) a
  outstanding : s'.outstanding = s.outstanding
  scheduling : s'.scheduling =
    if pushes capacity s.world.shared (s.world.locals t) a then Function.update s.scheduling t true else s.scheduling

theorem threadStep_of_step (h : s.step capacity looper (.thread t a) = .ok s') :
    ∃ socket call, ThreadStep capacity looper s t a s' socket call := by
  rw [Watched.step] at h
  split at h
  · cases h
  · obtain ⟨world, hworld, h⟩ := bind_eq_ok.mp h
    obtain ⟨socket, call, hatom, rfl⟩ := Threads.step_eq_ok.mp hworld
    obtain rfl := Except.ok.inj h
    exact ⟨socket, call, hatom, rfl, rfl, rfl, rfl⟩

/-- A thread adds to what is pending, at most. -/
theorem ThreadStep.pending {socket : AsyncSocket} {call : Call} (h : ThreadStep capacity looper s t a s' socket call)
    (hpending : NonePending s') :
    pushes capacity s.world.shared (s.world.locals t) a = false ∧ NonePending s := by
  obtain ⟨hnone, hscheduling⟩ := hpending
  rw [h.scheduling] at hscheduling
  rw [h.outstanding] at hnone
  split at hscheduling
  · have hself := hscheduling t
    rw [Function.update_self] at hself
    cases hself
  · rename_i hpushes
    exact ⟨eq_false_of_ne_true hpushes, hnone, hscheduling⟩

theorem ThreadStep.not_pending {socket : AsyncSocket} {call : Call}
    (h : ThreadStep capacity looper s t a s' socket call)
    (hpushes : pushes capacity s.world.shared (s.world.locals t) a = true) : ¬ NonePending s' := by
  intro hpending
  have hnot := (h.pending hpending).1
  rw [hpushes] at hnot
  cases hnot

theorem ThreadStep.holds (h : WatchInv looper s) {socket : AsyncSocket} {call : Call}
    (hstep : ThreadStep capacity looper s t a s' socket call) : Threads.Holds Stream (Writes looper) s'.world := by
  rw [hstep.world]
  refine h.threads.step (Threads.step_eq_ok.mpr ⟨socket, call, hstep.atom, rfl⟩) ?_ ?_
  · exact fun socket' call' hatom => atom_own h.threads.shared (h.threads.locals t) hatom
  · exact fun socket' call' hatom j hj hother => atom_other (h.threads.locals t) hatom hj hother

/-- **A step of the looper** keeps the invariant, but for an empty string. -/
theorem WatchInv.looperStep (h : WatchInv looper s) {socket : AsyncSocket} {call : Call}
    (hstep : ThreadStep capacity looper s looper a s' socket call) (hneeded : Needed s (.thread looper a)) :
    WatchInv looper s' := by
  have hshared : s'.world.shared = socket := by rw [hstep.world]
  have hcall : s'.world.locals looper = call := by
    rw [hstep.world]
    exact Function.update_self ..
  refine ⟨hstep.holds h, ?_, fun hnone => ?_⟩
  · rw [hshared, hcall]
    rcases moved_of_atom h.threads.shared s.interest hstep.atom with ⟨-, buffer, -, hidle⟩ | hmoved
    · rw [hidle]
      trivial
    · exact h.placed.moved hmoved
  · rw [hshared, hcall, hstep.interest]
    have hbefore := (hstep.pending hnone).2
    rcases moved_of_atom h.threads.shared s.interest hstep.atom with ⟨hpushes, -⟩ | hmoved
    · exact absurd hnone (hstep.not_pending hpushes)
    · exact (h.interested hbefore).moved h.placed hmoved fun hpop => hneeded hpop hbefore

theorem push_rest (capacity : Nat) (socket : AsyncSocket) (buffer : Bytes) :
    socket.mWriteQueue ≠ [] → (socket.push capacity buffer).mWriteQueue ≠ [] := by
  intro hqueue
  unfold AsyncSocket.push
  split
  · exact fun hnil => hqueue (List.append_eq_nil_iff.mp hnil).1
  · exact hqueue

/-- Another thread leaves what the looper sees, or adds to the queue. -/
theorem WatchInv.otherStep (h : WatchInv looper s) {socket : AsyncSocket} {call : Call}
    (hstep : ThreadStep capacity looper s t a s' socket call) (hother : t ≠ looper) : WatchInv looper s' := by
  have hshared : s'.world.shared = socket := by rw [hstep.world]
  have hcall : s'.world.locals looper = s.world.locals looper := by
    rw [hstep.world]
    exact Function.update_of_ne (Ne.symm hother) ..
  have hresting : (s.world.locals t).writing = false :=
    eq_false_of_ne_true fun hwriting => hother ((h.threads.locals t).other hwriting)
  have hresting' : call.writing = false := eq_false_of_ne_true fun hwriting =>
    hother ((atom_own h.threads.shared (h.threads.locals t) hstep.atom).2.other hwriting)
  rcases moved_of_atom h.threads.shared s.interest hstep.atom with ⟨hpushes, buffer, hpush, -⟩ | hmoved
  · refine ⟨hstep.holds h, ?_, fun hnone => absurd hnone (hstep.not_pending hpushes)⟩
    rw [hshared, hcall, hpush]
    exact h.placed.mono (push_writer capacity s.world.shared buffer).2 (push_rest capacity s.world.shared buffer)
  · obtain ⟨hinterest, hrest, hqueue⟩ := hmoved.other hresting hresting'
    refine ⟨hstep.holds h, ?_, fun hnone => ?_⟩
    · rw [hshared, hcall]
      exact h.placed.mono hrest fun hne => hqueue ▸ hne
    · rw [hshared, hcall, hstep.interest, hinterest]
      exact (h.interested (hstep.pending hnone).2).congr hrest hqueue

theorem callback_eq_ok (h : s.step capacity looper .callback = .ok s') : s.world.locals looper = .idle ∧
    0 < s.outstanding ∧ s' = { s with interest := true, outstanding := s.outstanding - 1 } := by
  rw [Watched.step] at h
  split at h
  · rename_i hready
    exact ⟨hready.1, hready.2, (Except.ok.inj h).symm⟩
  · cases h

theorem WatchInv.callback (h : WatchInv looper s) (hstep : s.step capacity looper .callback = .ok s')
    (hneeded : Needed s .callback) : WatchInv looper s' := by
  obtain ⟨hidle, hsome, rfl⟩ := callback_eq_ok hstep
  refine ⟨h.threads, h.placed, fun ⟨hlast, hscheduling⟩ => ?_⟩
  have hone : s.outstanding - 1 = 0 := hlast
  rw [hidle, interested_iff rfl]
  exact iff_of_true rfl (hneeded (by omega) hscheduling)

theorem WatchInv.wantWrite (h : WatchInv looper s) (hstep : s.step capacity looper (.wantWrite t) = .ok s') :
    WatchInv looper s' := by
  rw [Watched.step] at hstep
  split at hstep
  · obtain rfl := Except.ok.inj hstep
    exact ⟨h.threads, h.placed, fun hnone => absurd hnone.1 (Nat.succ_ne_zero _)⟩
  · cases hstep

/-- A step that is needed, as far as it can be taken. -/
def NeededStep (capacity : Nat) (looper : T) (s : Watched T) (act : WatchedAction T) : Prop :=
  (∃ s', s.step capacity looper act = .ok s') → Needed s act

theorem WatchInv.step (h : WatchInv looper s) {act : WatchedAction T} (hneeded : NeededStep capacity looper s act)
    (hstep : s.step capacity looper act = .ok s') : WatchInv looper s' := by
  have hneeded' := hneeded ⟨s', hstep⟩
  cases act with
  | thread t a =>
    obtain ⟨socket, call, hthread⟩ := threadStep_of_step hstep
    by_cases hlooper : t = looper
    · subst hlooper
      exact h.looperStep hthread hneeded'
    · exact h.otherStep hthread hlooper
  | wantWrite t => exact h.wantWrite hstep
  | callback => exact h.callback hstep hneeded'

/-- A callback that is the last one leaves the interest. -/
theorem needed_of_callback (hstep : s.step capacity looper .callback = .ok s') (hright : InterestRight looper s') :
    Needed s .callback := by
  obtain ⟨hidle, hsome, rfl⟩ := callback_eq_ok hstep
  intro hone hscheduling
  have hnone : s.outstanding - 1 = 0 := by omega
  exact (hright hidle ⟨hnone, hscheduling⟩).mp rfl

/-- An empty string that is taken leaves the interest as it was. -/
theorem needed_of_thread (h : WatchInv looper s) (hstep : s.step capacity looper (.thread t a) = .ok s')
    (hright : InterestRight looper s') : Needed s (.thread t a) := by
  intro hpop hpending queue hqueue
  obtain ⟨socket, call, hthread⟩ := threadStep_of_step hstep
  have hlooper : t = looper := (h.threads.locals t).other (by rw [hpop]; rfl)
  subst hlooper
  have hatom := hthread.atom
  rw [hpop] at hatom
  obtain rfl : a = .next := by
    cases a with
    | next => rfl
    | _ => cases hatom
  obtain ⟨rfl, rfl⟩ := Prod.mk.inj (Except.ok.inj hatom)
  obtain ⟨hrest, hrestQueue⟩ := pop_rest hqueue
  have hidle : s'.world.locals t = .idle := by
    rw [hthread.world]
    exact Function.update_self ..
  have hscheduling : s'.scheduling = s.scheduling := by
    rw [hthread.scheduling, hpop]
    rfl
  have hinterest : s'.interest = s.interest := by
    rw [hthread.interest, hpop]
    simp [interestAfter, hqueue]
  have hpending' : NonePending s' := ⟨hthread.outstanding.trans hpending.1, fun t => hscheduling ▸ hpending.2 t⟩
  have hafter := hright hidle hpending'
  rw [hinterest, hthread.world, BytesLeft, hrest, hrestQueue, or_iff_right (not_not_intro rfl)] at hafter
  exact hafter

/-- **One step**: the exact condition. -/
theorem interest_step_iff (h : WatchInv looper s) (act : WatchedAction T) :
    (∀ s', s.step capacity looper act = .ok s' → InterestRight looper s') ↔ NeededStep capacity looper s act := by
  constructor
  · rintro hright ⟨s', hstep⟩
    cases act with
    | thread t a => exact needed_of_thread h hstep (hright s' hstep)
    | wantWrite t => trivial
    | callback => exact needed_of_callback hstep (hright s' hstep)
  · intro hneeded s' hstep
    exact (h.step hneeded hstep).right

end Step

/-! ### Every interleaving -/

theorem watchInv_initial {T : Type} (looper : T) : WatchInv looper Watched.initial where
  threads := ⟨stream_initial, fun _ => .resting (fun _ => rfl) rfl⟩
  placed := trivial
  interested := fun _ => ⟨nofun, fun hrest => absurd rfl hrest, fun _ hqueue => absurd rfl hqueue⟩

/-- **No idle write interest, exactly if every callback is needed**: in every state that an interleaving
reaches. -/
theorem interest_right_iff {T : Type} [DecidableEq T] (capacity : Nat) (looper : T) (acts : List (WatchedAction T)) :
    (∀ pre, pre <+: acts → ∀ s, Watched.run capacity looper pre = .ok s → InterestRight looper s) ↔
      Along (Watched.step capacity looper) (NeededStep capacity looper) Watched.initial acts := by
  refine (forall_states_iff_along (watchInv_initial looper).right).trans ?_
  refine along_iff_along (I := WatchInv looper) (fun s act h => interest_step_iff h act) ?_ (watchInv_initial looper)
  intro s act s' h hneeded hstep
  exact h.step hneeded hstep

/-- The looper takes the front of the queue. -/
def takes : List (WatchedAction Bool) :=
  [.thread true .onWrite, .thread true .next, .thread true .next, .thread true .next]

/-- The looper writes the byte that is left, and looks at the queue. -/
def writesOne : List (WatchedAction Bool) :=
  [.thread true .onWrite, .thread true (.socketSend (.wrote 1)), .thread true .next, .thread true .next]

/-- A second byte is written before the callback of its `send` is run. -/
def lateCallback : List (WatchedAction Bool) :=
  [.thread false (.send [97]), .thread false .next, .wantWrite false, .callback] ++ takes ++
    [.thread false (.send [98]), .thread false .next] ++ writesOne ++ [.thread true .next] ++ writesOne ++
    [.wantWrite false, .callback]

theorem lateCallback_idle : ∃ s, Watched.run 5 true lateCallback = .ok s ∧ s.outstanding = 0 ∧
    s.interest = true ∧ s.world.shared.unsent = [] ∧ s.world.shared.mWriteQueue = [] ∧ ¬ InterestRight true s := by
  refine ⟨_, rfl, rfl, rfl, rfl, rfl, fun hright => ?_⟩
  have hleft := (hright rfl ⟨rfl, by decide⟩).mp rfl
  exact hleft.elim (fun hrest => hrest rfl) fun hqueue => hqueue rfl

end Goldfish.Sockets
