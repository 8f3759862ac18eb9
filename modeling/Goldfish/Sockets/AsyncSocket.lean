import Goldfish.Lib.Interleaving

/-!
# Goldfish.Sockets.AsyncSocket

The sending side of a socket (`AsyncSocket.cpp`, `AsyncWriter.cpp`). Any thread calls
`send`, which queues a string; the thread of the looper writes it to the socket as
the socket takes it (`onWrite`).

A section under `mWriteQueueLock` is one atomic step, and so are each `socketSend`, the
update of `mSendBuffer` and each look at the queue without the lock. `mBuffer` of the
writer points at the characters of `mWriteBuffer`, so the writer has only the size and
the position. `written()` is the position. `sends` records the calls of `send` with what
they return, in the order in which they come to the queue.

`Stream` is the invariant: what was written, the unsent rest of the buffer and the queue
are the strings that were accepted. What `mSendBuffer` counts beside the unsent bytes is
what the `onWrite` in progress has written and not subtracted yet (`Call.unreported`).
-/

namespace Goldfish.Sockets

open Goldfish.Lib

/-- What is sent over the socket. -/
abbrev Bytes := List UInt8

/-- What one `socketSend` does: it writes some bytes, or fails. -/
inductive SocketSend where
  | wrote (bytes : Nat)
  | again
  | failed
deriving DecidableEq

/-- `AsyncStatus`. -/
inductive AsyncStatus where
  | kAsyncCompleted
  | kAsyncAgain
  | kAsyncError
deriving DecidableEq

/-- `AsyncWriter`, of the buffer at the front of the queue. -/
structure AsyncWriter where
  mBufferSize : Nat
  mPos : Nat

/-- `reset`, for a buffer of this size. -/
def AsyncWriter.reset (bufferSize : Nat) : AsyncWriter := ⟨bufferSize, 0⟩

/-- The socket, and beside it what the kernel got and what `send` was called with. -/
structure AsyncSocket where
  /-- There is an `mFdWatch`. -/
  connected : Bool
  mWriteQueue : List Bytes
  mWriteBuffer : Bytes
  mAsyncWriter : AsyncWriter
  mSendBuffer : Int
  written : Bytes
  sends : List (Bytes × Int)

/-- What a thread is doing, up to its next step. -/
inductive Call where
  | idle
  /-- In `send`, in front of the queue. -/
  | send (buffer : Bytes)
  /-- In the loop of `AsyncWriter::run`, which was entered at this position. -/
  | run (before : Nat)
  /-- In `onWrite` behind the writer, in front of the subtraction. -/
  | subtract (delta : Nat) (status : AsyncStatus)
  | canPop
  | pop
deriving DecidableEq

/-- What a thread does, or what the system answers it. -/
inductive Action where
  | send (buffer : Bytes)
  | onWrite
  | socketSend (result : SocketSend)
  | next
deriving DecidableEq

/-- The thread cannot do this now. -/
inductive Blocked where
  | blocked
deriving DecidableEq

namespace AsyncSocket

/-- The section of `send`; a queue that is full refuses the string. -/
def push (capacity : Nat) (socket : AsyncSocket) (buffer : Bytes) : AsyncSocket :=
  if socket.mWriteQueue.length < capacity then
    { socket with
      mWriteQueue := socket.mWriteQueue ++ [buffer], mSendBuffer := socket.mSendBuffer + buffer.length,
      sends := socket.sends ++ [(buffer, (buffer.length : Int))] }
  else { socket with sends := socket.sends ++ [(buffer, 0)] }

/-- One turn of the loop of `run`. -/
def write (socket : AsyncSocket) (before bytes : Nat) : AsyncSocket × Call :=
  let mPos := socket.mAsyncWriter.mPos
  let mBufferSize := socket.mAsyncWriter.mBufferSize
  ({ socket with
      mAsyncWriter := ⟨mBufferSize, mPos + bytes⟩,
      written := socket.written ++ (socket.mWriteBuffer.drop mPos).take bytes },
    if mPos + bytes < mBufferSize then .run before else .subtract (mPos + bytes - before) .kAsyncCompleted)

/-- The next string becomes the buffer of the writer. -/
def pop (socket : AsyncSocket) : AsyncSocket :=
  match socket.mWriteQueue with
  | [] => socket
  | front :: rest => { socket with
      mWriteQueue := rest, mWriteBuffer := front, mAsyncWriter := AsyncWriter.reset front.length }

end AsyncSocket

section Steps

variable {T : Type} [DecidableEq T] (capacity : Nat) (looper : T)

/-- One locked section, or one call of the system. -/
def atom (thread : T) (socket : AsyncSocket) : Call → Action → Except Blocked (AsyncSocket × Call)
  | .idle, .send buffer =>
    if !socket.connected then .ok ({ socket with sends := socket.sends ++ [(buffer, -1)] }, .idle)
    else .ok (socket, .send buffer)
  | .send buffer, .next => .ok (socket.push capacity buffer, .idle)
  | .idle, .onWrite =>
    if thread ≠ looper then .error .blocked
    else if !socket.connected then .ok (socket, .idle)
    else if socket.mAsyncWriter.mPos ≥ socket.mAsyncWriter.mBufferSize then
      .ok (socket, .subtract 0 .kAsyncCompleted)
    else .ok (socket, .run socket.mAsyncWriter.mPos)
  | .run before, .socketSend (.wrote bytes) =>
    if 0 < bytes ∧ bytes ≤ socket.mAsyncWriter.mBufferSize - socket.mAsyncWriter.mPos then
      .ok (socket.write before bytes)
    else .error .blocked
  | .run before, .socketSend .again =>
    .ok (socket, .subtract (socket.mAsyncWriter.mPos - before) .kAsyncAgain)
  | .run before, .socketSend .failed =>
    .ok (socket, .subtract (socket.mAsyncWriter.mPos - before) .kAsyncError)
  | .subtract delta status, .next =>
    .ok ({ socket with mSendBuffer := socket.mSendBuffer - delta },
      if status = .kAsyncCompleted then .canPop else .idle)
  | .canPop, .next => .ok (socket, if socket.mWriteQueue = [] then .idle else .pop)
  | .pop, .next => .ok (socket.pop, .idle)
  | _, _ => .error .blocked

/-- The threads and the socket they share. -/
abbrev World (T : Type) := Threads T AsyncSocket Call

/-- An open socket on which nothing was sent. -/
def AsyncSocket.initial : AsyncSocket where
  connected := true
  mWriteQueue := []
  mWriteBuffer := []
  mAsyncWriter := AsyncWriter.reset 0
  mSendBuffer := 0
  written := []
  sends := []

/-- A connected socket with nothing to send. -/
def World.initial : World T := ⟨AsyncSocket.initial, fun _ => .idle⟩

/-- What happens on all threads, in some order. -/
def run (acts : List (T × Action)) : Except Blocked (World T) :=
  acts.foldlM (Threads.step (atom capacity looper)) World.initial

end Steps

/-! ### The bytes -/

namespace AsyncSocket

/-- The bytes in the buffer that the writer has not written. -/
def rest (socket : AsyncSocket) : Bytes := socket.mWriteBuffer.drop socket.mAsyncWriter.mPos

/-- The bytes that are still to be written. -/
def unsent (socket : AsyncSocket) : Bytes := socket.rest ++ socket.mWriteQueue.flatten

/-- The buffers of the calls of `send` that return their size. -/
def accepted (socket : AsyncSocket) : List Bytes :=
  (socket.sends.filter fun call => call.2 = call.1.length).map Prod.fst

end AsyncSocket

/-- The thread is in `onWrite`. -/
def Call.writing : Call → Bool
  | .idle | .send _ => false
  | _ => true

/-- Bytes that were written and still count as unsent. -/
def Call.unreported (position : Nat) : Call → Nat
  | .run before => position - before
  | .subtract delta _ => delta
  | _ => 0

/-- No byte is lost, repeated or moved. -/
structure Stream (socket : AsyncSocket) : Prop where
  size : socket.mAsyncWriter.mBufferSize = socket.mWriteBuffer.length
  bytes : socket.written ++ socket.unsent = socket.accepted.flatten

/-- What holds of a thread. Only the looper writes, and where it is in `onWrite` says how far the writer is. -/
structure Writes {T : Type} (looper thread : T) (socket : AsyncSocket) (call : Call) : Prop where
  other : call.writing = true → thread = looper
  run : ∀ before, call = .run before → before ≤ socket.mAsyncWriter.mPos
  completed : call = .canPop ∨ call = .pop ∨ (∃ delta, call = .subtract delta .kAsyncCompleted) →
    socket.rest = []
  counted : thread = looper →
    socket.mSendBuffer = socket.unsent.length + call.unreported socket.mAsyncWriter.mPos

/-! ### One step -/

section Step

variable {T : Type} {capacity : Nat} {looper thread : T} {socket : AsyncSocket}

theorem accepted_refused {buffer : Bytes} {result : Int} {sends : List (Bytes × Int)}
    (h : result = buffer.length → buffer = []) :
    ((((sends ++ [(buffer, result)]).filter fun call => call.2 = call.1.length).map Prod.fst)).flatten =
      ((sends.filter fun call => call.2 = call.1.length).map Prod.fst).flatten := by
  by_cases hresult : result = buffer.length
  · simp [h hresult, hresult]
  · simp [hresult]

theorem stream_initial : Stream AsyncSocket.initial := ⟨rfl, rfl⟩

theorem Stream.push (h : Stream socket) (buffer : Bytes) : Stream (socket.push capacity buffer) := by
  unfold AsyncSocket.push
  split
  · refine ⟨h.size, ?_⟩
    have hbytes := h.bytes
    simp only [AsyncSocket.unsent, AsyncSocket.rest, AsyncSocket.accepted] at hbytes ⊢
    simp [← hbytes]
  · refine ⟨h.size, h.bytes.trans ?_⟩
    exact (accepted_refused fun hzero => List.eq_nil_of_length_eq_zero (by omega)).symm

/-- A string that is queued is counted, one that is refused is not. -/
theorem push_counted (capacity : Nat) (socket : AsyncSocket) (buffer : Bytes) :
    (socket.push capacity buffer).mSendBuffer - (socket.push capacity buffer).unsent.length =
      socket.mSendBuffer - socket.unsent.length := by
  unfold AsyncSocket.push
  split
  · simp only [AsyncSocket.unsent, AsyncSocket.rest, List.flatten_append, List.length_append,
      List.flatten_singleton]
    omega
  · rfl

theorem push_writer (capacity : Nat) (socket : AsyncSocket) (buffer : Bytes) :
    (socket.push capacity buffer).mAsyncWriter = socket.mAsyncWriter ∧
      (socket.push capacity buffer).rest = socket.rest := by
  unfold AsyncSocket.push
  split <;> exact ⟨rfl, rfl⟩

/-- Whoever sends, the looper is where it was. -/
theorem Writes.push {call : Call} (h : Writes looper thread socket call) (buffer : Bytes) :
    Writes looper thread (socket.push capacity buffer) call := by
  obtain ⟨hwriter, hrest⟩ := push_writer capacity socket buffer
  have hcounted := push_counted capacity socket buffer
  refine ⟨h.other, fun before hrun => ?_, fun hcompleted => ?_, fun hlooper => ?_⟩
  · rw [hwriter]
    exact h.run before hrun
  · rw [hrest]
    exact h.completed hcompleted
  · have hbefore := h.counted hlooper
    rw [hwriter]
    omega

theorem Stream.write (h : Stream socket) (before bytes : Nat) : Stream (socket.write before bytes).1 := by
  refine ⟨h.size, Eq.trans ?_ h.bytes⟩
  simp only [AsyncSocket.write, AsyncSocket.unsent, AsyncSocket.rest, ← List.drop_drop, List.append_assoc]
  rw [← List.append_assoc (List.take _ _), List.take_append_drop]

/-- A turn of the loop: the bytes that were written still count as unsent. -/
theorem Writes.write {before : Nat} (h : Writes looper thread socket (.run before)) (hstream : Stream socket)
    {bytes : Nat} (hfits : bytes ≤ socket.mAsyncWriter.mBufferSize - socket.mAsyncWriter.mPos) :
    Writes looper thread (socket.write before bytes).1 (socket.write before bytes).2 := by
  have hbefore := h.run before rfl
  have hsize := hstream.size
  have hrest : socket.rest.length = socket.mAsyncWriter.mBufferSize - socket.mAsyncWriter.mPos := by
    rw [AsyncSocket.rest, List.length_drop, hsize]
  have hunsent : (socket.write before bytes).1.unsent.length + bytes = socket.unsent.length := by
    simp only [AsyncSocket.write, AsyncSocket.unsent, AsyncSocket.rest, List.length_append, List.length_drop,
      ← hsize]
    omega
  have hcounted : thread = looper → socket.mSendBuffer =
      (socket.write before bytes).1.unsent.length + (socket.mAsyncWriter.mPos + bytes - before : Nat) := by
    intro hlooper
    have hcount := h.counted hlooper
    simp only [Call.unreported] at hcount
    omega
  have hlooper : thread = looper := h.other rfl
  by_cases hmore : socket.mAsyncWriter.mPos + bytes < socket.mAsyncWriter.mBufferSize
  · have hnext : (socket.write before bytes).2 = .run before := if_pos hmore
    rw [hnext]
    refine ⟨fun _ => hlooper, fun before' hrun => ?_, fun hcompleted => ?_, hcounted⟩
    · obtain rfl := Call.run.inj hrun
      exact Nat.le_add_right_of_le hbefore
    · rcases hcompleted with hcall | hcall | ⟨delta, hcall⟩ <;> cases hcall
  · have hnext : (socket.write before bytes).2 =
        .subtract (socket.mAsyncWriter.mPos + bytes - before) .kAsyncCompleted := if_neg hmore
    rw [hnext]
    refine ⟨fun _ => hlooper, nofun, fun _ => ?_, hcounted⟩
    refine List.drop_eq_nil_of_le ?_
    show socket.mWriteBuffer.length ≤ socket.mAsyncWriter.mPos + bytes
    omega

theorem Stream.pop (h : Stream socket) (hrest : socket.rest = []) : Stream socket.pop := by
  unfold AsyncSocket.pop
  split
  · exact h
  · rename_i front rest hqueue
    refine ⟨rfl, ?_⟩
    have hdrop : socket.mWriteBuffer.drop socket.mAsyncWriter.mPos = [] := hrest
    have hbytes := h.bytes
    simpa [AsyncSocket.unsent, AsyncSocket.rest, AsyncWriter.reset, AsyncSocket.accepted, hqueue, hdrop] using hbytes

theorem pop_counted (hrest : socket.rest = []) :
    socket.pop.unsent = socket.unsent ∧ socket.pop.mSendBuffer = socket.mSendBuffer := by
  unfold AsyncSocket.pop
  split
  · exact ⟨rfl, rfl⟩
  · rename_i front rest hqueue
    simpa [AsyncSocket.unsent, AsyncSocket.rest, AsyncWriter.reset, hqueue] using hrest

variable {socket' : AsyncSocket} {call call' : Call} {a : Action}

/-- A thread that does nothing, or waits in front of the queue. -/
theorem Writes.resting (h : thread = looper → socket.mSendBuffer = socket.unsent.length)
    (hcall : call.writing = false) : Writes looper thread socket call := by
  cases call with
  | idle =>
    refine ⟨nofun, nofun, fun hcompleted => ?_, fun hlooper => ?_⟩
    · rcases hcompleted with hcall | hcall | ⟨delta, hcall⟩ <;> cases hcall
    · simpa [Call.unreported] using h hlooper
  | send buffer =>
    refine ⟨nofun, nofun, fun hcompleted => ?_, fun hlooper => ?_⟩
    · rcases hcompleted with hcall | hcall | ⟨delta, hcall⟩ <;> cases hcall
    · simpa [Call.unreported] using h hlooper
  | _ => cases hcall

/-- The loop ends with a status; what it has written is in `delta`. -/
theorem Writes.leaveLoop {before : Nat} (h : Writes looper thread socket (.run before)) {status : AsyncStatus}
    (hstatus : status ≠ .kAsyncCompleted) :
    Writes looper thread socket (.subtract (socket.mAsyncWriter.mPos - before) status) := by
  refine ⟨fun _ => h.other rfl, nofun, fun hcompleted => ?_, h.counted⟩
  rcases hcompleted with hcall | hcall | ⟨delta, hcall⟩
  · cases hcall
  · cases hcall
  · exact absurd (Call.subtract.inj hcall).2 hstatus

theorem Writes.subtract {delta : Nat} {status : AsyncStatus}
    (h : Writes looper thread socket (.subtract delta status)) :
    Writes looper thread { socket with mSendBuffer := socket.mSendBuffer - delta }
      (if status = .kAsyncCompleted then .canPop else .idle) := by
  have hcounted : thread = looper → socket.mSendBuffer - delta = socket.unsent.length := by
    intro hlooper
    have hcount := h.counted hlooper
    simp only [Call.unreported] at hcount
    omega
  split
  · rename_i hstatus
    subst hstatus
    refine ⟨fun _ => h.other rfl, nofun, fun _ => h.completed (.inr (.inr ⟨delta, rfl⟩)), fun hlooper => ?_⟩
    exact (hcounted hlooper).trans (Int.add_zero _).symm
  · exact .resting hcounted rfl

theorem atom_own [DecidableEq T] (hstream : Stream socket) (h : Writes looper thread socket call)
    (hatom : atom capacity looper thread socket call a = .ok (socket', call')) :
    Stream socket' ∧ Writes looper thread socket' call' := by
  unfold atom at hatom
  split at hatom
  case h_1 buffer =>
    have hcounted : thread = looper → socket.mSendBuffer = socket.unsent.length := fun hlooper => by
      simpa [Call.unreported] using h.counted hlooper
    split at hatom
    · cases hatom
      refine ⟨⟨hstream.size, hstream.bytes.trans (accepted_refused fun hresult => ?_).symm⟩, ?_⟩
      · omega
      · exact .resting hcounted rfl
    · cases hatom
      exact ⟨hstream, .resting hcounted rfl⟩
  case h_2 buffer =>
    cases hatom
    have hcounted : thread = looper → socket.mSendBuffer = socket.unsent.length := fun hlooper => by
      simpa [Call.unreported] using h.counted hlooper
    have hidle : Writes looper thread socket .idle := .resting hcounted rfl
    exact ⟨hstream.push buffer, hidle.push buffer⟩
  case h_3 =>
    split at hatom
    · cases hatom
    · rename_i hlooper
      have hcounted := h.counted (not_not.mp hlooper)
      split at hatom
      · cases hatom
        exact ⟨hstream, h⟩
      · split at hatom
        · rename_i hdone
          cases hatom
          refine ⟨hstream, fun _ => not_not.mp hlooper, nofun, fun _ => ?_, fun _ => hcounted⟩
          exact List.drop_eq_nil_of_le (hstream.size ▸ hdone)
        · cases hatom
          refine ⟨hstream, fun _ => not_not.mp hlooper, fun before hrun => ?_, fun hcompleted => ?_, fun _ => ?_⟩
          · exact (Call.run.inj hrun) ▸ Nat.le_refl _
          · rcases hcompleted with hcall | hcall | ⟨delta, hcall⟩ <;> cases hcall
          · simpa [Call.unreported] using hcounted
  case h_4 before bytes =>
    split at hatom
    · rename_i hfits
      cases hatom
      exact ⟨hstream.write before bytes, h.write hstream hfits.2⟩
    · cases hatom
  case h_5 before =>
    cases hatom
    exact ⟨hstream, h.leaveLoop nofun⟩
  case h_6 before =>
    cases hatom
    exact ⟨hstream, h.leaveLoop nofun⟩
  case h_7 delta status =>
    cases hatom
    exact ⟨⟨hstream.size, hstream.bytes⟩, h.subtract⟩
  case h_8 =>
    cases hatom
    refine ⟨hstream, ?_⟩
    split
    · exact .resting (fun hlooper => by simpa [Call.unreported] using h.counted hlooper) rfl
    · exact ⟨fun _ => h.other rfl, nofun, fun _ => h.completed (.inl rfl), h.counted⟩
  case h_9 =>
    cases hatom
    have hrest := h.completed (.inr (.inl rfl))
    obtain ⟨hunsent, hsendBuffer⟩ := pop_counted hrest
    refine ⟨hstream.pop hrest, .resting (fun hlooper => ?_) rfl⟩
    rw [hunsent, hsendBuffer]
    simpa [Call.unreported] using h.counted hlooper
  case h_10 => cases hatom

/-- Another thread than the looper only sends. -/
theorem looper_unmoved [DecidableEq T] {l : Call} (h : Writes looper thread socket call)
    (hatom : atom capacity looper thread socket call a = .ok (socket', call')) (hne : looper ≠ thread)
    (hlooper : Writes looper looper socket l) : Writes looper looper socket' l := by
  have hsends : call.writing = false := by
    by_contra hwriting
    exact hne (h.other (by simpa using hwriting)).symm
  unfold atom at hatom
  split at hatom
  case h_1 buffer =>
    split at hatom
    · cases hatom
      exact ⟨hlooper.other, hlooper.run, hlooper.completed, hlooper.counted⟩
    · cases hatom
      exact hlooper
  case h_2 buffer =>
    cases hatom
    exact hlooper.push buffer
  case h_3 =>
    rw [if_pos hne.symm] at hatom
    cases hatom
  case h_10 => cases hatom
  all_goals cases hsends

theorem atom_other [DecidableEq T] {other : T} {l : Call} (h : Writes looper thread socket call)
    (hatom : atom capacity looper thread socket call a = .ok (socket', call')) (hne : other ≠ thread)
    (hother : Writes looper other socket l) : Writes looper other socket' l := by
  by_cases hlooper : other = looper
  · subst hlooper
    exact looper_unmoved h hatom hne hother
  · refine .resting (fun heq => absurd heq hlooper) ?_
    by_contra hwriting
    exact hlooper (hother.other (by simpa using hwriting))

end Step

/-! ### Every interleaving -/

theorem run_stream {T : Type} [DecidableEq T] {capacity : Nat} {looper : T} {acts : List (T × Action)}
    {world : World T} (hrun : run capacity looper acts = .ok world) :
    Threads.Holds Stream (Writes looper) world := by
  have hinitial : Threads.Holds Stream (Writes looper) (World.initial : World T) :=
    ⟨stream_initial, fun _ => .resting (fun _ => rfl) rfl⟩
  refine hinitial.run_all ?_ ?_ hrun
  · intro c i a socket call h hatom
    exact atom_own h.shared (h.locals i) hatom
  · intro c i a socket call h hatom j hj hother
    exact atom_other (h.locals i) hatom hj hother

/-- **The byte stream is intact.** Whatever threads call `send`, and however little the socket takes at a
time: what was written, then the unsent rest of the buffer, then the queue, are the buffers of the calls of
`send` that return their size, in the order in which they were queued. `mSendBuffer` is the number of the
bytes that are not written, but for those that the `onWrite` in progress has written so far; if there is
none, it is exact. -/
theorem stream_intact {T : Type} [DecidableEq T] (capacity : Nat) (looper : T) (acts : List (T × Action))
    (world : World T) (hrun : run capacity looper acts = .ok world) :
    let socket := world.shared
    socket.written ++ socket.mWriteBuffer.drop socket.mAsyncWriter.mPos ++ socket.mWriteQueue.flatten =
        socket.accepted.flatten ∧
      socket.mSendBuffer = (socket.accepted.flatten.length - socket.written.length : Int) +
        (world.locals looper).unreported socket.mAsyncWriter.mPos ∧
      ((∀ t, (world.locals t).writing = false) →
        socket.mSendBuffer = (socket.accepted.flatten.length - socket.written.length : Int)) := by
  have hinv := run_stream hrun
  have hbytes := hinv.shared.bytes
  have hcounted := (hinv.locals looper).counted rfl
  have hunsent : (world.shared.unsent.length : Int) =
      world.shared.accepted.flatten.length - world.shared.written.length := by
    rw [← hbytes, List.length_append]
    omega
  rw [hunsent] at hcounted
  refine ⟨?_, hcounted, fun hidle => ?_⟩
  · rw [List.append_assoc]
    exact hbytes
  · have hnone : (world.locals looper).unreported world.shared.mAsyncWriter.mPos = 0 := by
      have hlooper := hidle looper
      cases hcall : world.locals looper <;> simp [hcall, Call.writing, Call.unreported] at hlooper ⊢
    rw [hcounted, hnone]
    exact Int.add_zero _

/-- Two strings, the second one from another thread; the first is written in two parts. -/
def partialWrites : List (Bool × Action) :=
  [(false, .send [1, 2, 3]), (false, .next), (false, .onWrite), (false, .next), (false, .next), (false, .next),
    (true, .send [4]), (false, .onWrite), (false, .socketSend (.wrote 2)), (true, .next),
    (false, .socketSend .again), (false, .next)]

theorem stream_intact_partialWrites : ∃ world, run 5 false partialWrites = .ok world ∧
    world.shared.written = [1, 2] ∧ world.shared.mSendBuffer = 2 ∧
    world.shared.written ++ world.shared.mWriteBuffer.drop world.shared.mAsyncWriter.mPos ++
      world.shared.mWriteQueue.flatten = world.shared.accepted.flatten :=
  ⟨_, rfl, rfl, rfl, (stream_intact 5 false partialWrites _ rfl).1⟩

end Goldfish.Sockets
