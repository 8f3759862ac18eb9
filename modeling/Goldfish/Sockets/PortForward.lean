import Goldfish.Lib.Interleaving

/-!
# Goldfish.Sockets.PortForward

The host side of a forwarded port (`HostToGuestConnection` in `vsock_port_fwd.cpp`):
bytes from the host are kept in a buffer until the guest is connected, and passed on
directly from then on.

`receiveHost` runs on the thread of the host socket and `onConnect`, once, on the thread
of the device. A read or write of `mConnected`, an append to the buffer, a lock operation
and a `sendAsync` are atomic steps. `onConnect` looks at the buffer and clears it under
the lock that every append holds, so this belongs to the step of its `sendAsync`.

**Where the order breaks.** `mConnected` is set before the buffer is flushed, and
`receiveHost` reads it first without the lock: between the two it passes bytes on that
came later than those in the buffer (`overtaken`). That is the only way
(`inOrder_iff_undisturbed`), and the buffer is empty in any case when `onConnect` has
returned.
-/

namespace Goldfish.Sockets.PortForward

open Goldfish.Lib

/-- The two threads. -/
inductive Thread where
  | host
  | device
deriving DecidableEq

/-- The connection, with the bytes received from the host and those passed to `sendAsync`. The guest's socket
is there throughout, as it is between `connectToGuest` and the end of the connection. -/
structure HostToGuestConnection where
  mConnected : Bool
  mConnectedMutex : Option Thread
  mPreConnectedBuffer : List UInt8
  received : List UInt8
  sent : List UInt8

/-- What a thread does next. -/
inductive Next where
  /-- Wait for bytes. -/
  | idle
  /-- In `receiveHost`, up to the return. -/
  | readConnected (bytes : List UInt8)
  | lock (bytes : List UInt8)
  | readConnectedLocked (bytes : List UInt8)
  | append (bytes : List UInt8)
  | unlockAndReturn
  | unlockAndSend (bytes : List UInt8)
  | sendAsync (bytes : List UInt8)
  /-- In `onConnect`. -/
  | lockToConnect
  | setConnected
  | flush
  | unlockConnected
  | returned
deriving DecidableEq

/-- A packet of the host, or the next step of a thread. -/
inductive Action where
  | receiveHost (bytes : List UInt8)
  | next
deriving DecidableEq

/-- The thread cannot go on. -/
inductive Blocked where
  | blocked
deriving DecidableEq

/-- One step of a thread, between two accesses to what is shared. -/
def atom (thread : Thread) (c : HostToGuestConnection) :
    Next → Action → Except Blocked (HostToGuestConnection × Next)
  | .idle, .receiveHost bytes => .ok ({ c with received := c.received ++ bytes }, .readConnected bytes)
  | .readConnected bytes, .next => .ok (c, if !c.mConnected then .lock bytes else .sendAsync bytes)
  | .lock bytes, .next =>
    if c.mConnectedMutex = none then
      .ok ({ c with mConnectedMutex := some thread }, .readConnectedLocked bytes)
    else .error .blocked
  | .readConnectedLocked bytes, .next => .ok (c, if !c.mConnected then .append bytes else .unlockAndSend bytes)
  | .append bytes, .next =>
    .ok ({ c with mPreConnectedBuffer := c.mPreConnectedBuffer ++ bytes }, .unlockAndReturn)
  | .unlockAndReturn, .next => .ok ({ c with mConnectedMutex := none }, .idle)
  | .unlockAndSend bytes, .next => .ok ({ c with mConnectedMutex := none }, .sendAsync bytes)
  | .sendAsync bytes, .next => .ok ({ c with sent := c.sent ++ bytes }, .idle)
  | .lockToConnect, .next =>
    if c.mConnectedMutex = none then .ok ({ c with mConnectedMutex := some thread }, .setConnected)
    else .error .blocked
  | .setConnected, .next => .ok ({ c with mConnected := true }, .flush)
  | .flush, .next =>
    if c.mPreConnectedBuffer = [] then .ok (c, .unlockConnected)
    else .ok ({ c with sent := c.sent ++ c.mPreConnectedBuffer, mPreConnectedBuffer := [] }, .unlockConnected)
  | .unlockConnected, .next => .ok ({ c with mConnectedMutex := none }, .returned)
  | _, _ => .error .blocked

/-- The threads and the connection they share. -/
abbrev World := Threads Thread HostToGuestConnection Next

/-- One step of one thread. -/
def World.step (world : World) (act : Thread × Action) : Except Blocked World :=
  Threads.step atom world act

/-- Nothing has been received, and `onConnect` is still to be called. -/
def World.initial : World where
  shared := ⟨false, none, [], [], []⟩
  locals
    | .host => .idle
    | .device => .lockToConnect

/-- A run from the start. -/
def run (acts : List (Thread × Action)) : Except Blocked World := acts.foldlM World.step World.initial

/-! ### The lock -/

/-- The thread is inside its section. -/
def Next.locked : Next → Bool
  | .readConnectedLocked _ | .append _ | .unlockAndReturn | .unlockAndSend _ => true
  | .setConnected | .flush | .unlockConnected => true
  | _ => false

/-- The thread has set `mConnected`. -/
def Next.connected : Next → Bool
  | .flush | .unlockConnected | .returned => true
  | _ => false

/-- The thread has emptied the buffer. -/
def Next.flushed : Next → Bool
  | .unlockConnected | .returned => true
  | _ => false

/-- The two calls. -/
def Next.ofHost : Next → Bool
  | .lockToConnect | .setConnected | .flush | .unlockConnected | .returned => false
  | _ => true

/-- What a thread can rely on. -/
structure Relies (thread : Thread) (c : HostToGuestConnection) (next : Next) : Prop where
  call : next.ofHost = decide (thread = .host)
  lock : next.locked = true → c.mConnectedMutex = some thread
  unset : ∀ bytes, next = .append bytes → c.mConnected = false
  set : thread = .device → c.mConnected = next.connected
  flushed : next.flushed = true → c.mPreConnectedBuffer = []

/-- The locks of an initial world. -/
def Locked : World → Prop := Threads.Holds (fun _ => True) Relies

theorem locked_initial : Locked World.initial := by
  refine ⟨trivial, fun thread => ?_⟩
  cases thread <;> constructor <;> simp [World.initial, Next.ofHost, Next.locked, Next.connected, Next.flushed]

/-- Only the thread that has the lock is in its section. -/
theorem Relies.other_unlocked {thread other : Thread} {c : HostToGuestConnection} {next next' : Next}
    (h : Relies thread c next) (hlocked : next.locked = true) (h' : Relies other c next') (hne : other ≠ thread) :
    next'.locked = false := by
  by_contra hother
  have hlock := (h.lock hlocked).symm.trans (h'.lock (by simpa using hother))
  exact hne (Option.some.inj hlock).symm

/-- The steps, with what is found on the way. -/
inductive Moves (thread : Thread) (c : HostToGuestConnection) :
    Next → Action → HostToGuestConnection → Next → Prop where
  | receive {bytes : List UInt8} :
      Moves thread c .idle (.receiveHost bytes) { c with received := c.received ++ bytes } (.readConnected bytes)
  | readUnset {bytes : List UInt8} (hunset : c.mConnected = false) :
      Moves thread c (.readConnected bytes) .next c (.lock bytes)
  | readSet {bytes : List UInt8} : Moves thread c (.readConnected bytes) .next c (.sendAsync bytes)
  | lock {bytes : List UInt8} (hfree : c.mConnectedMutex = none) :
      Moves thread c (.lock bytes) .next { c with mConnectedMutex := some thread } (.readConnectedLocked bytes)
  | lockedUnset {bytes : List UInt8} (hunset : c.mConnected = false) :
      Moves thread c (.readConnectedLocked bytes) .next c (.append bytes)
  | lockedSet {bytes : List UInt8} : Moves thread c (.readConnectedLocked bytes) .next c (.unlockAndSend bytes)
  | append {bytes : List UInt8} :
      Moves thread c (.append bytes) .next { c with mPreConnectedBuffer := c.mPreConnectedBuffer ++ bytes }
        .unlockAndReturn
  | unlockAndReturn : Moves thread c .unlockAndReturn .next { c with mConnectedMutex := none } .idle
  | unlockAndSend {bytes : List UInt8} :
      Moves thread c (.unlockAndSend bytes) .next { c with mConnectedMutex := none } (.sendAsync bytes)
  | sendAsync {bytes : List UInt8} :
      Moves thread c (.sendAsync bytes) .next { c with sent := c.sent ++ bytes } .idle
  | lockToConnect (hfree : c.mConnectedMutex = none) :
      Moves thread c .lockToConnect .next { c with mConnectedMutex := some thread } .setConnected
  | setConnected : Moves thread c .setConnected .next { c with mConnected := true } .flush
  | flushNothing (hempty : c.mPreConnectedBuffer = []) : Moves thread c .flush .next c .unlockConnected
  | flush : Moves thread c .flush .next
      { c with sent := c.sent ++ c.mPreConnectedBuffer, mPreConnectedBuffer := [] } .unlockConnected
  | unlockConnected : Moves thread c .unlockConnected .next { c with mConnectedMutex := none } .returned

theorem atom_moves {thread : Thread} {c c' : HostToGuestConnection} {next next' : Next} {a : Action}
    (hatom : atom thread c next a = .ok (c', next')) : Moves thread c next a c' next' := by
  unfold atom at hatom
  split at hatom
  case h_2 bytes =>
    cases hatom
    cases hset : c.mConnected with
    | false => exact .readUnset hset
    | true => exact .readSet
  case h_3 bytes =>
    split at hatom
    · cases hatom
      exact .lock ‹_›
    · cases hatom
  case h_4 bytes =>
    cases hatom
    cases hset : c.mConnected with
    | false => exact .lockedUnset hset
    | true => exact .lockedSet
  case h_9 =>
    split at hatom
    · cases hatom
      exact .lockToConnect ‹_›
    · cases hatom
  case h_11 =>
    split at hatom
    · cases hatom
      exact .flushNothing ‹_›
    · cases hatom
      exact .flush
  all_goals cases hatom
  all_goals constructor

/-- What a step changes. -/
theorem atom_changes {thread : Thread} {c c' : HostToGuestConnection} {next next' : Next} {a : Action}
    (hatom : atom thread c next a = .ok (c', next')) :
    (c'.mConnectedMutex = c.mConnectedMutex ∨ c.mConnectedMutex = none ∨ next.locked = true) ∧
      (c'.mConnected = c.mConnected ∨ next = .setConnected) ∧
      (c'.mPreConnectedBuffer = c.mPreConnectedBuffer ∨ c'.mPreConnectedBuffer = [] ∨
        ∃ bytes, next = .append bytes) := by
  cases atom_moves hatom with
  | receive | readUnset | readSet | lockedUnset | lockedSet | sendAsync | flushNothing =>
    exact ⟨.inl rfl, .inl rfl, .inl rfl⟩
  | lock hfree | lockToConnect hfree => exact ⟨.inr (.inl hfree), .inl rfl, .inl rfl⟩
  | unlockAndReturn | unlockAndSend | unlockConnected => exact ⟨.inr (.inr rfl), .inl rfl, .inl rfl⟩
  | append => exact ⟨.inl rfl, .inl rfl, .inr (.inr ⟨_, rfl⟩)⟩
  | setConnected => exact ⟨.inl rfl, .inr rfl, .inl rfl⟩
  | flush => exact ⟨.inl rfl, .inl rfl, .inr (.inl rfl)⟩

/-- A thread can rely on the same behind its own steps. -/
theorem relies_own {thread : Thread} {c c' : HostToGuestConnection} {next next' : Next} {a : Action}
    (h : Relies thread c next) (hatom : atom thread c next a = .ok (c', next')) : Relies thread c' next' := by
  cases atom_moves hatom with
  | receive | readUnset | readSet => exact ⟨h.call, nofun, nofun, h.set, nofun⟩
  | lock => exact ⟨h.call, fun _ => rfl, nofun, h.set, nofun⟩
  | lockedUnset hunset => exact ⟨h.call, h.lock, fun _ _ => hunset, h.set, nofun⟩
  | lockedSet | append => exact ⟨h.call, h.lock, nofun, h.set, nofun⟩
  | unlockAndReturn | unlockAndSend | sendAsync => exact ⟨h.call, nofun, nofun, h.set, nofun⟩
  | lockToConnect => exact ⟨h.call, fun _ => rfl, nofun, h.set, nofun⟩
  | setConnected => exact ⟨h.call, h.lock, nofun, fun _ => rfl, nofun⟩
  | flushNothing hempty => exact ⟨h.call, h.lock, nofun, h.set, fun _ => hempty⟩
  | flush => exact ⟨h.call, h.lock, nofun, h.set, fun _ => rfl⟩
  | unlockConnected => exact ⟨h.call, nofun, nofun, h.set, h.flushed⟩

/-- The other thread does not notice: it is outside its section while the lock changes hands, while
`mConnected` is set and while something is appended. -/
theorem relies_other {thread other : Thread} {c c' : HostToGuestConnection} {next next' l : Next} {a : Action}
    (h : Relies thread c next) (hatom : atom thread c next a = .ok (c', next')) (hne : other ≠ thread)
    (hother : Relies other c l) : Relies other c' l := by
  obtain ⟨hmutex, hconnected, hbuffer⟩ := atom_changes hatom
  refine ⟨hother.call, fun hl => ?_, ?_, ?_, fun hl => ?_⟩
  · have hheld := hother.lock hl
    rcases hmutex with hsame | hfree | hlocked
    · exact hsame.trans hheld
    · simp [hfree] at hheld
    · simp [h.other_unlocked hlocked hother hne] at hl
  · rintro bytes rfl
    rcases hconnected with hsame | rfl
    · exact hsame.trans (hother.unset bytes rfl)
    · exact absurd (h.other_unlocked rfl hother hne) (by simp [Next.locked])
  · rintro rfl
    rcases hconnected with hsame | rfl
    · exact hsame.trans (hother.set rfl)
    · cases thread with
      | host => exact absurd h.call (by simp [Next.ofHost])
      | device => exact absurd rfl hne
  · rcases hbuffer with hsame | hempty | ⟨bytes, rfl⟩
    · exact hsame.trans (hother.flushed hl)
    · exact hempty
    · -- nothing is appended once the buffer was flushed: `mConnected` is set by then
      have hdevice : other = .device := by
        cases other with
        | device => rfl
        | host => cases l <;> simp [Next.flushed] at hl <;> exact absurd hother.call (by simp [Next.ofHost])
      have hset := hother.set hdevice
      rw [h.unset bytes rfl] at hset
      cases l <;> simp [Next.flushed] at hl <;> simp [Next.connected] at hset

theorem locked_of_run {acts : List (Thread × Action)} {world : World} (hrun : run acts = .ok world) :
    Locked world := by
  refine locked_initial.run_all ?_ ?_ hrun
  · intro world i a s l h hatom
    exact ⟨trivial, relies_own (h.locals i) hatom⟩
  · intro world i a s l h hatom j hj hother
    exact relies_other (h.locals i) hatom hj hother

/-! ### The order of the bytes -/

/-- The bytes that a call has received and not passed on. -/
def Next.inHand : Next → List UInt8
  | .readConnected bytes | .lock bytes | .readConnectedLocked bytes => bytes
  | .append bytes | .unlockAndSend bytes | .sendAsync bytes => bytes
  | _ => []

/-- What was sent, what is in the buffer, and the bytes of a call in progress are what was received. -/
def InOrder (world : World) : Prop :=
  world.shared.sent ++ world.shared.mPreConnectedBuffer ++ (world.locals .host).inHand = world.shared.received

/-- The step does not pass bytes on while there are others in the buffer that have to come first. -/
def Undisturbed (world : World) (act : Thread × Action) : Prop :=
  ∀ bytes, act = (.host, .next) → world.locals .host = .sendAsync bytes →
    bytes ++ world.shared.mPreConnectedBuffer = world.shared.mPreConnectedBuffer ++ bytes

theorem device_order {c c' : HostToGuestConnection} {next next' : Next} {a : Action}
    (hdevice : next.ofHost = false) (hatom : atom .device c next a = .ok (c', next')) :
    c'.sent ++ c'.mPreConnectedBuffer = c.sent ++ c.mPreConnectedBuffer ∧ c'.received = c.received := by
  cases atom_moves hatom with
  | lockToConnect | setConnected | flushNothing | unlockConnected => exact ⟨rfl, rfl⟩
  | flush => exact ⟨List.append_nil _, rfl⟩
  | _ => cases hdevice

/-- Of the steps of `receiveHost`, the last one may change the order. -/
theorem host_order {c c' : HostToGuestConnection} {next next' : Next} {a : Action} (hhost : next.ofHost = true)
    (hatom : atom .host c next a = .ok (c', next'))
    (h : c.sent ++ c.mPreConnectedBuffer ++ next.inHand = c.received) :
    c'.sent ++ c'.mPreConnectedBuffer ++ next'.inHand = c'.received ↔ ∀ bytes, a = .next →
      next = .sendAsync bytes → bytes ++ c.mPreConnectedBuffer = c.mPreConnectedBuffer ++ bytes := by
  cases atom_moves hatom with
  | @sendAsync bytes =>
    have hcancel : c.sent ++ bytes ++ c.mPreConnectedBuffer = c.sent ++ c.mPreConnectedBuffer ++ bytes ↔
        bytes ++ c.mPreConnectedBuffer = c.mPreConnectedBuffer ++ bytes := by
      rw [List.append_assoc, List.append_assoc, List.append_right_inj]
    simp only [Next.inHand] at h ⊢
    rw [List.append_nil, ← h, hcancel]
    simp
  | receive =>
    refine iff_of_true ?_ nofun
    rw [← h]
    exact congrArg (· ++ _) (List.append_nil _).symm
  | readUnset | readSet | lock | lockedUnset | lockedSet | unlockAndReturn | unlockAndSend =>
    exact iff_of_true h nofun
  | append =>
    refine iff_of_true ?_ nofun
    rw [← h]
    simp only [Next.inHand, List.append_nil, List.append_assoc]
  | _ => cases hhost

theorem inOrder_step {world world' : World} {act : Thread × Action} (hlocked : Locked world)
    (h : InOrder world) (hstep : world.step act = .ok world') : InOrder world' ↔ Undisturbed world act := by
  obtain ⟨thread, a⟩ := act
  obtain ⟨c', next', hatom, rfl⟩ := Threads.step_eq_ok.mp hstep
  have hcall := (hlocked.locals thread).call
  cases thread with
  | host =>
    have horder := host_order (by simpa using hcall) hatom h
    simpa [InOrder, Undisturbed] using horder
  | device =>
    obtain ⟨horder, hreceived⟩ := device_order (by simpa using hcall) hatom
    refine iff_of_true ?_ (fun bytes hact => by simp at hact)
    simp only [InOrder] at h ⊢
    rw [horder, hreceived, Function.update_of_ne (by simp)]
    exact h

theorem run_concat {acts : List (Thread × Action)} {act : Thread × Action} {world' : World} :
    run (acts ++ [act]) = .ok world' ↔ ∃ world, run acts = .ok world ∧ world.step act = .ok world' := by
  simp [run, List.foldlM_append]

/-- A step that is disturbed is possible. -/
theorem undisturbed_of_blocked {world : World} {act : Thread × Action} {e : Blocked}
    (h : world.step act = .error e) : Undisturbed world act := by
  rintro bytes rfl hnext
  simp [World.step, Threads.step, hnext, atom, Functor.map, Except.map] at h

/-- **The bytes stay in order** throughout a run exactly if no `receiveHost` comes to its `sendAsync` while
the buffer has bytes that are still to be flushed. In every run nothing is in the buffer once `onConnect`
has returned. -/
theorem inOrder_iff_undisturbed (acts : List (Thread × Action)) :
    ((∀ pre, pre <+: acts → ∀ world, run pre = .ok world → InOrder world) ↔
      Hist (fun pre act => ∀ world, run pre = .ok world → Undisturbed world act) acts) ∧
    ∀ world, run acts = .ok world → world.locals .device = .returned →
      world.shared.mPreConnectedBuffer = [] := by
  refine ⟨forall_initial_iff_hist ?_ ?_ acts, ?_⟩
  · rintro world hrun
    obtain rfl := Except.ok.inj hrun
    rfl
  · intro pre act horder
    constructor
    · intro h world hrun
      cases hstep : world.step act with
      | error e => exact undisturbed_of_blocked hstep
      | ok world' =>
        have horder' := h world' (run_concat.mpr ⟨world, hrun, hstep⟩)
        exact (inOrder_step (locked_of_run hrun) (horder world hrun) hstep).mp horder'
    · intro h world' hrun'
      obtain ⟨world, hrun, hstep⟩ := run_concat.mp hrun'
      exact (inOrder_step (locked_of_run hrun) (horder world hrun) hstep).mpr (h world hrun)
  · intro world hrun hreturned
    exact ((locked_of_run hrun).locals .device).flushed (by simp [hreturned, Next.flushed])

/-- One byte is in the buffer when `onConnect` sets `mConnected`; the next one arrives before the flush. -/
def lateByte : List (Thread × Action) :=
  [(.host, .receiveHost [1]), (.host, .next), (.host, .next), (.host, .next), (.host, .next), (.host, .next),
    (.device, .next), (.device, .next),
    (.host, .receiveHost [2]), (.host, .next), (.host, .next),
    (.device, .next), (.device, .next)]

/-- The bytes 1 and 2 are received, and 2 is sent before 1. -/
theorem overtaken : ∃ world, run lateByte = .ok world ∧ world.shared.received = [1, 2] ∧
    world.shared.sent = [2, 1] ∧ world.shared.mPreConnectedBuffer = [] ∧ ¬ InOrder world :=
  ⟨_, rfl, rfl, rfl, rfl, fun h => absurd (List.cons.inj h).1 (by decide)⟩

end Goldfish.Sockets.PortForward
