import Goldfish.Lib.NodeList
import Goldfish.Lib.Trace
import Mathlib.Logic.Function.Basic

/-!
# Goldfish.Async.DefaultLooper

**The timers of `DefaultLooper`.** A timer with a deadline stands in `mActiveTimers`,
by deadline; an iteration moves those that have expired to `mPendingTimers` and then
fires them one by one. `mTimers` holds one iterator for each timer, into whichever of
the two lists the timer is in.

* A timer object lives at an address (`objects`); a call on a timer that has been
  deleted is a `Fault`, as is an `erase` with an iterator that is not into that list.
* `Op` is what a client, a task or a callback does with a timer. An iteration is
  carried out in stretches (`proceed`), each up to the next call-out, so that
  whatever runs there may use any timer, but not run the looper again; `Env` is
  what the surroundings answer.
* `armings` and `fired` record each start with a finite deadline, and each callback.
-/

namespace Goldfish.Async

open Goldfish.Lib

/-- `kDurationInfinite`, the largest `int64_t`. -/
def kDurationInfinite : Int := 0x7fffffffffffffff

/-- `INT64_MAX`, as the time not to sleep for. -/
def INT64_MAX : Int := 0x7fffffffffffffff

/-- `Duration` is an `int64_t`. -/
def toDuration (n : Int) : Int := (Int64.ofInt n).toInt

/-- The address of a timer. -/
abbrev TimerId := Nat

/-- `DefaultLooper::Timer`, with the number of the start that its deadline is from. -/
structure Timer where
  mDeadline : Int
  mPending : Bool
  arming : Nat
deriving DecidableEq, Repr

/-- `isActive`. -/
def Timer.isActive (timer : Timer) : Bool := timer.mDeadline ≠ kDurationInfinite

/-- An iterator, as `mTimers` holds it. -/
inductive Position where
  | pendingEnd
  | node (it : Nat)
deriving DecidableEq, Repr

/-- How a call can go wrong. -/
inductive Fault where
  | useAfterFree
  | badIterator
  | dcheck
deriving DecidableEq, Repr

/-- A start of a timer with a finite deadline. -/
structure Arming where
  timer : TimerId
  deadline : Int
deriving DecidableEq, Repr

/-- A callback of a timer: the start it is for, the iteration and the time it came in. -/
structure Firing where
  timer : TimerId
  deadline : Int
  arming : Nat
  iteration : Nat
  time : Int
deriving DecidableEq, Repr

/-- Where the thread of the looper is in `runOneIterationWithDeadlineMs`. -/
inductive Phase where
  | idle
  | tasks (timeOut : Int)
  | firing
  | watches
deriving DecidableEq, Repr

/-- A `DefaultLooper`, with its timers. -/
structure DefaultLooper where
  objects : TimerId → Option Timer
  mTimers : TimerId → Option Position
  mActiveTimers : List (Node TimerId)
  mPendingTimers : List (Node TimerId)
  nextNode : Nat
  nowMs : Int
  phase : Phase
  iteration : Nat
  armings : List Arming
  fired : List Firing

namespace DefaultLooper

/-- A looper without timers. -/
def new (nowMs : Int) : DefaultLooper where
  objects _ := none
  mTimers _ := none
  mActiveTimers := []
  mPendingTimers := []
  nextNode := 0
  nowMs := nowMs
  phase := .idle
  iteration := 0
  armings := []
  fired := []

/-- The object at an address. -/
def deref (L : DefaultLooper) (timer : TimerId) : Except Fault Timer :=
  match L.objects timer with
  | some T => .ok T
  | none => .error .useAfterFree

/-- The object of a timer changes. -/
def setObject (L : DefaultLooper) (timer : TimerId) (T : Timer) : DefaultLooper :=
  { L with objects := Function.update L.objects timer (some T) }

/-- `mTimers[timer] = it`. -/
def setPosition (L : DefaultLooper) (timer : TimerId) (it : Nat) : DefaultLooper :=
  { L with mTimers := Function.update L.mTimers timer (some (.node it)) }

/-! ### The lists -/

/-- `erase(mTimers[timer])` on one of the lists. -/
def eraseAt (L : DefaultLooper) (timer : TimerId) (list : List (Node TimerId)) :
    Except Fault (List (Node TimerId)) :=
  match L.mTimers timer with
  | some (.node it) =>
      match NodeList.erase list it with
      | some list' => .ok list'
      | none => .error .badIterator
  | _ => .error .badIterator

/-- `addTimer`. The map keeps the entry it has. -/
def addTimer (L : DefaultLooper) (timer : TimerId) : DefaultLooper :=
  match L.mTimers timer with
  | some _ => L
  | none => { L with mTimers := Function.update L.mTimers timer (some .pendingEnd) }

/-- `delTimer`. -/
def delTimer (L : DefaultLooper) (timer : TimerId) : DefaultLooper :=
  { L with mTimers := Function.update L.mTimers timer none }

/-- The nodes before, and from, the first timer that expires after the deadline. -/
def findLater (L : DefaultLooper) (deadline : Int) :
    List (Node TimerId) → Except Fault (List (Node TimerId) × List (Node TimerId))
  | [] => .ok ([], [])
  | node :: rest => do
      let T ← L.deref node.val
      if deadline < T.mDeadline then
        .ok ([], node :: rest)
      else
        (fun split => (node :: split.1, split.2)) <$> L.findLater deadline rest

/-- `enableTimer`. -/
def enableTimer (L : DefaultLooper) (timer : TimerId) : Except Fault DefaultLooper := do
  let T ← L.deref timer
  let split ← L.findLater T.mDeadline L.mActiveTimers
  .ok { L.setPosition timer L.nextNode with
    mActiveTimers := split.1 ++ ⟨L.nextNode, timer⟩ :: split.2
    nextNode := L.nextNode + 1 }

/-- `disableTimer`. -/
def disableTimer (L : DefaultLooper) (timer : TimerId) : Except Fault DefaultLooper :=
  (fun list => { L with mActiveTimers := list }) <$> L.eraseAt timer L.mActiveTimers

/-- `addPendingTimer`. -/
def addPendingTimer (L : DefaultLooper) (timer : TimerId) : DefaultLooper :=
  { L.setPosition timer L.nextNode with
    mPendingTimers := L.mPendingTimers ++ [⟨L.nextNode, timer⟩]
    nextNode := L.nextNode + 1 }

/-- `delPendingTimer`. -/
def delPendingTimer (L : DefaultLooper) (timer : TimerId) : Except Fault DefaultLooper :=
  (fun list => { L with mPendingTimers := list }) <$> L.eraseAt timer L.mPendingTimers

/-! ### Timers -/

/-- `createTimer`. -/
def createTimer (L : DefaultLooper) (timer : TimerId) : DefaultLooper :=
  (L.setObject timer ⟨kDurationInfinite, false, 0⟩).addTimer timer

/-- `setPending`. -/
def setPending (L : DefaultLooper) (timer : TimerId) : Except Fault DefaultLooper := do
  let T ← L.deref timer
  .ok ((L.setObject timer { T with mPending := true }).addPendingTimer timer)

/-- `clearPending`. -/
def clearPending (L : DefaultLooper) (timer : TimerId) : Except Fault DefaultLooper := do
  let T ← L.deref timer
  if T.mPending then
    let L ← L.delPendingTimer timer
    .ok (L.setObject timer { T with mPending := false, mDeadline := kDurationInfinite })
  else
    .ok L

/-- The destructor. -/
def destroyTimer (L : DefaultLooper) (timer : TimerId) : Except Fault DefaultLooper := do
  let L ← L.clearPending timer
  let L := L.delTimer timer
  .ok { L with objects := Function.update L.objects timer none }

/-- `mDeadline = deadlineMs`, and a new arming where the deadline is finite. -/
def setDeadline (L : DefaultLooper) (timer : TimerId) (T : Timer) (deadlineMs : Int) : DefaultLooper :=
  if deadlineMs = kDurationInfinite then
    L.setObject timer { T with mDeadline := deadlineMs }
  else
    { L.setObject timer { T with mDeadline := deadlineMs, arming := L.armings.length } with
      armings := L.armings ++ [⟨timer, deadlineMs⟩] }

/-- `startAbsolute`. -/
def startAbsolute (L : DefaultLooper) (timer : TimerId) (deadlineMs : Int) :
    Except Fault DefaultLooper := do
  let T ← L.deref timer
  let L ← if T.mDeadline ≠ kDurationInfinite then L.disableTimer timer else .ok L
  let L := L.setDeadline timer T deadlineMs
  if deadlineMs ≠ kDurationInfinite then L.enableTimer timer else .ok L

/-- `startRelative`. -/
def startRelative (L : DefaultLooper) (timer : TimerId) (deadlineMs : Int) :
    Except Fault DefaultLooper :=
  if deadlineMs ≠ kDurationInfinite then L.startAbsolute timer (toDuration (deadlineMs + L.nowMs))
  else L.startAbsolute timer deadlineMs

/-- `stop`. -/
def stop (L : DefaultLooper) (timer : TimerId) : Except Fault DefaultLooper :=
  L.startAbsolute timer kDurationInfinite

/-- `load`, of the eight bytes that `save` wrote. -/
def load (L : DefaultLooper) (timer : TimerId) (be64 : Nat) : Except Fault DefaultLooper :=
  L.startAbsolute timer (toDuration be64)

/-- What may be done with a timer. -/
inductive Op where
  | create (timer : TimerId)
  | destroy (timer : TimerId)
  | startAbsolute (timer : TimerId) (deadlineMs : Int)
  | startRelative (timer : TimerId) (deadlineMs : Int)
  | stop (timer : TimerId)
  | load (timer : TimerId) (be64 : Nat)
deriving DecidableEq, Repr

/-- What the owner of the looper and of its timers can call. -/
def call (L : DefaultLooper) : Op → Except Fault DefaultLooper
  | .create timer => .ok (L.createTimer timer)
  | .destroy timer => L.destroyTimer timer
  | .startAbsolute timer deadlineMs => L.startAbsolute timer deadlineMs
  | .startRelative timer deadlineMs => L.startRelative timer deadlineMs
  | .stop timer => L.stop timer
  | .load timer be64 => L.load timer be64

/-! ### `runOneIterationWithDeadlineMs` -/

/-- What an iteration is given and finds: its deadline, whether tasks are scheduled, whether there are
watches, what `wait` returns, and how much longer than asked a sleep takes, or how long a wait takes. -/
structure Env where
  deadlineMs : Int
  scheduled : Bool
  watches : Bool
  wait : Int
  elapsed : Nat
deriving DecidableEq, Repr

/-- How long to wait for events: until the first deadline, and not at all where tasks are scheduled. -/
def timeOut (L : DefaultLooper) (deadlineMs : Int) (scheduled : Bool) : Except Fault Int := do
  let nextDeadline ← match L.mActiveTimers with
    | [] => .ok kDurationInfinite
    | first :: _ => Timer.mDeadline <$> L.deref first.val
  let nextDeadline := if deadlineMs < nextDeadline then deadlineMs else nextDeadline
  let timeOut :=
    if nextDeadline < kDurationInfinite then max 0 (toDuration (nextDeadline - L.nowMs)) else INT64_MAX
  .ok (if scheduled then 0 else timeOut)

/-- The expired timers, off the front of the active list and onto the end of the pending one. -/
def queueExpired (kNow : Int) : List (Node TimerId) → DefaultLooper → Except Fault DefaultLooper
  | [], L => .ok L
  | timerIt :: rest, L => do
      let T ← L.deref timerIt.val
      if T.mDeadline ≤ kNow then
        let L ← L.setPending timerIt.val
        queueExpired kNow rest { L with mActiveTimers := rest }
      else
        .ok L

/-- Queue the expired timers. -/
def queuePending (L : DefaultLooper) : Except Fault DefaultLooper :=
  if L.mPendingTimers = [] then
    queueExpired L.nowMs L.mActiveTimers { L with phase := .firing, iteration := L.iteration + 1 }
  else
    .error .dcheck

/-- After the tasks: sleep until the first deadline or wait for events, and queue the expired timers. An
iteration that would sleep forever, or whose wait fails, is over. -/
def waitAndQueue (L : DefaultLooper) (timeOut : Int) (env : Env) : Except Fault DefaultLooper :=
  if env.watches then
    if env.wait < 0 then .ok { L with phase := .idle }
    else queuePending { L with nowMs := L.nowMs + env.elapsed }
  else
    if timeOut = INT64_MAX then .ok { L with phase := .idle }
    else queuePending { L with nowMs := L.nowMs + timeOut + env.elapsed }

/-- Fire the pending timer at the front. What its callback does comes next. -/
def firePending (L : DefaultLooper) (timer : TimerId) : Except Fault DefaultLooper := do
  let T ← L.deref timer
  let L ← L.clearPending timer
  .ok { L with fired := L.fired ++ [⟨timer, T.mDeadline, T.arming, L.iteration, L.nowMs⟩] }

/-- The looper goes on to its next call-out: to the scheduled tasks, to the first callback, to the next
one, to the callbacks of the watches, and back to its caller. -/
def proceed (L : DefaultLooper) (env : Env) : Except Fault DefaultLooper :=
  match L.phase with
  | .idle => (fun t => { L with phase := .tasks t }) <$> L.timeOut env.deadlineMs env.scheduled
  | .tasks timeOut => L.waitAndQueue timeOut env
  | .firing =>
      match L.mPendingTimers with
      | [] => .ok { L with phase := .watches }
      | front :: _ => L.firePending front.val
  | .watches => .ok { L with phase := .idle }

/-! ### Runs -/

/-- A step of a run: a call, some time, or an iteration of the loop. -/
inductive Act where
  | call (op : Op)
  | tick (ms : Nat)
  | proceed (env : Env)
deriving DecidableEq, Repr

/-- One step of a run. -/
def step (L : DefaultLooper) : Act → Except Fault DefaultLooper
  | .call op => L.call op
  | .tick ms => .ok { L with nowMs := L.nowMs + ms }
  | .proceed env => L.proceed env

end DefaultLooper

end Goldfish.Async
