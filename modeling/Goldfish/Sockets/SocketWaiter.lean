import Goldfish.Lib.Trace
import Mathlib.Data.Int.Order.Basic
import Mathlib.Data.Nat.Bitwise

/-!
# Goldfish.Sockets.SocketWaiter

Waiting for sockets with `select` (`SocketWaiter.cpp`). A set of descriptors is a function
to `Bool`; to test or change a bit outside of `0..FD_SETSIZE-1` is a fault. `select`
leaves the descriptors in the sets that are ready (all of them if it fails), so it is
given by what is ready. The timeout, which only `select` looks at, is left out.

After a `wait` the looper calls `nextPendingFd` until it gives -1 (`drain`). A run
also keeps what was requested, what was ready at the last `wait` and what was reported then
(`WaiterRight` says how these agree). The sets follow the updates of valid descriptors; the
maximum does too, unless an update misleads it (`updateMax_right_iff`).
-/

namespace Goldfish.Sockets

open Goldfish.Lib

/-- How many descriptors a set has. -/
def FD_SETSIZE : Nat := 1024

/-- `kEventRead`. -/
def kEventRead : UInt32 := 1

/-- `kEventWrite`. -/
def kEventWrite : UInt32 := 2

/-- How a call can go wrong. -/
inductive SelectFault where
  | outOfBounds
  /-- There is always one more pending descriptor. -/
  | endless
deriving DecidableEq

/-- The descriptors that are in a set. -/
abbrev fd_set := Int → Bool

/-- A descriptor that a set has room for. -/
def isValidFd (fd : Int) : Bool := 0 ≤ fd && fd < FD_SETSIZE

/-- `FD_ISSET`, with its bounds. -/
def FD_ISSET (fd : Int) (set : fd_set) : Except SelectFault Bool :=
  if isValidFd fd then .ok (set fd) else .error .outOfBounds

/-- `FD_SET`, with its bounds. -/
def setFdInSet (fd : Int) (set : fd_set) : Except SelectFault fd_set :=
  if isValidFd fd then .ok (Function.update set fd true) else .error .outOfBounds

/-- `FD_CLR`, with its bounds. -/
def clearFdInSet (fd : Int) (set : fd_set) : Except SelectFault fd_set :=
  if isValidFd fd then .ok (Function.update set fd false) else .error .outOfBounds

/-- What a `select` finds, and what it returns. -/
structure Select where
  reads : fd_set
  writes : fd_set
  ret : Int

/-- `SelectSocketWaiter`. -/
structure SelectSocketWaiter where
  mReads : fd_set
  mWrites : fd_set
  mReadsResult : fd_set
  mWritesResult : fd_set
  mMaxFd : Int
  mMaxFdValid : Bool
  mPendingFd : Int

namespace SelectSocketWaiter

/-- `reset`. -/
def reset : SelectSocketWaiter where
  mReads := fun _ => false
  mWrites := fun _ => false
  mReadsResult := fun _ => false
  mWritesResult := fun _ => false
  mMaxFd := -1
  mMaxFdValid := true
  mPendingFd := 0

end SelectSocketWaiter

/-- The flags of a descriptor in two sets. -/
def flagsOf (read write : Bool) : UInt32 :=
  (if read then kEventRead else 0) ||| (if write then kEventWrite else 0)

/-- The flags that a descriptor has in two sets. -/
def eventsIn (reads writes : fd_set) (fd : Int) : Except SelectFault UInt32 := do
  let read ← FD_ISSET fd reads
  let write ← FD_ISSET fd writes
  return flagsOf read write

namespace SelectSocketWaiter

/-- `wantedEventsFor`. -/
def wantedEventsFor (waiter : SelectSocketWaiter) (fd : Int) : Except SelectFault UInt32 :=
  if !isValidFd fd then .ok 0 else eventsIn waiter.mReads waiter.mWrites fd

/-- `pendingEventsFor`. -/
def pendingEventsFor (waiter : SelectSocketWaiter) (fd : Int) : Except SelectFault UInt32 :=
  if !isValidFd fd then .ok 0 else eventsIn waiter.mReadsResult waiter.mWritesResult fd

/-- A flag that has changed is set or cleared. -/
def updateSet (fd : Int) (changed events flag : UInt32) (set : fd_set) : Except SelectFault fd_set :=
  if changed &&& flag ≠ 0 then
    if events &&& flag ≠ 0 then setFdInSet fd set else clearFdInSet fd set
  else .ok set

/-- The maximum, when the events of a descriptor change. -/
def updateMax (waiter : SelectSocketWaiter) (fd : Int) (oldEvents events : UInt32) : SelectSocketWaiter :=
  if oldEvents = 0 ∧ waiter.mMaxFdValid ∧ fd > waiter.mMaxFd then { waiter with mMaxFd := fd }
  else if events = 0 ∧ waiter.mMaxFdValid ∧ fd = waiter.mMaxFd then { waiter with mMaxFdValid := false }
  else waiter

/-- `update`: the sets that change, and the largest descriptor. -/
def update (waiter : SelectSocketWaiter) (fd : Int) (events : UInt32) : Except SelectFault SelectSocketWaiter := do
  let oldEvents ← waiter.wantedEventsFor fd
  if events = oldEvents then return waiter
  let changed := events ^^^ oldEvents
  let mReads ← updateSet fd changed events kEventRead waiter.mReads
  let mWrites ← updateSet fd changed events kEventWrite waiter.mWrites
  return { waiter with mReads, mWrites }.updateMax fd oldEvents events

/-- The loop of `getFdCount`, up to a descriptor. -/
def maxFdBelow (waiter : SelectSocketWaiter) : Nat → Except SelectFault Int
  | 0 => .ok (-1)
  | fd + 1 => do
    let maxFd ← waiter.maxFdBelow fd
    let read ← FD_ISSET fd waiter.mReads
    let write ← FD_ISSET fd waiter.mWrites
    return if !read && !write then maxFd else fd

/-- The count, and the waiter, which keeps the maximum. -/
def getFdCount (waiter : SelectSocketWaiter) : Except SelectFault (Int × SelectSocketWaiter) :=
  if waiter.mMaxFdValid then .ok (waiter.mMaxFd + 1, waiter)
  else do
    let maxFd ← waiter.maxFdBelow FD_SETSIZE
    return (maxFd + 1, { waiter with mMaxFd := maxFd, mMaxFdValid := true })

/-- `wait`, with what `select` answers. -/
def wait (waiter : SelectSocketWaiter) (select : Select) : Except SelectFault (Int × SelectSocketWaiter) := do
  let (count, waiter) ← waiter.getFdCount
  if count ≤ 0 then return (0, { waiter with mPendingFd := 0 })
  return (select.ret, { waiter with
    mPendingFd := 0
    mReadsResult := fun fd => waiter.mReads fd && select.reads fd
    mWritesResult := fun fd => waiter.mWrites fd && select.writes fd })

/-- The loop of `nextPendingFd`, which has this many turns left. -/
def scan (waiter : SelectSocketWaiter) : Nat → Int → Except SelectFault (Option (Int × UInt32))
  | 0, _ => .ok none
  | turns + 1, fd => do
    let fd := fd + 1
    let events ← eventsIn waiter.mReadsResult waiter.mWritesResult fd
    if events ≠ 0 then return some (fd, events) else waiter.scan turns fd

/-- The descriptor, its events and the waiter. -/
def nextPendingFd (waiter : SelectSocketWaiter) : Except SelectFault ((Int × UInt32) × SelectSocketWaiter) := do
  let (count, waiter) ← waiter.getFdCount
  match ← waiter.scan (count - waiter.mPendingFd).toNat waiter.mPendingFd with
  | some (fd, fdEvents) => return ((fd, fdEvents), { waiter with mPendingFd := fd })
  | none => return ((-1, 0), waiter)

/-- Calls `nextPendingFd` until it gives -1. -/
def drain : Nat → SelectSocketWaiter → Except SelectFault (List (Int × UInt32) × SelectSocketWaiter)
  | 0, _ => .error .endless
  | fuel + 1, waiter => do
    let ((fd, fdEvents), waiter) ← waiter.nextPendingFd
    if fd < 0 then return ([], waiter)
    let (rest, waiter) ← drain fuel waiter
    return ((fd, fdEvents) :: rest, waiter)

end SelectSocketWaiter

/-! ### Runs -/

/-- What the owner of a waiter calls. -/
inductive WaiterCall where
  | reset
  | update (fd : Int) (events : UInt32)
  | hasFds
  /-- A `wait`, and `nextPendingFd` until it gives -1. -/
  | wait (select : Select)

/-- The events that are requested for a descriptor and ready. -/
def readyEvents (requested : Int → UInt32) (select : Select) (fd : Int) : UInt32 :=
  flagsOf (requested fd &&& kEventRead ≠ 0 && select.reads fd) (requested fd &&& kEventWrite ≠ 0 && select.writes fd)

/-- The descriptors from `first` on that have events, with these. -/
def listed (events : Int → UInt32) (first count : Nat) : List (Int × UInt32) :=
  (List.range' first count).filterMap fun (fd : Nat) => if events fd ≠ 0 then some ((fd : Int), events fd) else none

/-- A waiter beside what was asked of it. -/
structure WaiterWorld where
  waiter : SelectSocketWaiter
  /-- The events that each descriptor was updated with last. -/
  requested : Int → UInt32
  /-- What was ready at the last `wait`. -/
  ready : List (Int × UInt32)
  /-- What `nextPendingFd` gave then. -/
  reported : List (Int × UInt32)

/-- A new waiter. -/
def WaiterWorld.initial : WaiterWorld := ⟨SelectSocketWaiter.reset, fun _ => 0, [], []⟩

/-- One call. -/
def WaiterWorld.step (world : WaiterWorld) : WaiterCall → Except SelectFault WaiterWorld
  | .reset => .ok .initial
  | .update fd events => do
    let waiter ← world.waiter.update fd events
    return { world with waiter, requested := Function.update world.requested fd events }
  | .hasFds => do
    let (_, waiter) ← world.waiter.getFdCount
    return { world with waiter }
  | .wait select => do
    let (_, waiter) ← world.waiter.wait select
    let (reported, waiter) ← SelectSocketWaiter.drain (FD_SETSIZE + 1) waiter
    return { world with waiter, ready := listed (readyEvents world.requested select) 0 FD_SETSIZE, reported }

/-- A run from a new waiter. -/
def WaiterWorld.run (calls : List WaiterCall) : Except SelectFault WaiterWorld :=
  calls.foldlM WaiterWorld.step .initial

/-- A descriptor that can be waited for, and is. -/
def Wanted (requested : Int → UInt32) (fd : Int) : Prop :=
  isValidFd fd = true ∧ requested fd &&& (kEventRead ||| kEventWrite) ≠ 0

/-- The largest descriptor that is wanted, or -1. -/
structure Largest (requested : Int → UInt32) (maxFd : Int) : Prop where
  bound : ∀ fd, Wanted requested fd → fd ≤ maxFd
  attained : maxFd = -1 ∨ Wanted requested maxFd

/-- The sets hold the requested events of the valid descriptors. -/
structure SetsRight (waiter : SelectSocketWaiter) (requested : Int → UInt32) : Prop where
  reads : ∀ fd, waiter.mReads fd = true ↔ isValidFd fd = true ∧ requested fd &&& kEventRead ≠ 0
  writes : ∀ fd, waiter.mWrites fd = true ↔ isValidFd fd = true ∧ requested fd &&& kEventWrite ≠ 0

/-- The sets, the count and what was reported are right. -/
structure WaiterRight (world : WaiterWorld) : Prop where
  sets : SetsRight world.waiter world.requested
  count : ∃ maxFd waiter, world.waiter.getFdCount = .ok (maxFd + 1, waiter) ∧ Largest world.requested maxFd
  reported : world.reported = world.ready

/-! ### Flags -/

theorem flag_iff {events flag : UInt32} {k : Nat} (hflag : flag.toNat = 2 ^ k) :
    events &&& flag ≠ 0 ↔ events.toNat.testBit k = true := by
  rw [Ne, ← UInt32.toNat_inj, UInt32.toNat_and, hflag, Nat.and_two_pow]
  cases events.toNat.testBit k <;> simp

theorem read_iff {events : UInt32} : events &&& kEventRead ≠ 0 ↔ events.toNat.testBit 0 = true :=
  flag_iff (k := 0) rfl

theorem write_iff {events : UInt32} : events &&& kEventWrite ≠ 0 ↔ events.toNat.testBit 1 = true :=
  flag_iff (k := 1) rfl

theorem flags_iff {events : UInt32} : events &&& (kEventRead ||| kEventWrite) ≠ 0 ↔
    events &&& kEventRead ≠ 0 ∨ events &&& kEventWrite ≠ 0 := by
  have hdistrib : events &&& (kEventRead ||| kEventWrite) = (events &&& kEventRead) ||| (events &&& kEventWrite) :=
    UInt32.toNat_inj.mp (by
      simp only [UInt32.toNat_and, UInt32.toNat_or, Nat.and_or_distrib_left])
  rw [hdistrib, Ne, UInt32.or_eq_zero_iff, not_and_or]

theorem flagsOf_eq_zero {read write : Bool} : flagsOf read write = 0 ↔ read = false ∧ write = false := by
  cases read <;> cases write <;> decide

theorem flagsOf_read {read write : Bool} : flagsOf read write &&& kEventRead ≠ 0 ↔ read = true := by
  cases read <;> cases write <;> decide

theorem flagsOf_write {read write : Bool} : flagsOf read write &&& kEventWrite ≠ 0 ↔ write = true := by
  cases read <;> cases write <;> decide

/-- A flag has changed if one of the two has it. -/
theorem changed_iff {events oldEvents flag : UInt32} {k : Nat} (hflag : flag.toNat = 2 ^ k) :
    (events ^^^ oldEvents) &&& flag ≠ 0 ↔ ¬ (events &&& flag ≠ 0 ↔ oldEvents &&& flag ≠ 0) := by
  rw [flag_iff hflag, flag_iff hflag, flag_iff hflag, UInt32.toNat_xor, Nat.testBit_xor]
  cases events.toNat.testBit k <;> cases oldEvents.toNat.testBit k <;> decide

/-! ### Sets -/

section Update

variable {fd : Int} {events oldEvents flag : UInt32} {k : Nat} {set : fd_set}

theorem isSet_of_valid (hvalid : isValidFd fd = true) : FD_ISSET fd set = .ok (set fd) := if_pos hvalid

theorem eventsIn_of_valid {reads writes : fd_set} (hvalid : isValidFd fd = true) :
    eventsIn reads writes fd = .ok (flagsOf (reads fd) (writes fd)) := by
  rw [eventsIn, isSet_of_valid hvalid, isSet_of_valid hvalid, ok_bind, ok_bind]
  rfl

theorem eventsIn_eq_ok {reads writes : fd_set} (h : eventsIn reads writes fd = .ok events) :
    isValidFd fd = true ∧ events = flagsOf (reads fd) (writes fd) := by
  cases hvalid : isValidFd fd with
  | false => simp [eventsIn, FD_ISSET, hvalid] at h
  | true =>
    rw [eventsIn_of_valid hvalid] at h
    exact ⟨rfl, (Except.ok.inj h).symm⟩

/-- The bit of a valid descriptor is what the flag says. -/
theorem updateSet_of_valid (hvalid : isValidFd fd = true) (hflag : flag.toNat = 2 ^ k)
    (hold : oldEvents &&& flag ≠ 0 ↔ set fd = true) :
    SelectSocketWaiter.updateSet fd (events ^^^ oldEvents) events flag set =
      .ok (Function.update set fd (events &&& flag ≠ 0)) := by
  unfold SelectSocketWaiter.updateSet
  split
  · split
    · rename_i hset
      rw [setFdInSet, if_pos hvalid, decide_eq_true hset]
    · rename_i hclear
      rw [clearFdInSet, if_pos hvalid, decide_eq_false hclear]
  · rename_i hsame
    rw [changed_iff hflag, not_not, hold] at hsame
    have hbit : decide (events &&& flag ≠ 0) = set fd := by
      rw [Bool.eq_iff_iff, decide_eq_true_eq]
      exact hsame
    rw [hbit, Function.update_eq_self]

/-- The bit of another descriptor is out of reach. -/
theorem updateSet_of_invalid (hvalid : isValidFd fd = false) :
    SelectSocketWaiter.updateSet fd events events flag set =
      if events &&& flag ≠ 0 then .error .outOfBounds else .ok set := by
  unfold SelectSocketWaiter.updateSet
  split <;> simp [setFdInSet, hvalid]

end Update

section Sets

variable {waiter : SelectSocketWaiter} {requested : Int → UInt32} {fd : Int} {events oldEvents : UInt32}

theorem SetsRight.wanted_iff (h : SetsRight waiter requested) (fd : Int) :
    Wanted requested fd ↔ waiter.mReads fd = true ∨ waiter.mWrites fd = true := by
  rw [Wanted, flags_iff, h.reads, h.writes, and_or_left]

/-- The old events of a descriptor. -/
def oldEventsOf (waiter : SelectSocketWaiter) (fd : Int) : UInt32 :=
  if isValidFd fd then flagsOf (waiter.mReads fd) (waiter.mWrites fd) else 0

theorem wantedEventsFor_eq : waiter.wantedEventsFor fd = .ok (oldEventsOf waiter fd) := by
  unfold SelectSocketWaiter.wantedEventsFor oldEventsOf
  cases hvalid : isValidFd fd with
  | true => exact eventsIn_of_valid hvalid
  | false => rfl

theorem SetsRight.oldEvents_iff (h : SetsRight waiter requested) (fd : Int) :
    oldEventsOf waiter fd = 0 ↔ ¬ Wanted requested fd := by
  unfold oldEventsOf
  cases hvalid : isValidFd fd with
  | true => simp [h.wanted_iff, flagsOf_eq_zero]
  | false => simp [Wanted, hvalid]

/-- The waiter with the flags of a descriptor. -/
def SelectSocketWaiter.withEvents (waiter : SelectSocketWaiter) (fd : Int) (events : UInt32) : SelectSocketWaiter :=
  { waiter with
    mReads := Function.update waiter.mReads fd (events &&& kEventRead ≠ 0)
    mWrites := Function.update waiter.mWrites fd (events &&& kEventWrite ≠ 0) }

theorem update_of_valid (hvalid : isValidFd fd = true) : waiter.update fd events =
    if events = oldEventsOf waiter fd then .ok waiter
    else .ok ((waiter.withEvents fd events).updateMax fd (oldEventsOf waiter fd) events) := by
  have hold : oldEventsOf waiter fd = flagsOf (waiter.mReads fd) (waiter.mWrites fd) := if_pos hvalid
  rw [SelectSocketWaiter.update, wantedEventsFor_eq, ok_bind]
  split
  · rfl
  · have hread : oldEventsOf waiter fd &&& kEventRead ≠ 0 ↔ waiter.mReads fd = true := hold ▸ flagsOf_read
    have hwrite : oldEventsOf waiter fd &&& kEventWrite ≠ 0 ↔ waiter.mWrites fd = true := hold ▸ flagsOf_write
    simp only [updateSet_of_valid (k := 0) hvalid rfl hread, updateSet_of_valid (k := 1) hvalid rfl hwrite, ok_bind]
    rfl

theorem update_of_invalid (hvalid : isValidFd fd = false) : waiter.update fd events =
    if events = 0 then .ok waiter
    else if events &&& (kEventRead ||| kEventWrite) ≠ 0 then .error .outOfBounds
    else .ok (waiter.updateMax fd 0 events) := by
  have hold : oldEventsOf waiter fd = 0 := if_neg (by simp [hvalid])
  rw [SelectSocketWaiter.update, wantedEventsFor_eq, hold, ok_bind]
  split
  · rfl
  · simp only [UInt32.xor_zero, updateSet_of_invalid hvalid, flags_iff]
    by_cases hread : events &&& kEventRead ≠ 0
    · simp [hread]
    · by_cases hwrite : events &&& kEventWrite ≠ 0
      · simp [hread, hwrite]
      · simp [hread, hwrite]

theorem updateMax_sets (waiter : SelectSocketWaiter) (fd : Int) (oldEvents events : UInt32) :
    (waiter.updateMax fd oldEvents events).mReads = waiter.mReads ∧
    (waiter.updateMax fd oldEvents events).mWrites = waiter.mWrites := by
  unfold SelectSocketWaiter.updateMax
  split
  · exact ⟨rfl, rfl⟩
  · split <;> exact ⟨rfl, rfl⟩

theorem SetsRight.updateMax (h : SetsRight waiter requested) :
    SetsRight (waiter.updateMax fd oldEvents events) requested := by
  obtain ⟨hreads, hwrites⟩ := updateMax_sets waiter fd oldEvents events
  refine ⟨?_, ?_⟩
  · rw [hreads]
    exact h.reads
  · rw [hwrites]
    exact h.writes

theorem SetsRight.withEvents (h : SetsRight waiter requested) (hvalid : isValidFd fd = true) (events : UInt32) :
    SetsRight (waiter.withEvents fd events) (Function.update requested fd events) := by
  refine ⟨fun fd' => ?_, fun fd' => ?_⟩
  · by_cases hfd : fd' = fd
    · subst hfd
      simp [SelectSocketWaiter.withEvents, hvalid]
    · simpa [SelectSocketWaiter.withEvents, hfd] using h.reads fd'
  · by_cases hfd : fd' = fd
    · subst hfd
      simp [SelectSocketWaiter.withEvents, hvalid]
    · simpa [SelectSocketWaiter.withEvents, hfd] using h.writes fd'

/-- Nothing is wanted of a descriptor that is not valid. -/
theorem SetsRight.invalid (h : SetsRight waiter requested) (hvalid : isValidFd fd = false) :
    SetsRight waiter (Function.update requested fd events) := by
  refine ⟨fun fd' => ?_, fun fd' => ?_⟩
  · by_cases hfd : fd' = fd
    · subst hfd
      simp [h.reads, hvalid]
    · simpa [hfd] using h.reads fd'
  · by_cases hfd : fd' = fd
    · subst hfd
      simp [h.writes, hvalid]
    · simpa [hfd] using h.writes fd'

/-- The events are the old ones. -/
theorem SetsRight.unchanged (h : SetsRight waiter requested) (hsame : events = oldEventsOf waiter fd) :
    SetsRight waiter (Function.update requested fd events) := by
  cases hvalid : isValidFd fd with
  | false => exact h.invalid hvalid
  | true =>
    have hwith := h.withEvents hvalid events
    have hevents : events = flagsOf (waiter.mReads fd) (waiter.mWrites fd) := by
      rw [hsame, oldEventsOf, if_pos hvalid]
    have hread : decide (events &&& kEventRead ≠ 0) = waiter.mReads fd := by
      rw [Bool.eq_iff_iff, decide_eq_true_eq, hevents]
      exact flagsOf_read
    have hwrite : decide (events &&& kEventWrite ≠ 0) = waiter.mWrites fd := by
      rw [Bool.eq_iff_iff, decide_eq_true_eq, hevents]
      exact flagsOf_write
    rwa [SelectSocketWaiter.withEvents, hread, hwrite, Function.update_eq_self, Function.update_eq_self] at hwith

end Sets

/-! ### The maximum -/

section Max

variable {waiter : SelectSocketWaiter} {requested : Int → UInt32} {fd : Int} {events oldEvents : UInt32}

/-- The maximum that is kept is the largest wanted descriptor. -/
def MaxRight (waiter : SelectSocketWaiter) (requested : Int → UInt32) : Prop :=
  waiter.mMaxFdValid = true → Largest requested waiter.mMaxFd

theorem wanted_nonneg (h : Wanted requested fd) : 0 ≤ fd ∧ fd < FD_SETSIZE := by
  simpa [isValidFd] using h.1

theorem wanted_update_self : Wanted (Function.update requested fd events) fd ↔
    isValidFd fd = true ∧ events &&& (kEventRead ||| kEventWrite) ≠ 0 := by
  rw [Wanted, Function.update_self]

theorem wanted_update_of_ne {other : Int} (hne : other ≠ fd) :
    Wanted (Function.update requested fd events) other ↔ Wanted requested other := by
  rw [Wanted, Wanted, Function.update_of_ne hne]

theorem Largest.unique {maxFd maxFd' : Int} (h : Largest requested maxFd) (h' : Largest requested maxFd') :
    maxFd = maxFd' := by
  rcases h.attained with rfl | hwanted
  · rcases h'.attained with rfl | hwanted'
    · rfl
    · have hbound := h.bound _ hwanted'
      have hnonneg := wanted_nonneg hwanted'
      omega
  · rcases h'.attained with rfl | hwanted'
    · have hbound := h'.bound _ hwanted
      have hnonneg := wanted_nonneg hwanted
      omega
    · exact le_antisymm (h'.bound _ hwanted) (h.bound _ hwanted')

theorem Largest.of_sets {requested' : Int → UInt32} (h : Largest requested fd) (hsets : SetsRight waiter requested)
    (hsets' : SetsRight waiter requested') : Largest requested' fd := by
  have hwanted (other : Int) : Wanted requested' other ↔ Wanted requested other :=
    (hsets'.wanted_iff other).trans (hsets.wanted_iff other).symm
  exact ⟨fun other hother => h.bound other ((hwanted other).mp hother), h.attained.imp_right (hwanted fd).mpr⟩

/-- The loop finds the largest descriptor. -/
theorem maxFdBelow_spec (hsets : SetsRight waiter requested) {n : Nat} (hn : n ≤ FD_SETSIZE) :
    ∃ maxFd, waiter.maxFdBelow n = .ok maxFd ∧ (∀ fd, Wanted requested fd → fd < n → fd ≤ maxFd) ∧
      (maxFd = -1 ∨ Wanted requested maxFd) := by
  induction n with
  | zero =>
    refine ⟨-1, rfl, fun fd hwanted hlt => ?_, .inl rfl⟩
    have hnonneg := wanted_nonneg hwanted
    omega
  | succ n ih =>
    obtain ⟨maxFd, hbelow, hbound, hattained⟩ := ih (Nat.le_of_succ_le hn)
    have hvalid : isValidFd n = true := by simp only [isValidFd, Bool.and_eq_true, decide_eq_true_eq]; omega
    have hstep : waiter.maxFdBelow (n + 1) =
        .ok (if !waiter.mReads n && !waiter.mWrites n then maxFd else (n : Int)) := by
      rw [SelectSocketWaiter.maxFdBelow, hbelow, ok_bind, isSet_of_valid hvalid, isSet_of_valid hvalid, ok_bind,
        ok_bind]
      rfl
    have hwanted := hsets.wanted_iff n
    refine ⟨_, hstep, ?_⟩
    split
    · rename_i hnone
      have hnot : ¬ Wanted requested n := by
        rw [hwanted]
        simpa using hnone
      refine ⟨fun fd hfd hlt => ?_, hattained⟩
      have hne : fd ≠ n := by
        rintro rfl
        exact hnot hfd
      exact hbound fd hfd (by omega)
    · rename_i hsome
      have hthis : Wanted requested n := by
        rw [hwanted]
        simp only [Bool.and_eq_true, Bool.not_eq_true', not_and_or, Bool.not_eq_false] at hsome
        exact hsome
      exact ⟨fun fd hfd hlt => by omega, .inr hthis⟩

/-- The count is one more than a maximum, which is kept. -/
theorem getFdCount_eq (hsets : SetsRight waiter requested) : ∃ maxFd,
    waiter.getFdCount = .ok (maxFd + 1, { waiter with mMaxFd := maxFd, mMaxFdValid := true }) ∧
      (Largest requested maxFd ↔ MaxRight waiter requested) := by
  unfold SelectSocketWaiter.getFdCount MaxRight
  cases hvalid : waiter.mMaxFdValid with
  | true =>
    refine ⟨waiter.mMaxFd, ?_, by simp⟩
    rw [if_pos rfl, ← hvalid]
  | false =>
    obtain ⟨maxFd, hbelow, hbound, hattained⟩ := maxFdBelow_spec hsets (Nat.le_refl FD_SETSIZE)
    have hlargest : Largest requested maxFd := ⟨fun fd hfd => hbound fd hfd (wanted_nonneg hfd).2, hattained⟩
    refine ⟨maxFd, ?_, iff_of_true hlargest nofun⟩
    rw [hbelow]
    rfl

theorem count_iff (hsets : SetsRight waiter requested) :
    (∃ maxFd waiter', waiter.getFdCount = .ok (maxFd + 1, waiter') ∧ Largest requested maxFd) ↔
      MaxRight waiter requested := by
  obtain ⟨maxFd, hcount, hiff⟩ := getFdCount_eq hsets
  rw [hcount, ← hiff]
  constructor
  · rintro ⟨maxFd', waiter', hcount', hlargest⟩
    obtain ⟨hmax, -⟩ := Prod.mk.inj (Except.ok.inj hcount')
    obtain rfl : maxFd = maxFd' := by omega
    exact hlargest
  · intro hlargest
    exact ⟨maxFd, _, rfl, hlargest⟩

/-- Events of no kind that the waiter knows, for a descriptor that is at the maximum or above it. -/
def Misleads (waiter : SelectSocketWaiter) (requested : Int → UInt32) (fd : Int) (events : UInt32) : Prop :=
  events ≠ 0 ∧ events &&& (kEventRead ||| kEventWrite) = 0 ∧ waiter.mMaxFdValid = true ∧
    (¬ Wanted requested fd ∧ fd > waiter.mMaxFd ∨ Wanted requested fd ∧ fd = waiter.mMaxFd)

/-- A maximum that the descriptor is not above. -/
theorem Largest.update_iff {maxFd : Int} (h : Largest requested maxFd) (hle : fd ≤ maxFd) (events : UInt32) :
    Largest (Function.update requested fd events) maxFd ↔
      maxFd = -1 ∨ Wanted (Function.update requested fd events) maxFd := by
  refine ⟨Largest.attained, fun hattained => ⟨fun other hother => ?_, hattained⟩⟩
  by_cases hfd : other = fd
  · rwa [hfd]
  · exact h.bound other ((wanted_update_of_ne hfd).mp hother)

/-- A maximum that is another descriptor. -/
theorem Largest.keep {maxFd : Int} (h : Largest requested maxFd) (hle : fd ≤ maxFd)
    (hne : Wanted requested fd → fd ≠ maxFd) (events : UInt32) :
    Largest (Function.update requested fd events) maxFd := by
  refine (h.update_iff hle events).mpr (h.attained.imp_right fun hwanted => (wanted_update_of_ne ?_).mpr hwanted)
  rintro rfl
  exact hne hwanted rfl

/-- A descriptor above the maximum is the new one if it is wanted. -/
theorem Largest.raise_iff {maxFd : Int} (h : Largest requested maxFd) (hgt : fd > maxFd) (events : UInt32) :
    Largest (Function.update requested fd events) fd ↔ Wanted (Function.update requested fd events) fd := by
  have hnonneg : fd ≠ -1 := by
    rcases h.attained with hnone | hwanted
    · omega
    · have hmax := wanted_nonneg hwanted
      omega
  constructor
  · intro hlargest
    exact hlargest.attained.resolve_left hnonneg
  · intro hwanted
    refine ⟨fun other hother => ?_, .inr hwanted⟩
    by_cases hfd : other = fd
    · exact hfd.le
    · exact (h.bound other ((wanted_update_of_ne hfd).mp hother)).trans hgt.le

/-- The maximum stays right, but for such events. -/
theorem updateMax_right_iff (hmax : MaxRight waiter requested) (hold : oldEvents = 0 ↔ ¬ Wanted requested fd)
    (hne : events ≠ oldEvents) (hknown : isValidFd fd = true ∨ events &&& (kEventRead ||| kEventWrite) = 0) :
    MaxRight (waiter.updateMax fd oldEvents events) (Function.update requested fd events) ↔
      ¬ Misleads waiter requested fd events := by
  have hself : Wanted (Function.update requested fd events) fd ↔ events &&& (kEventRead ||| kEventWrite) ≠ 0 := by
    rw [wanted_update_self]
    exact and_iff_right_of_imp fun hevents => hknown.resolve_right hevents
  unfold SelectSocketWaiter.updateMax
  split
  · -- the maximum is raised
    rename_i hraise
    obtain ⟨hzero, hvalid, hgt⟩ := hraise
    have hmisleads : Misleads waiter requested fd events ↔ events &&& (kEventRead ||| kEventWrite) = 0 :=
      ⟨fun h => h.2.1, fun hnone => ⟨hzero ▸ hne, hnone, hvalid, .inl ⟨hold.mp hzero, hgt⟩⟩⟩
    rw [hmisleads, ← Ne, ← hself, ← (hmax hvalid).raise_iff hgt]
    exact ⟨fun h => h hvalid, fun h _ => h⟩
  · rename_i hraise
    split
    · -- it is recomputed later
      rename_i hlower
      exact iff_of_true nofun fun hmisleads => hmisleads.1 hlower.1
    · -- it is left
      rename_i hlower
      by_cases hvalid : waiter.mMaxFdValid = true
      · have hlargest := hmax hvalid
        by_cases hwanted : Wanted requested fd
        · have hle := hlargest.bound fd hwanted
          have hnonneg := wanted_nonneg hwanted
          by_cases htop : fd = waiter.mMaxFd
          · have hmisleads : Misleads waiter requested fd events ↔ events &&& (kEventRead ||| kEventWrite) = 0 :=
              ⟨fun h => h.2.1, fun hnone =>
                ⟨fun hzero => hlower ⟨hzero, hvalid, htop⟩, hnone, hvalid, .inr ⟨hwanted, htop⟩⟩⟩
            have hnone : ¬ waiter.mMaxFd = -1 := by omega
            have hupdate := hlargest.update_iff hle events
            rw [← htop] at hnone
            rw [← htop, or_iff_right hnone, hself] at hupdate
            rw [hmisleads, ← Ne, ← hupdate, htop]
            exact ⟨fun h => h hvalid, fun h _ => h⟩
          · have hkeep := hlargest.keep hle (fun _ => htop) events
            exact iff_of_true (fun _ => hkeep) fun hmisleads =>
              hmisleads.2.2.2.elim (fun h => h.1 hwanted) fun h => htop h.2
        · have hle : fd ≤ waiter.mMaxFd := by
            by_contra hgt
            exact hraise ⟨hold.mpr hwanted, hvalid, by omega⟩
          have hkeep := hlargest.keep hle (fun h => absurd h hwanted) events
          exact iff_of_true (fun _ => hkeep) fun hmisleads =>
            hmisleads.2.2.2.elim (fun h => by omega) fun h => hwanted h.1
      · exact iff_of_true (fun h => absurd h hvalid) fun hmisleads => hvalid hmisleads.2.2.1

end Max

end Goldfish.Sockets
