import Goldfish.Lib.Trace
import Mathlib.Data.List.Nodup
import Mathlib.Data.List.Perm.Basic
import Mathlib.Logic.Function.Basic

/-!
# Goldfish.Async.Tasks

**The tasks of `DefaultLooper`.** `schedule` puts a task into `mScheduledTasks`, `cancel`
takes it out. An iteration moves the whole set out and runs the tasks of it one by
one; what a callback cancels by then is looked for in `mScheduledTasks` only. A task
that is cancelled before its turn is run all the same, and one that is deleted is used
after that (`second_task_runs`). Where no task is cancelled while it waits for its turn,
none runs after it was cancelled, and one that is scheduled once runs once
(`cancelled_task_not_run`).

* A task has a name of its own (`TaskId`); what is done to one that has been deleted
  is a `TaskFault`.
* An iteration is carried out in stretches: the set is moved out (`begin`), a callback
  is entered (`run`), and it returns (`finish`). In between, callbacks and other threads
  may call what they like, but not run the looper again.
* `log` records what was scheduled, cancelled and run.
-/

namespace Goldfish.Async

open Goldfish.Lib

/-- The name of a task. A new task has a new one. -/
abbrev TaskId := Nat

/-- `DefaultLooper::Task`. -/
inductive TaskObject where
  | unborn
  | alive (mSelfDeleting : Bool)
  | deleted
deriving DecidableEq, Repr

/-- How a call can go wrong. -/
inductive TaskFault where
  | useAfterFree
  | notEnabled
deriving DecidableEq, Repr

/-- What happens to a task. -/
inductive TaskEvent where
  | scheduled (task : TaskId)
  /-- By `cancel` or by the destructor. -/
  | cancelled (task : TaskId)
  | ran (task : TaskId)
deriving DecidableEq, Repr

/-- A looper with its tasks, in the middle of an iteration or not. -/
structure TaskLooper where
  objects : TaskId → TaskObject
  mScheduledTasks : List TaskId
  /-- What an iteration has moved out and not run yet, in the order of the hash set. -/
  tasks : List TaskId
  /-- The task whose callback runs. -/
  running : Option TaskId
  log : List TaskEvent

namespace TaskLooper

/-- A looper before the first task. -/
def new : TaskLooper := ⟨fun _ => .unborn, [], [], none, []⟩

/-- `mSelfDeleting` of a task that exists. -/
def deref (L : TaskLooper) (task : TaskId) : Except TaskFault Bool :=
  match L.objects task with
  | .alive mSelfDeleting => .ok mSelfDeleting
  | _ => .error .useAfterFree

/-- The object of a task changes. -/
def setObject (L : TaskLooper) (task : TaskId) (object : TaskObject) : TaskLooper :=
  { L with objects := Function.update L.objects task object }

/-- An event goes to the log. -/
def record (L : TaskLooper) (event : TaskEvent) : TaskLooper := { L with log := L.log ++ [event] }

/-- `addTask`: a task is in the set once. -/
def addTask (L : TaskLooper) (task : TaskId) : TaskLooper :=
  { L with mScheduledTasks := L.mScheduledTasks.insert task }

/-- `delTask`. -/
def delTask (L : TaskLooper) (task : TaskId) : TaskLooper :=
  { L with mScheduledTasks := L.mScheduledTasks.erase task }

/-- `createTask`. -/
def createTask (L : TaskLooper) (task : TaskId) : TaskLooper := L.setObject task (.alive false)

/-- `schedule`, called on a task that may be gone. -/
def schedule (L : TaskLooper) (task : TaskId) : Except TaskFault TaskLooper := do
  let _ ← L.deref task
  .ok ((L.addTask task).record (.scheduled task))

/-- `cancel`, called on a task that may be gone. -/
def cancel (L : TaskLooper) (task : TaskId) : Except TaskFault TaskLooper := do
  let _ ← L.deref task
  .ok ((L.delTask task).record (.cancelled task))

/-- The destructor. -/
def destroyTask (L : TaskLooper) (task : TaskId) : Except TaskFault TaskLooper := do
  let L ← L.cancel task
  .ok (L.setObject task .deleted)

/-- A task that nobody else has. -/
def scheduleCallback (L : TaskLooper) (task : TaskId) : Except TaskFault TaskLooper :=
  (L.setObject task (.alive true)).schedule task

/-- What a callback or another thread may call. -/
inductive Call where
  | createTask (task : TaskId)
  | scheduleCallback (task : TaskId)
  | schedule (task : TaskId)
  | cancel (task : TaskId)
  | destroyTask (task : TaskId)
deriving DecidableEq, Repr

/-- What the owner of a task, or a callback, can call. -/
def call (L : TaskLooper) : Call → Except TaskFault TaskLooper
  | .createTask task => .ok (L.createTask task)
  | .scheduleCallback task => L.scheduleCallback task
  | .schedule task => L.schedule task
  | .cancel task => L.cancel task
  | .destroyTask task => L.destroyTask task

/-! ### `runOneIterationWithDeadlineMs` -/

/-- `tasks = std::move(mScheduledTasks)`, in any order. The set that is moved from is left empty. -/
def begin (L : TaskLooper) (order : List TaskId) : Except TaskFault TaskLooper :=
  if L.tasks = [] ∧ L.running = none ∧ order.Perm L.mScheduledTasks then
    .ok { L with mScheduledTasks := [], tasks := order }
  else .error .notEnabled

/-- `task->run()` up to the callback. -/
def run (L : TaskLooper) : Except TaskFault TaskLooper :=
  match L.running, L.tasks with
  | none, task :: rest => do
    let _ ← L.deref task
    .ok ({ L with tasks := rest, running := some task }.record (.ran task))
  | _, _ => .error .notEnabled

/-- The rest of `run`: a task that nobody else has deletes itself. -/
def finish (L : TaskLooper) : Except TaskFault TaskLooper :=
  match L.running with
  | none => .error .notEnabled
  | some task => do
    let mSelfDeleting ← L.deref task
    let L := { L with running := none }
    .ok (if mSelfDeleting then (L.delTask task).setObject task .deleted else L)

/-- A step of a run: a call, or a part of an iteration. -/
inductive Act where
  | call (c : Call)
  | begin (order : List TaskId)
  | run
  | finish
deriving DecidableEq, Repr

/-- One step of a run. -/
def step (L : TaskLooper) : Act → Except TaskFault TaskLooper
  | .call c => L.call c
  | .begin order => L.begin order
  | .run => L.run
  | .finish => L.finish

/-! ### What is promised -/

/-- No task runs after it was cancelled, unless it has been scheduled again. -/
def CancelledNotRun (log : List TaskEvent) : Prop :=
  ∀ before between behind task,
    log = before ++ .cancelled task :: (between ++ .ran task :: behind) → .scheduled task ∈ between

/-- A task that was scheduled once and not cancelled runs once: it has done so, or is waiting to. -/
def RunsOnce (L : TaskLooper) : Prop :=
  ∀ task, L.log.count (.scheduled task) = 1 → .cancelled task ∉ L.log →
    L.log.count (.ran task) + L.mScheduledTasks.count task + L.tasks.count task = 1

/-- What a program can do: it uses tasks that exist and are its own, a new task has a new name, and a task
whose callback runs is not deleted. -/
def Uses (L : TaskLooper) : Act → Prop
  | .call (.createTask task) | .call (.scheduleCallback task) => L.objects task = .unborn
  | .call (.schedule task) | .call (.cancel task) => L.objects task = .alive false
  | .call (.destroyTask task) => L.objects task = .alive false ∧ L.running ≠ some task
  | .begin _ | .run | .finish => True

instance (L : TaskLooper) : DecidablePred (Uses L)
  | .call (.createTask task) | .call (.scheduleCallback task) =>
      inferInstanceAs (Decidable (L.objects task = .unborn))
  | .call (.schedule task) | .call (.cancel task) =>
      inferInstanceAs (Decidable (L.objects task = .alive false))
  | .call (.destroyTask task) =>
      inferInstanceAs (Decidable (L.objects task = .alive false ∧ L.running ≠ some task))
  | .begin _ | .run | .finish => isTrue trivial

/-- No task is cancelled or deleted while it waits for its turn in an iteration. -/
def SparesWaiting (L : TaskLooper) : Act → Prop
  | .call (.cancel task) | .call (.destroyTask task) => task ∉ L.tasks
  | .call (.createTask _) | .call (.scheduleCallback _) | .call (.schedule _) | .begin _ | .run |
    .finish => True

instance (L : TaskLooper) : DecidablePred (SparesWaiting L)
  | .call (.cancel task) | .call (.destroyTask task) => inferInstanceAs (Decidable (task ∉ L.tasks))
  | .call (.createTask _) | .call (.scheduleCallback _) | .call (.schedule _) | .begin _ | .run |
    .finish => isTrue trivial

/-! ### Histories -/

/-- A task that was cancelled has been scheduled since. -/
def Due (log : List TaskEvent) (task : TaskId) : Prop :=
  ∀ before behind, log = before ++ .cancelled task :: behind → .scheduled task ∈ behind

variable {L L' : TaskLooper} {log : List TaskEvent} {event : TaskEvent} {task t : TaskId}

/-- One more event: a cancellation at the end of the history is the event itself. -/
theorem due_concat (hevent : event ≠ .cancelled task) (h : Due log task ∨ event = .scheduled task) :
    Due (log ++ [event]) task := by
  intro before behind heq
  rcases List.eq_nil_or_concat behind with rfl | ⟨behind', last, rfl⟩
  · exact absurd (List.append_inj' heq rfl).2 (by simpa using hevent)
  · rw [List.concat_eq_append, ← List.cons_append, ← List.append_assoc] at heq
    obtain ⟨hlog, hlast⟩ := List.append_inj' heq rfl
    obtain rfl : event = last := by simpa using hlast
    rw [List.concat_eq_append, List.mem_append]
    rcases h with h | rfl
    · exact .inl (h before behind' hlog)
    · exact .inr (List.mem_singleton_self _)

theorem cancelledNotRun_iff_hist :
    CancelledNotRun log ↔ Hist (fun pre e => ∀ task, e = .ran task → Due pre task) log := by
  constructor
  · rintro h pre e behind rfl task rfl before between rfl
    exact h before between behind task (by simp)
  · intro h before between behind task heq
    rw [← List.cons_append, ← List.append_assoc] at heq
    exact h _ _ _ heq task rfl before between rfl

theorem cancelledNotRun_concat :
    CancelledNotRun (log ++ [event]) ↔ CancelledNotRun log ∧ ∀ task, event = .ran task → Due log task := by
  rw [cancelledNotRun_iff_hist, hist_concat, ← cancelledNotRun_iff_hist]

/-- A task that was scheduled at most once and not cancelled: how often it was scheduled is how often it has
run or will run. -/
def Counted (L : TaskLooper) (task : TaskId) : Prop :=
  .cancelled task ∉ L.log → L.log.count (.scheduled task) ≤ 1 →
    L.log.count (.ran task) + L.mScheduledTasks.count task + L.tasks.count task =
      L.log.count (.scheduled task)

/-- What holds of the tasks whenever any code runs that uses them. -/
structure Inv (L : TaskLooper) : Prop where
  aSet : L.mScheduledTasks.Nodup
  waitsOnce : L.tasks.Nodup
  alive : ∀ t, t ∈ L.mScheduledTasks ∨ t ∈ L.tasks ∨ L.running = some t → ∃ b, L.objects t = .alive b
  /-- The task whose callback runs has had its turn. -/
  entered : ∀ t, L.running = some t → t ∉ L.tasks ∧ .ran t ∈ L.log
  due : ∀ t, t ∈ L.mScheduledTasks ∨ t ∈ L.tasks → Due L.log t
  notRun : CancelledNotRun L.log
  counted : ∀ t, Counted L t

theorem new_inv : Inv new where
  aSet := List.nodup_nil
  waitsOnce := List.nodup_nil
  alive t ht := by simp [new] at ht
  entered t ht := by cases ht
  due t ht := by simp [new] at ht
  notRun before between behind task heq := by simp [new] at heq
  counted t _ _ := rfl

theorem deref_eq_ok {b : Bool} : L.deref t = .ok b ↔ L.objects t = .alive b := by
  unfold deref
  cases L.objects t <;> simp

section Steps

variable (h : Inv L)
include h

/-- A new task. -/
theorem Inv.create (hnew : L.objects task = .unborn) (b : Bool) : Inv (L.setObject task (.alive b)) where
  aSet := h.aSet
  waitsOnce := h.waitsOnce
  alive t ht := by
    obtain ⟨b', hb'⟩ := h.alive t ht
    have hne : t ≠ task := by
      rintro rfl
      rw [hnew] at hb'
      cases hb'
    exact ⟨b', (Function.update_of_ne hne ..).trans hb'⟩
  entered := h.entered
  due := h.due
  notRun := h.notRun
  counted := h.counted

theorem Inv.schedule {b : Bool} (hlive : L.objects task = .alive b) :
    ∃ L', L.schedule task = .ok L' ∧ Inv L' := by
  rw [TaskLooper.schedule, deref_eq_ok.mpr hlive, ok_bind]
  refine ⟨_, rfl, ?_⟩
  constructor
  case aSet => exact h.aSet.insert
  case waitsOnce => exact h.waitsOnce
  case alive =>
    intro t ht
    by_cases heq : t = task
    · exact ⟨b, heq ▸ hlive⟩
    · refine h.alive t (ht.imp_left fun ht => ?_)
      exact (List.mem_insert_iff.mp ht).resolve_left heq
  case entered => exact fun t ht => ⟨(h.entered t ht).1, List.mem_append_left _ (h.entered t ht).2⟩
  case due =>
    intro t ht
    refine due_concat (by simp) ?_
    by_cases heq : t = task
    · exact .inr (heq ▸ rfl)
    · refine .inl (h.due t (ht.imp_left fun ht => ?_))
      exact (List.mem_insert_iff.mp ht).resolve_left heq
  case notRun => exact cancelledNotRun_concat.mpr ⟨h.notRun, by simp⟩
  case counted =>
    intro t hcancelled honce
    have hold := h.counted t fun hmem => hcancelled (List.mem_append_left _ hmem)
    simp only [record, addTask, List.count_append, List.count_insert] at honce ⊢
    by_cases heq : t = task
    · subst heq
      simp at honce ⊢
      omega
    · have hne : TaskEvent.scheduled task ≠ .scheduled t := by simpa using Ne.symm heq
      simp [hne, Ne.symm heq] at honce ⊢
      omega

/-- `cancel` on a task that is not waiting for its turn. -/
theorem Inv.cancel {b : Bool} (hlive : L.objects task = .alive b) (hspared : task ∉ L.tasks) :
    ∃ L', L.cancel task = .ok L' ∧ Inv L' ∧ L'.objects = L.objects ∧ L'.running = L.running ∧
      task ∉ L'.mScheduledTasks ∧ task ∉ L'.tasks := by
  rw [TaskLooper.cancel, deref_eq_ok.mpr hlive, ok_bind]
  have hleft : ∀ t, t ∈ L.mScheduledTasks.erase task ↔ t ≠ task ∧ t ∈ L.mScheduledTasks :=
    fun t => h.aSet.mem_erase_iff
  refine ⟨_, rfl, ?_, rfl, rfl, fun hmem => ((hleft task).mp hmem).1 rfl, hspared⟩
  constructor
  case aSet => exact h.aSet.erase task
  case waitsOnce => exact h.waitsOnce
  case alive => exact fun t ht => h.alive t (ht.imp_left fun ht => ((hleft t).mp ht).2)
  case entered => exact fun t ht => ⟨(h.entered t ht).1, List.mem_append_left _ (h.entered t ht).2⟩
  case due =>
    intro t ht
    have hne : t ≠ task := by
      rcases ht with ht | ht
      · exact ((hleft t).mp ht).1
      · rintro rfl
        exact hspared ht
    exact due_concat (by simpa using Ne.symm hne) (.inl (h.due t (ht.imp_left fun ht => ((hleft t).mp ht).2)))
  case notRun => exact cancelledNotRun_concat.mpr ⟨h.notRun, by simp⟩
  case counted =>
    intro t hcancelled honce
    have hold := h.counted t fun hmem => hcancelled (List.mem_append_left _ hmem)
    have hne : t ≠ task := by
      rintro rfl
      exact hcancelled (List.mem_append_right _ (List.mem_singleton_self _))
    simp only [record, delTask, List.count_append, List.count_erase_of_ne hne] at honce ⊢
    simp at honce ⊢
    exact hold honce

/-- A task that nothing refers to any more is deleted. -/
theorem Inv.delete (hscheduled : task ∉ L.mScheduledTasks) (hwaiting : task ∉ L.tasks)
    (hrunning : L.running ≠ some task) : Inv (L.setObject task .deleted) where
  aSet := h.aSet
  waitsOnce := h.waitsOnce
  alive t ht := by
    have hne : t ≠ task := by
      rintro rfl
      rcases ht with ht | ht | ht
      · exact hscheduled ht
      · exact hwaiting ht
      · exact hrunning ht
    obtain ⟨b, hb⟩ := h.alive t ht
    exact ⟨b, (Function.update_of_ne hne ..).trans hb⟩
  entered := h.entered
  due := h.due
  notRun := h.notRun
  counted := h.counted

theorem Inv.destroyTask {b : Bool} (hlive : L.objects task = .alive b) (hspared : task ∉ L.tasks)
    (hrunning : L.running ≠ some task) : ∃ L', L.destroyTask task = .ok L' ∧ Inv L' := by
  obtain ⟨L₁, hcancel, h₁, -, hsame, hscheduled, hwaiting⟩ := h.cancel hlive hspared
  rw [TaskLooper.destroyTask, hcancel, ok_bind]
  exact ⟨_, rfl, h₁.delete hscheduled hwaiting (hsame ▸ hrunning)⟩

/-- The set is moved out. -/
theorem Inv.begin {order : List TaskId} (hbegin : L.begin order = .ok L') : Inv L' := by
  unfold TaskLooper.begin at hbegin
  split at hbegin
  · next hidle =>
    obtain ⟨hnone, hrunning, horder⟩ := hidle
    obtain rfl := Except.ok.inj hbegin
    constructor
    case aSet => exact List.nodup_nil
    case waitsOnce => exact horder.nodup_iff.mpr h.aSet
    case alive =>
      intro t ht
      rcases ht with ht | ht | ht
      · cases ht
      · exact h.alive t (.inl (horder.mem_iff.mp ht))
      · exact h.alive t (.inr (.inr ht))
    case entered =>
      intro t ht
      rw [hrunning] at ht
      cases ht
    case due =>
      intro t ht
      rcases ht with ht | ht
      · cases ht
      · exact h.due t (.inl (horder.mem_iff.mp ht))
    case notRun => exact h.notRun
    case counted =>
      intro t hcancelled honce
      have hold := h.counted t hcancelled honce
      rw [hnone] at hold
      simpa [horder.count_eq] using hold
  · cases hbegin

/-- A task is run when its turn comes. -/
theorem Inv.run (hnone : L.running = none) {rest : List TaskId} (htasks : L.tasks = task :: rest) :
    ∃ L', L.run = .ok L' ∧ Inv L' := by
  have hmem : task ∈ L.tasks := htasks ▸ List.mem_cons_self
  obtain ⟨b, hb⟩ := h.alive task (.inr (.inl hmem))
  have honce := h.waitsOnce
  rw [htasks, List.nodup_cons] at honce
  unfold TaskLooper.run
  rw [hnone, htasks]
  dsimp only
  rw [deref_eq_ok.mpr hb, ok_bind]
  refine ⟨_, rfl, ?_⟩
  constructor
  case aSet => exact h.aSet
  case waitsOnce => exact honce.2
  case alive =>
    intro t ht
    rcases ht with ht | ht | ht
    · exact h.alive t (.inl ht)
    · exact h.alive t (.inr (.inl (htasks ▸ List.mem_cons_of_mem _ ht)))
    · obtain rfl := Option.some.inj ht
      exact ⟨b, hb⟩
  case entered =>
    intro t ht
    obtain rfl := Option.some.inj ht
    exact ⟨honce.1, List.mem_append_right _ (List.mem_singleton_self _)⟩
  case due =>
    intro t ht
    refine due_concat (by simp) (.inl (h.due t (ht.imp_right fun ht => ?_)))
    exact htasks ▸ List.mem_cons_of_mem _ ht
  case notRun =>
    refine cancelledNotRun_concat.mpr ⟨h.notRun, fun t ht => ?_⟩
    obtain rfl : task = t := by simpa using ht
    exact h.due task (.inr hmem)
  case counted =>
    intro t hcancelled hscheduled
    have hold := h.counted t fun hmem => hcancelled (List.mem_append_left _ hmem)
    rw [htasks] at hold
    simp only [record, List.count_append, List.count_cons] at hscheduled hold ⊢
    by_cases heq : task = t
    · subst heq
      simp at hscheduled hold ⊢
      omega
    · have hne : TaskEvent.ran task ≠ .ran t := by simpa using heq
      simp [heq] at hscheduled hold ⊢
      omega

/-- Nothing waits for the callback any more. -/
theorem Inv.leave : Inv { L with running := none } where
  aSet := h.aSet
  waitsOnce := h.waitsOnce
  alive t ht := h.alive t (ht.imp_right fun ht => ht.imp_right fun ht => by cases ht)
  entered t ht := by cases ht
  due := h.due
  notRun := h.notRun
  counted := h.counted

/-- `delTask` of a task that has run: if it was scheduled once, it is not scheduled any more. -/
theorem Inv.delTask (hran : .ran task ∈ L.log) : Inv (L.delTask task) := by
  have hleft : ∀ t, t ∈ L.mScheduledTasks.erase task → t ∈ L.mScheduledTasks :=
    fun t => List.mem_of_mem_erase
  constructor
  case aSet => exact h.aSet.erase task
  case waitsOnce => exact h.waitsOnce
  case alive => exact fun t ht => h.alive t (ht.imp_left (hleft t))
  case entered => exact h.entered
  case due => exact fun t ht => h.due t (ht.imp_left (hleft t))
  case notRun => exact h.notRun
  case counted =>
    intro t hcancelled honce
    have hold := h.counted t hcancelled honce
    have hpos := List.count_pos_iff.mpr hran
    simp only [TaskLooper.delTask] at honce ⊢
    rw [List.count_erase]
    split
    · next heq =>
      obtain rfl : task = t := by simpa using heq
      omega
    · exact hold

/-- A callback returns. -/
theorem Inv.finish (hrunning : L.running = some task) : ∃ L', L.finish = .ok L' ∧ Inv L' := by
  obtain ⟨b, hb⟩ := h.alive task (.inr (.inr hrunning))
  obtain ⟨hout, hran⟩ := h.entered task hrunning
  have hdel := h.leave.delTask hran
  have hscheduled : task ∉ L.mScheduledTasks.erase task := fun hmem => (h.aSet.mem_erase_iff.mp hmem).1 rfl
  unfold TaskLooper.finish
  rw [hrunning]
  dsimp only
  rw [deref_eq_ok.mpr hb, ok_bind]
  refine ⟨_, rfl, ?_⟩
  split
  · exact hdel.delete hscheduled hout fun heq => by cases heq
  · exact h.leave

/-- A step of a program that cancels no task which waits for its turn. -/
theorem Inv.step_cases {a : Act} (huses : Uses L a) (hspares : SparesWaiting L a) :
    (∃ L', L.step a = .ok L' ∧ Inv L') ∨ L.step a = .error .notEnabled := by
  cases a with
  | call c =>
    cases c with
    | createTask task => exact .inl ⟨_, rfl, h.create huses false⟩
    | scheduleCallback task =>
      exact .inl ((h.create huses true).schedule (Function.update_self ..))
    | schedule task => exact .inl (h.schedule huses)
    | cancel task =>
      obtain ⟨L', hcancel, h', -⟩ := h.cancel huses hspares
      exact .inl ⟨L', hcancel, h'⟩
    | destroyTask task => exact .inl (h.destroyTask huses.1 hspares huses.2)
  | begin order =>
    cases hbegin : L.begin order with
    | ok L' => exact .inl ⟨L', hbegin, h.begin hbegin⟩
    | error fault =>
      refine .inr ?_
      unfold TaskLooper.begin at hbegin
      split at hbegin
      · cases hbegin
      · obtain rfl := Except.error.inj hbegin
        rename_i hidle
        simp only [step, TaskLooper.begin, if_neg hidle]
  | run =>
    cases hrunning : L.running with
    | some task => exact .inr (by simp [step, TaskLooper.run, hrunning])
    | none =>
      cases htasks : L.tasks with
      | nil => exact .inr (by simp [step, TaskLooper.run, hrunning, htasks])
      | cons task rest => exact .inl (h.run hrunning htasks)
  | finish =>
    cases hrunning : L.running with
    | none => exact .inr (by simp [step, TaskLooper.finish, hrunning])
    | some task => exact .inl (h.finish hrunning)

end Steps

/-! ### Runs -/

/-- **A cancelled task does not run, and one that is scheduled once runs once**, in every run of callbacks
and other threads that cancel no task which waits for its turn, whatever the order of the hash set; and no
step uses a task that has been deleted. -/
theorem cancelled_task_not_run (acts : List Act) (huses : Along TaskLooper.step Uses new acts)
    (hspares : Along TaskLooper.step SparesWaiting new acts) :
    ∀ pre, pre <+: acts →
      (∀ L, pre.foldlM TaskLooper.step new = .ok L → CancelledNotRun L.log ∧ RunsOnce L) ∧
        pre.foldlM TaskLooper.step new ≠ .error .useAfterFree := by
  have hsteps : Along TaskLooper.step (fun L a => (∀ L', L.step a = .ok L' → Inv L') ∧
      L.step a ≠ .error .useAfterFree) new acts := by
    have hclean : ∀ L a, Inv L → Uses L a ∧ SparesWaiting L a →
        (∀ L', L.step a = .ok L' → Inv L') ∧ L.step a ≠ .error .useAfterFree := by
      intro L a h hok
      rcases h.step_cases hok.1 hok.2 with ⟨L', hstep, h'⟩ | hstep
      · rw [hstep]
        exact ⟨fun L'' heq => Except.ok.inj heq ▸ h', fun heq => by cases heq⟩
      · rw [hstep]
        exact ⟨fun L'' heq => (by cases heq), fun heq => by cases heq⟩
    exact (along_and_iff.mpr ⟨huses, hspares⟩).imp hclean (fun L a L' h hok => (hclean L a h hok).1 L') new_inv
  intro pre hpre
  obtain ⟨hreached, hfault⟩ := (forall_reached_iff_along new_inv).mpr hsteps pre hpre
  refine ⟨fun L hL => ⟨(hreached L hL).notRun, fun task honce hcancelled => ?_⟩, hfault⟩
  have hcounted := (hreached L hL).counted task hcancelled (Nat.le_of_eq honce)
  rw [hcounted, honce]

/-- Two tasks and a callback are scheduled; a callback schedules the first task again, and cancels it before
the next iteration. -/
def cancelledInTime : List Act :=
  [.call (.createTask 1), .call (.createTask 2), .call (.schedule 1), .call (.schedule 2),
    .call (.scheduleCallback 3), .begin [3, 1, 2], .run, .finish, .run, .finish, .run, .call (.schedule 1),
    .finish, .call (.cancel 1), .begin [], .call (.destroyTask 1)]

theorem cancelled_in_time : Along TaskLooper.step SparesWaiting new cancelledInTime ∧
    ∀ pre, pre <+: cancelledInTime →
      (∀ L, pre.foldlM TaskLooper.step new = .ok L → CancelledNotRun L.log ∧ RunsOnce L) ∧
        pre.foldlM TaskLooper.step new ≠ .error .useAfterFree := by
  have hspares : Along TaskLooper.step SparesWaiting new cancelledInTime := by decide
  exact ⟨hspares, cancelled_task_not_run cancelledInTime (by decide) hspares⟩

/-- Two tasks of one iteration: the callback of the first calls something that concerns the second. -/
def firstCalls (c : Call) : List Act :=
  [.call (.createTask 1), .call (.createTask 2), .call (.schedule 1), .call (.schedule 2), .begin [1, 2], .run,
    .call c, .finish, .run]

/-- The second task runs although it has been cancelled, and is used although it has been deleted. -/
theorem second_task_runs :
    Along TaskLooper.step Uses new (firstCalls (.cancel 2)) ∧
      (∃ L, (firstCalls (.cancel 2)).foldlM TaskLooper.step new = .ok L ∧ ¬ CancelledNotRun L.log) ∧
      Along TaskLooper.step Uses new (firstCalls (.destroyTask 2)) ∧
      (firstCalls (.destroyTask 2)).foldlM TaskLooper.step new = .error .useAfterFree := by
  refine ⟨by decide, ⟨_, rfl, fun h => ?_⟩, by decide, rfl⟩
  have hagain := h [.scheduled 1, .scheduled 2, .ran 1] [] [] 2 rfl
  cases hagain

end TaskLooper

end Goldfish.Async
