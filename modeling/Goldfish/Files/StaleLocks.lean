import Goldfish.Files.FileLock
import Goldfish.Lib.Loops

/-!
# Goldfish.Files.StaleLocks

**A lock that was left behind.** A process calls `filelock_lock` while no other process
acts, in a directory that can be written, and finds at the path nothing, a file with the
pid of a process that is not alive any more, or a directory. The file is removed, but
with no timeout the loop ends there, without a second `link`; and a directory always ends
it. So the lock is taken exactly if there was nothing, or a file and a timeout
(`takes_leftover_iff`).
-/

namespace Goldfish.Files.FileLock

open Goldfish.Lib

/-! ### A process by itself -/

/-- What a call meets where nothing fails, but for opening a lock file that cannot be read. -/
def served (pc : Pc) (env : Env) : Env :=
  { env with
    fails := env.fails && (match pc with
      | .read _ => true
      | _ => false)
    readFails := false
    notices := true }

/-- A process with the machine to itself, after some system calls. -/
structure Alone where
  shared : Machine
  process : Process
  calls : Nat

/-- One step of the call, with what the system answers it. -/
def Alone.round (pid : Pid) (env : Nat → Env) (s : Alone) : Alone ⊕ Alone :=
  match proceed pid s.shared s.process (served s.process.pc (env s.calls)) with
  | some (m, l) => .inr ⟨m, l, s.calls + 1⟩
  | none => .inl s

/-- `filelock_create_timeout`, of a process that is not exiting: there is a lock if `filelock_lock` succeeds. -/
def filelock_create_timeout (pid : Pid) (env : Nat → Env) (m : Machine) (locked : List Inode) (timeout : Int)
    (fuel : Nat) : Option Alone :=
  iterate (Alone.round pid env) ⟨m, ⟨.mkstemp timeout, locked⟩, 0⟩ fuel

/-- `filelock_create`, which does not wait. -/
def filelock_create (pid : Pid) (env : Nat → Env) (m : Machine) (locked : List Inode) (fuel : Nat) :
    Option Alone :=
  filelock_create_timeout pid env m locked 0 fuel

/-- The call returns a lock: its temporary file is at the path. -/
def Takes (pid : Pid) (env : Nat → Env) (m : Machine) (locked : List Inode) (timeout : Int) : Prop :=
  ∃ s, Returns (filelock_create_timeout pid env m locked timeout) s ∧
    s.process.locked = locked ++ [m.nextInode] ∧ s.shared.lock = .file m.nextInode

/-- A lock file that was left by a process which does not exist any more. -/
def LeftFile (m : Machine) (inode : Inode) : Prop :=
  m.lock = .file inode ∧ inode < m.nextInode ∧ ∃ lockpid, m.content inode = some lockpid ∧ m.life lockpid ≠ .alive

/-- There is no lock, or one that was left behind. -/
def Leftover (m : Machine) : Prop := m.lock = .absent ∨ (∃ inode, LeftFile m inode) ∨ m.lock = .directory

/-! ### The calls one by one -/

section Calls

variable {pid : Pid} {env : Nat → Env} {m m' : Machine} {l l' : Process} {locked : List Inode} {a : Attempt}
  {inode : Inode} {n : Nat} {s : Alone}

theorem returns_call (h : proceed pid m l (served l.pc (env n)) = some (m', l')) :
    Returns (iterate (Alone.round pid env) ⟨m, l, n⟩) s ↔ Returns (iterate (Alone.round pid env) ⟨m', l', n + 1⟩) s :=
  returns_step (by rw [Alone.round, h])

theorem returns_idle :
    Returns (iterate (Alone.round pid env) ⟨m, ⟨.idle, locked⟩, n⟩) ⟨m, ⟨.idle, locked⟩, n⟩ :=
  (returns_done (show Alone.round pid env ⟨m, ⟨.idle, locked⟩, n⟩ = .inl _ from rfl)).mpr rfl

theorem returns_fail :
    Returns (iterate (Alone.round pid env) ⟨m, ⟨.fail, locked⟩, n⟩) ⟨m, ⟨.idle, locked⟩, n + 1⟩ :=
  (returns_call rfl).mpr returns_idle

/-- Nothing is at the path: the lock is taken. -/
theorem returns_link (h : m.lock = .absent) :
    Returns (iterate (Alone.round pid env) ⟨m, ⟨.link a, locked⟩, n⟩)
      ⟨m.link a.temp, ⟨.idle, locked ++ [a.temp]⟩, n + 2⟩ := by
  have hlink : proceed pid m ⟨.link a, locked⟩ (served (.link a) (env n)) =
      some (m.link a.temp, ⟨.unlinkTemp a, locked⟩) := by
    simp [proceed, served, h]
  exact (returns_call hlink).mpr ((returns_call rfl).mpr returns_idle)

/-- A directory is removed, and the call fails. -/
theorem returns_directory (h : m.lock = .directory) :
    ∃ m' n', Returns (iterate (Alone.round pid env) ⟨m, ⟨.link a, locked⟩, n⟩) ⟨m', ⟨.idle, locked⟩, n'⟩ := by
  have hlink : proceed pid m ⟨.link a, locked⟩ (served (.link a) (env n)) = some (m, ⟨.lstat a, locked⟩) := by
    simp [proceed, h]
  have hlstat : proceed pid m ⟨.lstat a, locked⟩ (served (.lstat a) (env (n + 1))) = some (m, ⟨.rmdir a, locked⟩) := by
    simp [proceed, served, h]
  exact ⟨_, _, (returns_call hlink).mpr ((returns_call hlstat).mpr ((returns_call rfl).mpr returns_fail))⟩

/-- The file of a process that is not alive is found stale, whether or not it can be read. -/
theorem returns_stale (h : LeftFile m inode) :
    ∃ judged n', ∀ s, Returns (iterate (Alone.round pid env) ⟨m, ⟨.link a, locked⟩, n⟩) s ↔
      Returns (iterate (Alone.round pid env) ⟨m, ⟨.unlinkStale a judged, locked⟩, n'⟩) s := by
  obtain ⟨hlock, -, lockpid, hcontent, hlife⟩ := h
  have hlink : proceed pid m ⟨.link a, locked⟩ (served (.link a) (env n)) = some (m, ⟨.lstat a, locked⟩) := by
    simp [proceed, hlock]
  have hlstat : proceed pid m ⟨.lstat a, locked⟩ (served (.lstat a) (env (n + 1))) = some (m, ⟨.read a, locked⟩) := by
    simp [proceed, served, hlock]
  cases hopen : (env (n + 2)).fails with
  | true =>
    have hread : proceed pid m ⟨.read a, locked⟩ (served (.read a) (env (n + 2))) =
        some (m, ⟨.unlinkStale a none, locked⟩) := by
      have hage : byAge (env (n + 2)).now ((env (n + 2)).now - 120) = true := by
        rw [byAge, decide_eq_true_eq]
        omega
      simp [proceed, readLock, served, hopen, verdict, hage]
    exact ⟨none, n + 3, fun s => by rw [returns_call hlink, returns_call hlstat, returns_call hread]⟩
  | false =>
    have hread : proceed pid m ⟨.read a, locked⟩ (served (.read a) (env (n + 2))) =
        some (m, ⟨.kill a inode lockpid, locked⟩) := by
      simp [proceed, readLock, served, hopen, hlock, hcontent]
    have hkill : proceed pid m ⟨.kill a inode lockpid, locked⟩ (served (.kill a inode lockpid) (env (n + 3))) =
        some (m, ⟨.unlinkStale a (some inode), locked⟩) := by
      simp [proceed, gone, served, hlife]
    exact ⟨some inode, n + 4, fun s => by
      rw [returns_call hlink, returns_call hlstat, returns_call hread, returns_call hkill]⟩

/-- It is removed, and the loop tests the timeout. -/
theorem returns_left (h : LeftFile m inode) :
    ∃ m' n', m'.lock = .absent ∧ ∀ s, Returns (iterate (Alone.round pid env) ⟨m, ⟨.link a, locked⟩, n⟩) s ↔
      Returns (iterate (Alone.round pid env) ⟨m', ⟨again a, locked⟩, n'⟩) s := by
  obtain ⟨judged, n', hstale⟩ := returns_stale (n := n) h
  have hunlink : proceed pid m ⟨.unlinkStale a judged, locked⟩ (served (.unlinkStale a judged) (env n')) =
      some ({ m with lock := .absent }, ⟨again a, locked⟩) := by
    simp [proceed, served, Machine.unlink, h.1]
  exact ⟨{ m with lock := .absent }, n' + 1, rfl, fun s => (hstale s).trans (returns_call hunlink)⟩

/-- `mkstemp`, `write` and `lstat`. -/
theorem returns_create (pid : Pid) (env : Nat → Env) (locked : List Inode) (timeout : Int)
    (h : ∀ inode, m.lock = .file inode → inode < m.nextInode) :
    ∃ m', m'.lock = m.lock ∧ m'.life = m.life ∧ m.nextInode ≤ m'.nextInode ∧
      (∀ inode, m.lock = .file inode → m'.content inode = m.content inode) ∧
      ∀ s, Returns (filelock_create_timeout pid env m locked timeout) s ↔
        Returns (iterate (Alone.round pid env) ⟨m', ⟨.link ⟨m.nextInode, timeout, 0⟩, locked⟩, 3⟩) s := by
  refine ⟨(m.mkstemp pid).write m.nextInode pid, rfl, rfl, Nat.le_succ _, fun inode hinode => ?_, fun s => ?_⟩
  · have hne : inode ≠ m.nextInode := Nat.ne_of_lt (h inode hinode)
    simp [Machine.write, Machine.mkstemp, Function.update_of_ne hne]
  · have hmkstemp : proceed pid m ⟨.mkstemp timeout, locked⟩ (served (.mkstemp timeout) (env 0)) =
        some (m.mkstemp pid, ⟨.write ⟨m.nextInode, timeout, 0⟩, locked⟩) := by
      simp [proceed, served]
    have hwrite : proceed pid (m.mkstemp pid) ⟨.write ⟨m.nextInode, timeout, 0⟩, locked⟩
        (served (.write ⟨m.nextInode, timeout, 0⟩) (env 1)) =
        some ((m.mkstemp pid).write m.nextInode pid, ⟨.lstatTemp ⟨m.nextInode, timeout, 0⟩, locked⟩) := by
      simp [proceed, served]
    have hlstat : proceed pid ((m.mkstemp pid).write m.nextInode pid) ⟨.lstatTemp ⟨m.nextInode, timeout, 0⟩, locked⟩
        (served (.lstatTemp ⟨m.nextInode, timeout, 0⟩) (env 2)) =
        some ((m.mkstemp pid).write m.nextInode pid, ⟨.link ⟨m.nextInode, timeout, 0⟩, locked⟩) := by
      simp [proceed, served]
    unfold filelock_create_timeout
    rw [returns_call hmkstemp, returns_call hwrite, returns_call hlstat]

/-! ### Whether the lock is taken -/

theorem Leftover.fresh (h : Leftover m) (hlock : m.lock = .file inode) : inode < m.nextInode := by
  rcases h with hlock' | ⟨i, hlock', hlt, -⟩ | hlock'
  · rw [hlock'] at hlock
    cases hlock
  · rw [hlock'] at hlock
    cases hlock
    exact hlt
  · rw [hlock'] at hlock
    cases hlock

/-- A call that ends without a lock. -/
theorem not_takes {timeout : Int}
    (h : Returns (filelock_create_timeout pid env m locked timeout) ⟨m', ⟨.idle, locked⟩, n⟩) :
    ¬ Takes pid env m locked timeout := by
  rintro ⟨s, hs, hlocked, -⟩
  obtain rfl := returns_unique hs h
  simp at hlocked

end Calls

/-- **A lock that was left behind** is taken exactly if there is nothing at the path, or a file and a timeout. -/
theorem takes_leftover_iff (pid : Pid) (env : Nat → Env) (m : Machine) (locked : List Inode) (timeout : Int)
    (h : Leftover m) :
    Takes pid env m locked timeout ↔ m.lock = .absent ∨ (∃ inode, LeftFile m inode) ∧ timeout ≠ 0 := by
  obtain ⟨m₁, hlock₁, hlife, hnext, hcontent, hreturns⟩ :=
    returns_create pid env locked timeout fun _ => h.fresh
  rcases h with hlock | ⟨inode, hleft⟩ | hlock
  · exact iff_of_true ⟨_, (hreturns _).mpr (returns_link (hlock₁.trans hlock)), rfl, rfl⟩ (.inl hlock)
  · have hleft₁ : LeftFile m₁ inode := by
      obtain ⟨hlock, hlt, lockpid, hpid, hdead⟩ := hleft
      exact ⟨hlock₁.trans hlock, Nat.lt_of_lt_of_le hlt hnext, lockpid, (hcontent inode hlock).trans hpid,
        by rwa [hlife]⟩
    obtain ⟨m₂, n, habsent, hremoved⟩ := returns_left hleft₁
    have hreturns := fun s => (hreturns s).trans (hremoved s)
    by_cases htimeout : timeout = 0
    · rw [again, if_pos htimeout] at hreturns
      refine iff_of_false (not_takes ((hreturns _).mpr returns_fail)) ?_
      rintro (hlock | ⟨-, hne⟩)
      · rw [hleft.1] at hlock
        cases hlock
      · exact hne htimeout
    · rw [again, if_neg htimeout] at hreturns
      exact iff_of_true ⟨_, (hreturns _).mpr (returns_link habsent), rfl, rfl⟩ (.inr ⟨⟨inode, hleft⟩, htimeout⟩)
  · obtain ⟨m₂, n, hfails⟩ := returns_directory (hlock₁.trans hlock)
    refine iff_of_false (not_takes ((hreturns _).mpr hfails)) ?_
    rintro (habsent | ⟨⟨inode, hfile, -⟩, -⟩)
    · rw [hlock] at habsent
      cases habsent
    · rw [hlock] at hfile
      cases hfile

/-- The lock file of process 7, which has crashed. -/
def crashed : Machine where
  lock := .file 0
  content := fun _ => some 7
  nextInode := 1
  life := fun pid => if pid = 7 then .dead else .alive
  author := fun _ => some 7
  published := fun _ => true

theorem crashed_leftover : Leftover crashed := .inr (.inl ⟨0, rfl, by decide, 7, rfl, by decide⟩)

/-- What a call meets on a usual day. -/
def usual : Env := ⟨false, false, true, 1000, 1000, 500⟩

theorem takes_crashed : Takes 8 (fun _ => usual) crashed [] 1000 :=
  (takes_leftover_iff 8 (fun _ => usual) crashed [] 1000 crashed_leftover).mpr
    (.inr ⟨⟨0, rfl, by decide, 7, rfl, by decide⟩, by decide⟩)

/-- `filelock_create` removes the file, but returns no lock. -/
theorem create_leaves_crashed :
    Leftover crashed ∧ ¬ ∃ s, Returns (filelock_create 8 (fun _ => usual) crashed []) s ∧
      s.process.locked = [] ++ [crashed.nextInode] ∧ s.shared.lock = .file crashed.nextInode := by
  refine ⟨crashed_leftover, ?_⟩
  rintro ⟨s, hs, hlocked, -⟩
  have hfails : Returns (filelock_create 8 (fun _ => usual) crashed []) ⟨_, ⟨.idle, []⟩, 9⟩ := ⟨10, rfl⟩
  obtain rfl := returns_unique hs hfails
  cases hlocked

end Goldfish.Files.FileLock
