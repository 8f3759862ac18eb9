import Goldfish.Lib.Interleaving

/-!
# Goldfish.Files.FileLock

**The lock files of `filelock.cpp`**, on POSIX, for one path. A process writes its pid
to a temporary file and links that file to `lock`; whoever makes the link has the lock.
One that finds the path taken reads the pid there, asks whether that process is still
alive, and unlinks the path if not.

* `Machine` is what the processes share: what is at the path, the files, and which
  processes live. A pid is the name of a process, and is not used again.
* Every system call is one step (`proceed`), so that other processes come in between
  any two; `Env` is what a call meets that the machine does not decide.
* The sleeps between two rounds are left out: any time may pass between two steps.
-/

namespace Goldfish.Files.FileLock

open Goldfish.Lib

/-- The number of a process. -/
abbrev Pid := Nat

/-- What a name leads to. -/
abbrev Inode := Nat

/-- What is at `lock->lock`. -/
inductive LockPath where
  | absent
  | directory
  | file (inode : Inode)
deriving DecidableEq, Repr

/-- A process has not begun, is there, or is gone. -/
inductive Life where
  | unborn
  | alive
  | dead
deriving DecidableEq, Repr

/-- The files of a directory with a lock, and the processes. -/
structure Machine where
  lock : LockPath
  /-- The pid that a file has, if it has a positive number. -/
  content : Inode → Option Pid
  nextInode : Inode
  life : Pid → Life
  /-- The process that created a file with `mkstemp`. -/
  author : Inode → Option Pid
  /-- The files that have been at `lock`. -/
  published : Inode → Bool

namespace Machine

/-- `mkstemp`: a file of its own. -/
def mkstemp (m : Machine) (pid : Pid) : Machine :=
  { m with
    nextInode := m.nextInode + 1
    content := Function.update m.content m.nextInode none
    author := Function.update m.author m.nextInode (some pid) }

/-- The pid is written to the temporary file. -/
def write (m : Machine) (temp : Inode) (pid : Pid) : Machine :=
  { m with content := Function.update m.content temp (some pid) }

/-- `link(temp, lock)`, where nothing is at `lock`. -/
def link (m : Machine) (temp : Inode) : Machine :=
  { m with lock := .file temp, published := Function.update m.published temp true }

/-- `unlink(lock)`. A directory stays. -/
def unlink (m : Machine) (fails : Bool) : Machine :=
  match m.lock with
  | .file _ => if fails then m else { m with lock := .absent }
  | _ => m

/-- `rmdir(lock)`. A file stays. -/
def rmdir (m : Machine) (fails : Bool) : Machine :=
  match m.lock with
  | .directory => if fails then m else { m with lock := .absent }
  | _ => m

/-- A process begins or ends. -/
def setLife (m : Machine) (pid : Pid) (life : Life) : Machine :=
  { m with life := Function.update m.life pid life }

end Machine

/-! ### `filelock_lock` -/

/-- The variables of a call: the temporary file, and how long it still waits. -/
structure Attempt where
  temp : Inode
  timeout : Int
  sleepMs : Int
deriving DecidableEq, Repr

/-- The system call that comes next. -/
inductive Pc where
  | idle
  | mkstemp (timeout : Int)
  | write (a : Attempt)
  | lstatTemp (a : Attempt)
  | link (a : Attempt)
  | unlinkTemp (a : Attempt)
  | lstat (a : Attempt)
  | rmdir (a : Attempt)
  | read (a : Attempt)
  | kill (a : Attempt) (inode : Inode) (lockpid : Pid)
  | wait (a : Attempt) (inode : Inode) (lockpid : Pid)
  /-- The lock is stale, judged by the pid in a file if one was read. -/
  | unlinkStale (a : Attempt) (judged : Option Inode)
  | fail
  | exiting
deriving DecidableEq, Repr

/-- A process: where it is, and the files of the locks it has. -/
structure Process where
  pc : Pc
  locked : List Inode
deriving DecidableEq, Repr

/-- What a call meets: whether it fails for a reason of its own, whether `read` does, whether `kill` and
`wait` notice that a process is not alive, and the times of the file. -/
structure Env where
  fails : Bool
  readFails : Bool
  notices : Bool
  now : Int
  atime : Int
  mtime : Int
deriving DecidableEq, Repr

/-- No pid: stale if the file is older than 1 minute. -/
def byAge (now mtime : Int) : Bool := mtime + 60 ≤ now

/-- The end of a round: one more, unless the time is up. -/
def again (a : Attempt) : Pc :=
  if a.timeout = 0 then .fail
  else
    let timeout := if 0 < a.sleepMs then a.timeout - a.sleepMs else a.timeout
    .link { a with timeout := timeout, sleepMs := min timeout (a.sleepMs + 50) }

/-- What a call does next, once it has judged the lock. -/
def verdict (a : Attempt) (judged : Option Inode) (stale : Bool) : Pc :=
  if stale then .unlinkStale a judged else again a

/-- `open` and `read`. Where there is no pid, the age decides; where there is no file, or it could not be
opened, `st_mtime` is two minutes ago. -/
def readLock (m : Machine) (a : Attempt) (env : Env) : Pc :=
  if env.fails then verdict a none (byAge env.now (env.now - 120))
  else
    match m.lock with
    | .absent => verdict a none (byAge env.now (env.now - 120))
    | .directory => verdict a none (byAge env.atime env.mtime)
    | .file inode =>
        if env.readFails then verdict a none (byAge env.atime env.mtime)
        else
          match m.content inode with
          | some lockpid => .kill a inode lockpid
          | none => verdict a (some inode) (byAge env.atime env.mtime)

/-- A call that asks whether a process is alive may say so of one that is not, but not the reverse. -/
def gone (m : Machine) (lockpid : Pid) (env : Env) : Bool :=
  m.life lockpid ≠ .alive && env.notices

/-- The next system call of a process. -/
def proceed (pid : Pid) (m : Machine) (l : Process) (env : Env) : Option (Machine × Process) :=
  match l.pc with
  | .idle => none
  | .mkstemp timeout =>
      if env.fails then some (m, { l with pc := .fail })
      else some (m.mkstemp pid, { l with pc := .write ⟨m.nextInode, timeout, 0⟩ })
  | .write a =>
      if env.fails then some (m, { l with pc := .fail })
      else some (m.write a.temp pid, { l with pc := .lstatTemp a })
  | .lstatTemp a =>
      if env.fails then some (m, { l with pc := .fail }) else some (m, { l with pc := .link a })
  | .link a =>
      if m.lock = .absent ∧ env.fails = false then some (m.link a.temp, { l with pc := .unlinkTemp a })
      else some (m, { l with pc := .lstat a })
  | .unlinkTemp a => some (m, { pc := .idle, locked := l.locked ++ [a.temp] })
  | .lstat a =>
      if env.fails then some (m, { l with pc := .link a })
      else
        match m.lock with
        | .absent => some (m, { l with pc := .link a })
        | .directory => some (m, { l with pc := .rmdir a })
        | .file _ => some (m, { l with pc := .read a })
  | .rmdir _ => some (m.rmdir env.fails, { l with pc := .fail })
  | .read a => some (m, { l with pc := readLock m a env })
  | .kill a inode lockpid =>
      if gone m lockpid env then some (m, { l with pc := .unlinkStale a (some inode) })
      else some (m, { l with pc := .wait a inode lockpid })
  | .wait a inode lockpid => some (m, { l with pc := verdict a (some inode) (gone m lockpid env) })
  | .unlinkStale a _ => some (m.unlink env.fails, { l with pc := again a })
  | .fail => some (m, { l with pc := .idle })
  | .exiting =>
      -- `filelock_atexit`
      match l.locked with
      | [] => some (m.setLife pid .dead, l)
      | _ :: locked => some (m.unlink env.fails, { l with locked := locked })

/-! ### Processes -/

/-- What can happen in a process. -/
inductive Act where
  | start
  | filelock_lock (timeout : Int)
  | filelock_release (inode : Inode) (env : Env)
  | exit
  | crash
  | proceed (env : Env)
deriving DecidableEq, Repr

/-- The step cannot be taken. -/
inductive Stop where
  | notEnabled
deriving DecidableEq, Repr

/-- One step of a process. It calls one function at a time. -/
def atom (pid : Pid) (m : Machine) (l : Process) (act : Act) : Except Stop (Machine × Process) :=
  match m.life pid, act with
  | .unborn, .start => .ok (m.setLife pid .alive, l)
  | .alive, .filelock_lock timeout =>
      if l.pc = .idle then .ok (m, { l with pc := .mkstemp timeout }) else .error .notEnabled
  | .alive, .filelock_release inode env =>
      if l.pc = .idle ∧ inode ∈ l.locked then
        .ok (m.unlink env.fails, { l with locked := l.locked.erase inode })
      else .error .notEnabled
  | .alive, .exit => if l.pc = .idle then .ok (m, { l with pc := .exiting }) else .error .notEnabled
  | .alive, .crash => .ok (m.setLife pid .dead, l)
  | .alive, .proceed env =>
      match proceed pid m l env with
      | some after => .ok after
      | none => .error .notEnabled
  | _, _ => .error .notEnabled

/-- The processes on their machine. -/
abbrev World := Threads Pid Machine Process

/-- One step of one process. -/
def World.step (c : World) (act : Pid × Act) : Except Stop World := Threads.step atom c act

/-- Before any of the processes locks: an old lock file may be there. -/
def World.initial (lock : LockPath) (content : Inode → Option Pid) (life : Pid → Life) : World where
  shared :=
    { lock := lock
      content := content
      nextInode := match lock with
        | .file inode => inode + 1
        | _ => 0
      life := life
      author := fun _ => none
      published := fun inode => lock = .file inode }
  locals := fun _ => ⟨.idle, []⟩

/-- A process that has the lock: `filelock_lock` has returned 0, and it has neither released it nor died. -/
def Holds (c : World) (pid : Pid) (inode : Inode) : Prop :=
  c.shared.life pid = .alive ∧ inode ∈ (c.locals pid).locked

instance (c : World) (pid : Pid) (inode : Inode) : Decidable (Holds c pid inode) :=
  inferInstanceAs (Decidable (_ ∧ _))

end Goldfish.Files.FileLock
