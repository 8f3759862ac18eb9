import Goldfish.Files.FileLock
import Mathlib.Data.Nat.Count
import Mathlib.Tactic.Ring

/-!
# Goldfish.Files.LockTimeout

**How long `filelock_lock` tries**, whatever it finds: the machine may be another one
at every system call (`Seen`). A process keeps the system calls of `FileLock`; `Waiting`
adds the number of the round, and the time that has been spent with sleeping and waiting.

The time never exceeds the timeout. But a round in which neither `link` nor `lstat`
succeeds is repeated at once and with the same timeout, so the loop ends exactly if a
round takes the lock or finds a directory, or enough rounds find a file (`Ends`).
-/

namespace Goldfish.Files.FileLock

/-- What the system calls of one round find, and how long `wait_for` takes. -/
structure Seen where
  link : Machine × Env
  lstat : Machine × Env
  later : Pc → Machine × Env
  waited : Nat

/-- What the next system call finds. -/
def Seen.next (seen : Seen) : Pc → Machine × Env
  | .link _ => seen.link
  | .lstat _ => seen.lstat
  | pc => seen.later pc

/-- A process in the loop. -/
structure Waiting where
  process : Process
  round : Nat
  slept : Bool
  spent : Int

/-- `wait_for` takes `sleep_duration_ms` at most. -/
def Waiting.wait (s : Waiting) (waited : Nat) : Waiting :=
  match s.process.pc with
  | .wait a _ _ => { s with slept := true, spent := s.spent + min (waited : Int) a.sleepMs }
  | _ => s

/-- The sleep at the end of a round: none behind `continue`, and none if the round has waited. -/
def Waiting.sleep (s : Waiting) : Int :=
  match s.process.pc with
  | .read a | .wait a _ _ | .unlinkStale a _ => if 0 < a.sleepMs ∧ s.slept = false then a.sleepMs else 0
  | _ => 0

/-- The next system call: `link` begins a round. -/
def Waiting.goOn (s : Waiting) (l : Process) : Waiting :=
  match l.pc with
  | .link _ => ⟨l, s.round + 1, false, s.spent + s.sleep⟩
  | _ => { s with process := l }

/-- One step of the call, with what is seen in its round. -/
def Waiting.step (pid : Pid) (seen : Nat → Seen) (s : Waiting) : Waiting :=
  let found := (seen s.round).next s.process.pc
  match proceed pid found.1 s.process found.2 with
  | some (_, l) => (s.wait (seen s.round).waited).goOn l
  | none => s

/-- The loop begins. -/
def Waiting.start (temp : Inode) (timeout : Nat) (locked : List Inode) : Waiting :=
  ⟨⟨.link ⟨temp, timeout, 0⟩, locked⟩, 0, false, 0⟩

/-! ### What a round finds -/

/-- The temporary file gets the name of the lock. -/
def Seen.links (seen : Seen) : Prop := seen.link.1.lock = .absent ∧ seen.link.2.fails = false

/-- A directory has the name of the lock. -/
def Seen.isDirectory (seen : Seen) : Prop := seen.lstat.2.fails = false ∧ seen.lstat.1.lock = .directory

/-- A file has the name of the lock. -/
def Seen.isFile (seen : Seen) : Prop :=
  seen.lstat.2.fails = false ∧ seen.lstat.1.lock ≠ .absent ∧ seen.lstat.1.lock ≠ .directory

instance (seen : Seen) : Decidable seen.links := inferInstanceAs (Decidable (_ ∧ _))

instance (seen : Seen) : Decidable seen.isDirectory := inferInstanceAs (Decidable (_ ∧ _))

instance (seen : Seen) : Decidable seen.isFile := inferInstanceAs (Decidable (_ ∧ _ ∧ _))

/-- The rounds before this one that found a file. -/
def files (seen : Nat → Seen) (round : Nat) : Nat := Nat.count (fun i => (seen i).isFile) round

/-- The loop ends in this round, if not before: the sleeps of 50, 100, 150 and so on have used up the timeout. -/
def Ends (seen : Nat → Seen) (timeout round : Nat) : Prop :=
  (seen round).links ∨ (seen round).isDirectory ∨
    (seen round).isFile ∧ timeout ≤ 25 * (files seen round * (files seen round - 1))

/-! ### What holds in the loop -/

/-- The variables, when `count` rounds have found a file. -/
structure Timed (timeout count : Nat) (spent : Int) (a : Attempt) : Prop where
  left : a.timeout = (timeout - 25 * (count * (count - 1)) : Nat)
  next : a.sleepMs = min a.timeout (50 * count)
  total : spent + a.timeout ≤ timeout

/-- What holds of a process at a place in the code. -/
def Waiting.At (seen : Nat → Seen) (timeout : Nat) (s : Waiting) : Prop :=
  let here := seen s.round
  match s.process.pc with
  | .link a => s.slept = false ∧ Timed timeout (files seen s.round) s.spent a
  | .lstat a => s.slept = false ∧ Timed timeout (files seen s.round) s.spent a ∧ ¬ here.links
  | .read a | .kill a _ _ | .wait a _ _ =>
      s.slept = false ∧ Timed timeout (files seen s.round) s.spent a ∧ ¬ here.links ∧ here.isFile
  | .unlinkStale a _ =>
      Timed timeout (files seen s.round) (if s.slept then s.spent - a.sleepMs else s.spent) a ∧ ¬ here.links ∧
        here.isFile
  | .unlinkTemp _ => s.spent ≤ timeout ∧ here.links
  | .rmdir _ => s.spent ≤ timeout ∧ here.isDirectory
  | .fail | .idle => s.spent ≤ timeout ∧ Ends seen timeout s.round
  | .mkstemp _ | .write _ | .lstatTemp _ | .exiting => False

/-- The call is in a round that it has come to with time left. -/
structure Waiting.Inv (seen : Nat → Seen) (timeout : Nat) (s : Waiting) : Prop where
  here : s.At seen timeout
  goesOn : ∀ i, i < s.round → ¬ Ends seen timeout i

section Steps

variable {pid : Pid} {seen : Nat → Seen} {timeout count : Nat} {spent : Int} {s : Waiting} {a : Attempt}

theorem Timed.nonneg (h : Timed timeout count spent a) : 0 ≤ a.timeout ∧ 0 ≤ a.sleepMs ∧ a.sleepMs ≤ a.timeout := by
  have htimeout := h.left
  have hsleep := h.next
  omega

theorem Timed.spent_le (h : Timed timeout count spent a) : spent ≤ timeout := by
  have hspent := h.total
  have hnonneg := h.nonneg
  omega

/-- The timeout is not used up. -/
theorem Timed.timeout_ne_zero_iff (h : Timed timeout count spent a) :
    a.timeout = 0 ↔ timeout ≤ 25 * (count * (count - 1)) := by
  have htimeout := h.left
  omega

theorem twice_triangle (count : Nat) : (count + 1) * (count + 1 - 1) = count * (count - 1) + 2 * count := by
  cases count with
  | zero => rfl
  | succ n =>
    simp only [Nat.add_sub_cancel]
    ring

/-- A round that found a file goes on with what is left of the timeout. -/
theorem Timed.again (h : Timed timeout count spent a) (hne : a.timeout ≠ 0) :
    ∃ a', FileLock.again a = .link a' ∧ Timed timeout (count + 1) (spent + a.sleepMs) a' := by
  have htimeout := h.left
  have hsleep := h.next
  have hspent := h.total
  have htriangle := twice_triangle count
  rw [FileLock.again, if_neg hne]
  refine ⟨_, rfl, ?_, ?_, ?_⟩
  · dsimp only
    rw [htriangle]
    split <;> omega
  · dsimp only
    split <;> omega
  · dsimp only
    split <;> omega

theorem Timed.mono {spent' : Int} (h : Timed timeout count spent a) (hle : spent' ≤ spent) :
    Timed timeout count spent' a :=
  ⟨h.left, h.next, by have htotal := h.total; omega⟩

theorem files_succ (round : Nat) :
    files seen (round + 1) = if (seen round).isFile then files seen round + 1 else files seen round := by
  unfold files
  rw [Nat.count_succ]
  split <;> rfl

/-! ### Steps -/

/-- A new round begins. -/
theorem inv_newRound {round : Nat} (hgoesOn : ∀ i, i < round → ¬ Ends seen timeout i)
    (hends : ¬ Ends seen timeout round) {l : Process} (hpc : l.pc = .link a)
    (htimed : Timed timeout (files seen (round + 1)) spent a) :
    Waiting.Inv seen timeout ⟨l, round + 1, false, spent⟩ where
  here := by
    simp only [Waiting.At, hpc]
    exact ⟨trivial, htimed⟩
  goesOn i hi := by
    rcases Nat.lt_succ_iff_lt_or_eq.mp hi with hlt | rfl
    · exact hgoesOn i hlt
    · exact hends

/-- The end of a round that found a file. -/
theorem inv_again (hgoesOn : ∀ i, i < s.round → ¬ Ends seen timeout i)
    (htimed : Timed timeout (files seen s.round) spent a) (hlinks : ¬ (seen s.round).links)
    (hfile : (seen s.round).isFile) (hspent : s.spent + s.sleep ≤ spent + a.sleepMs)
    (hle : s.spent ≤ timeout) (locked : List Inode) :
    (s.goOn ⟨FileLock.again a, locked⟩).Inv seen timeout := by
  by_cases hzero : a.timeout = 0
  · rw [FileLock.again, if_pos hzero]
    exact ⟨⟨hle, .inr (.inr ⟨hfile, htimed.timeout_ne_zero_iff.mp hzero⟩)⟩, hgoesOn⟩
  · obtain ⟨a', hagain, htimed'⟩ := htimed.again hzero
    rw [hagain]
    refine inv_newRound hgoesOn ?_ rfl ?_
    · rintro (hlink | hdirectory | ⟨-, hzero'⟩)
      · exact hlinks hlink
      · exact hfile.2.2 hdirectory.2
      · exact hzero (htimed.timeout_ne_zero_iff.mpr hzero')
    · rw [files_succ, if_pos hfile]
      exact htimed'.mono hspent

theorem verdict_cases (a : Attempt) (judged : Option Inode) (stale : Bool) :
    verdict a judged stale = .unlinkStale a judged ∨ verdict a judged stale = FileLock.again a := by
  unfold verdict
  split
  · exact .inl rfl
  · exact .inr rfl

/-- What may follow when a file has been found. -/
inductive Follows (a : Attempt) : Pc → Prop where
  | kill (inode lockpid) : Follows a (.kill a inode lockpid)
  | unlinkStale (judged) : Follows a (.unlinkStale a judged)
  | again : Follows a (FileLock.again a)

theorem follows_verdict (a : Attempt) (judged : Option Inode) (stale : Bool) :
    Follows a (verdict a judged stale) := by
  rcases verdict_cases a judged stale with h | h
  · rw [h]
    exact .unlinkStale judged
  · rw [h]
    exact .again

theorem follows_readLock (m : Machine) (a : Attempt) (env : Env) : Follows a (readLock m a env) := by
  unfold readLock
  split
  · exact follows_verdict a _ _
  split
  · exact follows_verdict a _ _
  · exact follows_verdict a _ _
  · split
    · exact follows_verdict a _ _
    split
    · exact .kill _ _
    · exact follows_verdict a _ _

theorem Waiting.step_eq {m : Machine} {l : Process}
    (h : proceed pid ((seen s.round).next s.process.pc).1 s.process ((seen s.round).next s.process.pc).2 =
      some (m, l)) :
    s.step pid seen = (s.wait (seen s.round).waited).goOn l := by
  simp only [Waiting.step, h]

/-- `lstat` finds a file, a directory, or nothing. -/
theorem proceed_lstat (a : Attempt) (locked : List Inode) (seen : Seen) :
    proceed pid seen.lstat.1 ⟨.lstat a, locked⟩ seen.lstat.2 =
      some (seen.lstat.1, ⟨if seen.isFile then .read a else if seen.isDirectory then .rmdir a
        else .link a, locked⟩) := by
  unfold proceed
  dsimp only
  by_cases hfails : seen.lstat.2.fails = true
  · simp [Seen.isFile, Seen.isDirectory, hfails]
  · rw [if_neg hfails]
    split <;> rename_i hlock <;> simp [Seen.isFile, Seen.isDirectory, hfails, hlock]

section Calls

variable {locked : List Inode} {round : Nat} {slept : Bool}

/-- `link` takes the lock, or finds it taken. -/
theorem inv_link (h : Waiting.Inv seen timeout ⟨⟨.link a, locked⟩, round, slept, spent⟩) (pid : Pid) :
    (Waiting.step pid seen ⟨⟨.link a, locked⟩, round, slept, spent⟩).Inv seen timeout := by
  obtain ⟨⟨hslept, htimed⟩, hgoesOn⟩ := h
  by_cases hlinks : (seen round).links
  · have hlink : proceed pid (seen round).link.1 ⟨.link a, locked⟩ (seen round).link.2 =
        some ((seen round).link.1.link a.temp, ⟨.unlinkTemp a, locked⟩) := if_pos hlinks
    rw [Waiting.step_eq hlink]
    exact ⟨⟨htimed.spent_le, hlinks⟩, hgoesOn⟩
  · have hlink : proceed pid (seen round).link.1 ⟨.link a, locked⟩ (seen round).link.2 =
        some ((seen round).link.1, ⟨.lstat a, locked⟩) := if_neg hlinks
    rw [Waiting.step_eq hlink]
    exact ⟨⟨hslept, htimed, hlinks⟩, hgoesOn⟩

/-- `lstat` tells a file from a directory. -/
theorem inv_lstat (h : Waiting.Inv seen timeout ⟨⟨.lstat a, locked⟩, round, slept, spent⟩) (pid : Pid) :
    (Waiting.step pid seen ⟨⟨.lstat a, locked⟩, round, slept, spent⟩).Inv seen timeout := by
  obtain ⟨⟨hslept, htimed, hlinks⟩, hgoesOn⟩ := h
  rw [Waiting.step_eq (proceed_lstat a locked (seen round))]
  by_cases hfile : (seen round).isFile
  · rw [if_pos hfile]
    exact ⟨⟨hslept, htimed, hlinks, hfile⟩, hgoesOn⟩
  rw [if_neg hfile]
  by_cases hdirectory : (seen round).isDirectory
  · rw [if_pos hdirectory]
    exact ⟨⟨htimed.spent_le, hdirectory⟩, hgoesOn⟩
  · -- `continue`: neither a sleep nor a change of the timeout
    rw [if_neg hdirectory]
    refine inv_newRound hgoesOn ?_ rfl ?_
    · rintro (hlink | hdirectory' | ⟨hfile', -⟩)
      · exact hlinks hlink
      · exact hdirectory hdirectory'
      · exact hfile hfile'
    · rw [files_succ, if_neg hfile]
      simpa [Waiting.sleep, Waiting.wait] using htimed

/-- The contents of the lock are judged, or lead to its owner. -/
theorem inv_read (h : Waiting.Inv seen timeout ⟨⟨.read a, locked⟩, round, slept, spent⟩) (pid : Pid) :
    (Waiting.step pid seen ⟨⟨.read a, locked⟩, round, slept, spent⟩).Inv seen timeout := by
  obtain ⟨⟨hslept, htimed, hlinks, hfile⟩, hgoesOn⟩ := h
  rw [Waiting.step_eq (l := ⟨readLock ((seen round).next (.read a)).1 a ((seen round).next (.read a)).2, locked⟩) rfl]
  have hfollows := follows_readLock ((seen round).next (.read a)).1 a ((seen round).next (.read a)).2
  generalize readLock _ a _ = pc at hfollows ⊢
  cases hfollows with
  | kill inode lockpid => exact ⟨⟨hslept, htimed, hlinks, hfile⟩, hgoesOn⟩
  | unlinkStale judged =>
    refine ⟨⟨?_, hlinks, hfile⟩, hgoesOn⟩
    subst hslept
    exact htimed
  | again =>
    refine inv_again hgoesOn htimed hlinks hfile ?_ htimed.spent_le locked
    have hnonneg := htimed.nonneg
    dsimp only [Waiting.sleep, Waiting.wait]
    split <;> omega

/-- The owner is gone, or is waited for. -/
theorem inv_kill {inode : Inode} {lockpid : Pid}
    (h : Waiting.Inv seen timeout ⟨⟨.kill a inode lockpid, locked⟩, round, slept, spent⟩) (pid : Pid) :
    (Waiting.step pid seen ⟨⟨.kill a inode lockpid, locked⟩, round, slept, spent⟩).Inv seen timeout := by
  obtain ⟨⟨hslept, htimed, hlinks, hfile⟩, hgoesOn⟩ := h
  have hkill : ∃ pc, (pc = .unlinkStale a (some inode) ∨ pc = .wait a inode lockpid) ∧
      proceed pid ((seen round).next (.kill a inode lockpid)).1 ⟨.kill a inode lockpid, locked⟩
        ((seen round).next (.kill a inode lockpid)).2 =
          some (((seen round).next (.kill a inode lockpid)).1, ⟨pc, locked⟩) := by
    by_cases hgone : gone ((seen round).next (.kill a inode lockpid)).1 lockpid
        ((seen round).next (.kill a inode lockpid)).2 = true
    · exact ⟨_, .inl rfl, if_pos hgone⟩
    · exact ⟨_, .inr rfl, if_neg hgone⟩
  obtain ⟨pc, rfl | rfl, hproceed⟩ := hkill
  · rw [Waiting.step_eq hproceed]
    subst hslept
    exact ⟨⟨htimed, hlinks, hfile⟩, hgoesOn⟩
  · rw [Waiting.step_eq hproceed]
    exact ⟨⟨hslept, htimed, hlinks, hfile⟩, hgoesOn⟩

/-- After the wait the lock is judged. -/
theorem inv_wait {inode : Inode} {lockpid : Pid}
    (h : Waiting.Inv seen timeout ⟨⟨.wait a inode lockpid, locked⟩, round, slept, spent⟩) (pid : Pid) :
    (Waiting.step pid seen ⟨⟨.wait a inode lockpid, locked⟩, round, slept, spent⟩).Inv seen timeout := by
  obtain ⟨hhere, hgoesOn⟩ := h
  dsimp only [Waiting.At] at hhere hgoesOn
  obtain ⟨hslept, htimed, hlinks, hfile⟩ := hhere
  have hnonneg := htimed.nonneg
  have htotal := htimed.total
  have hcall : proceed pid ((seen round).next (.wait a inode lockpid)).1 ⟨.wait a inode lockpid, locked⟩
      ((seen round).next (.wait a inode lockpid)).2 =
        some (((seen round).next (.wait a inode lockpid)).1, ⟨verdict a (some inode) (gone
          ((seen round).next (.wait a inode lockpid)).1 lockpid ((seen round).next (.wait a inode lockpid)).2),
          locked⟩) := rfl
  rw [Waiting.step_eq hcall]
  rcases verdict_cases a (some inode) (gone ((seen round).next (.wait a inode lockpid)).1 lockpid
    ((seen round).next (.wait a inode lockpid)).2) with hverdict | hverdict
  · rw [hverdict]
    refine ⟨⟨htimed.mono ?_, hlinks, hfile⟩, hgoesOn⟩
    change spent + min ((seen round).waited : Int) a.sleepMs - a.sleepMs ≤ spent
    omega
  · rw [hverdict]
    refine inv_again hgoesOn htimed hlinks hfile ?_ ?_ locked
    · dsimp only [Waiting.sleep, Waiting.wait]
      rw [if_neg (by simp)]
      omega
    · dsimp only [Waiting.wait]
      omega

/-- The stale lock is out of the way, and the round ends. -/
theorem inv_unlinkStale {judged : Option Inode}
    (h : Waiting.Inv seen timeout ⟨⟨.unlinkStale a judged, locked⟩, round, slept, spent⟩) (pid : Pid) :
    (Waiting.step pid seen ⟨⟨.unlinkStale a judged, locked⟩, round, slept, spent⟩).Inv seen timeout := by
  obtain ⟨hhere, hgoesOn⟩ := h
  dsimp only [Waiting.At] at hhere hgoesOn
  obtain ⟨htimed, hlinks, hfile⟩ := hhere
  have hnonneg := htimed.nonneg
  have htotal := htimed.total
  rw [Waiting.step_eq (l := ⟨FileLock.again a, locked⟩) rfl]
  refine inv_again hgoesOn htimed hlinks hfile ?_ ?_ locked
  · dsimp only [Waiting.sleep, Waiting.wait]
    cases slept with
    | true =>
      rw [if_neg (by simp), if_pos rfl]
      omega
    | false =>
      change spent + (if 0 < a.sleepMs ∧ false = false then a.sleepMs else 0) ≤ spent + a.sleepMs
      split <;> omega
  · dsimp only [Waiting.wait]
    cases slept with
    | true =>
      rw [if_pos rfl] at htotal
      omega
    | false => exact htimed.spent_le

end Calls

/-- **Every system call** keeps the invariant. -/
theorem Waiting.Inv.step (h : s.Inv seen timeout) (pid : Pid) : (s.step pid seen).Inv seen timeout := by
  obtain ⟨⟨pc, locked⟩, round, slept, spent⟩ := s
  cases pc with
  | mkstemp | write | lstatTemp | exiting => exact h.here.elim
  | idle => exact h
  | fail => exact ⟨h.here, h.goesOn⟩
  | unlinkTemp a => exact ⟨⟨h.here.1, .inl h.here.2⟩, h.goesOn⟩
  | rmdir a => exact ⟨⟨h.here.1, .inr (.inl h.here.2)⟩, h.goesOn⟩
  | link a => exact inv_link h pid
  | lstat a => exact inv_lstat h pid
  | read a => exact inv_read h pid
  | kill a inode lockpid => exact inv_kill h pid
  | wait a inode lockpid => exact inv_wait h pid
  | unlinkStale a judged => exact inv_unlinkStale h pid

/-! ### Runs -/

/-- How far a call is from the end of its round. -/
def Pc.rank : Pc → Nat
  | .link _ => 7
  | .lstat _ => 6
  | .read _ => 5
  | .kill _ _ _ => 4
  | .wait _ _ _ => 3
  | .unlinkStale _ _ | .rmdir _ => 2
  | .unlinkTemp _ | .fail => 1
  | .idle | .mkstemp _ | .write _ | .lstatTemp _ | .exiting => 0

theorem Pc.rank_le (pc : Pc) : pc.rank ≤ 7 := by
  cases pc <;> simp [Pc.rank]

/-- A later call of the round, or the first one of the next. -/
def Pc.Before (pc pc' : Pc) : Prop := pc'.rank < pc.rank ∨ ∃ a, pc' = .link a

theorem before_again (pc : Pc) (a : Attempt) (h : 1 < pc.rank) : pc.Before (FileLock.again a) := by
  unfold FileLock.again
  split
  · exact .inl h
  · exact .inr ⟨_, rfl⟩

theorem before_follows {pc pc' : Pc} (hpc : 2 < pc.rank) (h : Follows a pc') (hkill : pc'.rank < 4 ∨ 4 < pc.rank) :
    pc.Before pc' := by
  cases h with
  | kill => exact .inl (by simp only [Pc.rank] at hkill ⊢; omega)
  | unlinkStale => exact .inl hpc
  | again => exact before_again pc a (by omega)

/-- A system call in the loop. -/
theorem proceed_before (pid : Pid) (m : Machine) (env : Env) (pc : Pc) (locked : List Inode) (h : 0 < pc.rank) :
    ∃ m' l, proceed pid m ⟨pc, locked⟩ env = some (m', l) ∧ pc.Before l.pc := by
  cases pc with
  | idle | mkstemp | write | lstatTemp | exiting => cases h
  | fail => exact ⟨_, _, rfl, .inl (by simp [Pc.rank])⟩
  | unlinkTemp a => exact ⟨_, _, rfl, .inl (by simp [Pc.rank])⟩
  | rmdir a => exact ⟨_, _, rfl, .inl (by simp [Pc.rank])⟩
  | link a =>
    by_cases hlink : m.lock = .absent ∧ env.fails = false
    · exact ⟨_, ⟨.unlinkTemp a, locked⟩, if_pos hlink, .inl (by simp [Pc.rank])⟩
    · exact ⟨_, ⟨.lstat a, locked⟩, if_neg hlink, .inl (by simp [Pc.rank])⟩
  | lstat a =>
    refine ⟨_, _, proceed_lstat a locked ⟨(m, env), (m, env), fun _ => (m, env), 0⟩, ?_⟩
    dsimp only
    split
    · exact .inl (by simp [Pc.rank])
    split
    · exact .inl (by simp [Pc.rank])
    · exact .inr ⟨a, rfl⟩
  | read a => exact ⟨_, _, rfl,
    before_follows (by simp [Pc.rank]) (follows_readLock m a env) (.inr (by simp [Pc.rank]))⟩
  | kill a inode lockpid =>
    by_cases hgone : gone m lockpid env = true
    · exact ⟨_, ⟨.unlinkStale a (some inode), locked⟩, if_pos hgone, .inl (by simp [Pc.rank])⟩
    · exact ⟨_, ⟨.wait a inode lockpid, locked⟩, if_neg hgone, .inl (by simp [Pc.rank])⟩
  | wait a inode lockpid =>
    refine ⟨_, _, rfl, ?_⟩
    dsimp only
    rcases verdict_cases a (some inode) (gone m lockpid env) with hverdict | hverdict
    · rw [hverdict]
      exact .inl (by simp [Pc.rank])
    · rw [hverdict]
      exact before_again _ a (by simp [Pc.rank])
  | unlinkStale a judged => exact ⟨_, _, rfl, before_again _ a (by simp [Pc.rank])⟩

/-- A step gets on, in its round or to the next one. -/
theorem Waiting.progress (pid : Pid) (seen : Nat → Seen) (h : 0 < s.process.pc.rank) :
    (s.step pid seen).round = s.round ∧ (s.step pid seen).process.pc.rank < s.process.pc.rank ∨
      (s.step pid seen).round = s.round + 1 := by
  obtain ⟨m, l, hproceed, hbefore⟩ := proceed_before pid ((seen s.round).next s.process.pc).1
    ((seen s.round).next s.process.pc).2 s.process.pc s.process.locked h
  have hround : (s.wait (seen s.round).waited).round = s.round := by
    unfold Waiting.wait
    split <;> rfl
  rw [Waiting.step_eq hproceed]
  obtain ⟨pc, locked⟩ := l
  rcases hbefore with hlt | ⟨a, rfl⟩
  · unfold Waiting.goOn
    split
    · exact .inr (by rw [hround])
    · exact .inl ⟨hround, hlt⟩
  · exact .inr (congrArg (· + 1) hround)

theorem Waiting.Inv.rank_pos (h : s.Inv seen timeout) (hpc : s.process.pc ≠ .idle) : 0 < s.process.pc.rank := by
  have hhere := h.here
  unfold Waiting.At at hhere
  generalize s.process.pc = pc at hhere hpc
  cases pc <;> simp_all [Pc.rank]

theorem Waiting.Inv.spent_le (h : s.Inv seen timeout) : s.spent ≤ timeout := by
  have hhere := h.here
  unfold Waiting.At at hhere
  split at hhere
  · exact hhere.2.spent_le
  · exact hhere.2.1.spent_le
  · exact hhere.2.1.spent_le
  · exact hhere.2.1.spent_le
  · exact hhere.2.1.spent_le
  · have hnonneg := hhere.1.nonneg
    have htotal := hhere.1.total
    split at htotal <;> omega
  all_goals first | exact hhere.1 | exact hhere.elim

end Steps

/-! ### The whole loop -/

section Runs

variable (pid : Pid) (seen : Nat → Seen) (temp : Inode) (locked : List Inode) (timeout : Nat)

/-- After some system calls. -/
def after (n : Nat) : Waiting := (Waiting.step pid seen)^[n] (.start temp timeout locked)

theorem start_inv : (Waiting.start temp timeout locked).Inv seen timeout := by
  refine ⟨⟨rfl, ?_, ?_, ?_⟩, fun i hi => absurd hi (Nat.not_lt_zero i)⟩
  · simp [Waiting.start, files]
  · simp [Waiting.start, files]
  · simp [Waiting.start]

theorem after_inv (n : Nat) : (after pid seen temp locked timeout n).Inv seen timeout := by
  induction n with
  | zero => exact start_inv seen temp locked timeout
  | succ n ih =>
    rw [after, Function.iterate_succ_apply']
    exact ih.step pid

/-- Up to a round that ends the loop there are only so many system calls. -/
theorem ends_of_round {last : Nat} (hends : Ends seen timeout last) :
    ∃ n, (after pid seen temp locked timeout n).process.pc = .idle := by
  by_contra hnever
  rw [not_exists] at hnever
  have hround : ∀ n, (after pid seen temp locked timeout n).round ≤ last := by
    intro n
    by_contra hlarge
    exact (after_inv pid seen temp locked timeout n).goesOn last (not_le.mp hlarge) hends
  -- each call brings this down
  have hmeasure : ∀ n, 8 * (last - (after pid seen temp locked timeout (n + 1)).round) +
        (after pid seen temp locked timeout (n + 1)).process.pc.rank <
      8 * (last - (after pid seen temp locked timeout n).round) +
        (after pid seen temp locked timeout n).process.pc.rank := by
    intro n
    have hnext : after pid seen temp locked timeout (n + 1) =
        (after pid seen temp locked timeout n).step pid seen := Function.iterate_succ_apply' _ n _
    have hprogress := Waiting.progress pid seen
      ((after_inv pid seen temp locked timeout n).rank_pos (hnever n))
    have hle := hround (n + 1)
    have hrank := ((after pid seen temp locked timeout n).step pid seen).process.pc.rank_le
    rw [hnext] at hle ⊢
    omega
  have hbound : ∀ n, 8 * (last - (after pid seen temp locked timeout n).round) +
      (after pid seen temp locked timeout n).process.pc.rank + n ≤
        8 * (last - (after pid seen temp locked timeout 0).round) +
          (after pid seen temp locked timeout 0).process.pc.rank := by
    intro n
    induction n with
    | zero => exact Nat.le_refl _
    | succ n ih =>
      have hless := hmeasure n
      omega
  have hmany := hbound (8 * (last - (after pid seen temp locked timeout 0).round) +
    (after pid seen temp locked timeout 0).process.pc.rank + 1)
  omega

/-- **How long locking takes.** The loop ends, having slept and waited no longer than the timeout, exactly if some
round takes the lock or finds a directory, or the rounds that find a file use up the timeout. -/
theorem gives_up_iff :
    ((∃ n, (after pid seen temp locked timeout n).process.pc = .idle) ∧
        ∀ n, (after pid seen temp locked timeout n).spent ≤ timeout) ↔
      ∃ round, Ends seen timeout round := by
  constructor
  · rintro ⟨⟨n, hidle⟩, -⟩
    have hhere := (after_inv pid seen temp locked timeout n).here
    simp only [Waiting.At, hidle] at hhere
    exact ⟨_, hhere.2⟩
  · rintro ⟨round, hends⟩
    exact ⟨ends_of_round pid seen temp locked timeout hends,
      fun n => (after_inv pid seen temp locked timeout n).spent_le⟩

end Runs

/-- A file system without hard links: `link` fails, and there is no lock file. -/
def noLinks (_ : Nat) : Seen :=
  let m : Machine := ⟨.absent, fun _ => none, 1, fun _ => .alive, fun _ => none, fun _ => false⟩
  ⟨(m, ⟨true, false, false, 0, 0, 0⟩), (m, ⟨false, false, false, 0, 0, 0⟩),
    fun _ => (m, ⟨false, false, false, 0, 0, 0⟩), 0⟩

/-- The loop goes on for ever. -/
theorem no_links_never_ends : ¬ ∃ n, (after 7 noLinks 0 [] 1000 n).process.pc = .idle := by
  rintro ⟨n, hidle⟩
  have hhere := (after_inv 7 noLinks 0 [] 1000 n).here
  simp only [Waiting.At, hidle] at hhere
  rcases hhere.2 with hlinks | hdirectory | ⟨hfile, -⟩
  · cases hlinks.2
  · cases hdirectory.2
  · exact hfile.2.1 rfl

end Goldfish.Files.FileLock
