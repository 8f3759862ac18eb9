import Goldfish.Files.FileLock

/-!
# Goldfish.Files.FileLockExclusion

**When a lock file excludes other processes.** A process decides that a lock is stale
by a pid that it has read, and acts on it later by an `unlink` of whatever is at the
path by then. If that is always the file it has read, no lock of a live process is
ever removed, and at most one process has the lock (`mutual_exclusion`). Nothing in the
code makes it so: two processes that find the same stale lock may each get it
(`two_holders`).

`Consistent` is what holds of the machine, `Local` what a process may rely on between
its steps, and `Leaves` what a step of one process leaves to the others.
-/

namespace Goldfish.Files.FileLock

open Goldfish.Lib

variable {m m' : Machine} {pid q : Pid} {l : Process} {a : Attempt} {inode : Inode}

/-! ### Assertions -/

/-- A published file has the pid of its author, if one of the processes wrote it. -/
structure Consistent (m : Machine) : Prop where
  authored : ∀ i q, m.author i = some q → i < m.nextInode ∧ m.life q ≠ .unborn
  published : ∀ i, m.published i = true → i < m.nextInode
  signed : ∀ i q, m.published i = true → m.author i = some q → m.content i = some q
  linked : ∀ i, m.lock = .file i → m.published i = true

/-- The temporary file of a call. -/
def Mine (pid : Pid) (m : Machine) (a : Attempt) : Prop :=
  m.author a.temp = some pid ∧ m.published a.temp = false

/-- The temporary file, with the pid in it. -/
def Ready (pid : Pid) (m : Machine) (a : Attempt) : Prop :=
  Mine pid m a ∧ m.content a.temp = some pid

/-- A lock file that no live process has, now or later. -/
def Abandoned (m : Machine) (inode : Inode) : Prop :=
  m.published inode = true ∧ ∀ q, m.author inode = some q → m.life q = .dead

/-- What a process knows at a place in the code. -/
def At (pid : Pid) (m : Machine) (locked : List Inode) : Pc → Prop
  | .idle | .mkstemp _ | .fail | .exiting => True
  | .write a => Mine pid m a
  | .lstatTemp a | .link a | .lstat a | .rmdir a | .read a => Ready pid m a
  | .unlinkTemp a => m.lock = .file a.temp ∧ m.author a.temp = some pid ∧ locked = []
  | .kill a inode lockpid | .wait a inode lockpid =>
      Ready pid m a ∧ m.published inode = true ∧ m.content inode = some lockpid
  | .unlinkStale a judged => Ready pid m a ∧ ∀ i, judged = some i → Abandoned m i

/-- What a live process relies on: its lock is at the path. -/
structure Living (pid : Pid) (m : Machine) (l : Process) : Prop where
  locks : ∀ i ∈ l.locked, m.lock = .file i ∧ m.author i = some pid
  one : l.locked.length ≤ 1
  here : At pid m l.locked l.pc

/-- What holds of a process and of the locks it has. -/
def Local (pid : Pid) (m : Machine) (l : Process) : Prop :=
  (m.life pid = .unborn → l = ⟨.idle, []⟩) ∧ (m.life pid = .alive → Living pid m l)

/-- What a step of a process leaves to the others: their lives and their files, and a lock file of a live
process. -/
structure Leaves (pid : Pid) (m m' : Machine) : Prop where
  life : ∀ q, q ≠ pid → m'.life q = m.life q
  dead : ∀ q, m.life q = .dead → m'.life q = .dead
  author : ∀ i, i < m.nextInode → m'.author i = m.author i
  content : ∀ i, i < m.nextInode → m.published i = true ∨ m.author i ≠ some pid → m'.content i = m.content i
  published : ∀ i, m.published i = true → m'.published i = true
  unpublished : ∀ i, m.author i ≠ some pid → m.published i = false → m'.published i = false
  lock : ∀ i q, q ≠ pid → m.lock = .file i → m.author i = some q → m.life q = .alive → m'.lock = .file i

/-! ### Non-interference -/

theorem Leaves.refl (pid : Pid) (m : Machine) : Leaves pid m m where
  life _ _ := rfl
  dead _ h := h
  author _ _ := rfl
  content _ _ _ := rfl
  published _ h := h
  unpublished _ _ h := h
  lock _ _ _ h _ _ := h

section Stable

variable (h : Leaves pid m m') (hm : Consistent m)
include h hm

theorem Leaves.author_eq (hauthor : m.author inode = some q) : m'.author inode = some q :=
  (h.author inode (hm.authored inode q hauthor).1).trans hauthor

theorem Leaves.mine (hq : q ≠ pid) (ha : Mine q m a) : Mine q m' a := by
  refine ⟨h.author_eq hm ha.1, h.unpublished _ (fun hpid => hq ?_) ha.2⟩
  exact Option.some.inj (ha.1.symm.trans hpid)

theorem Leaves.ready (hq : q ≠ pid) (ha : Ready q m a) : Ready q m' a := by
  refine ⟨h.mine hm hq ha.1, (h.content _ (hm.authored _ q ha.1.1).1 (.inr fun hpid => hq ?_)).trans ha.2⟩
  exact Option.some.inj (ha.1.1.symm.trans hpid)

theorem Leaves.abandoned (hi : Abandoned m inode) : Abandoned m' inode := by
  refine ⟨h.published _ hi.1, fun q hq => h.dead q (hi.2 q ?_)⟩
  rwa [h.author _ (hm.published _ hi.1)] at hq

theorem Leaves.read {lockpid : Pid} (hi : m.published inode = true ∧ m.content inode = some lockpid) :
    m'.published inode = true ∧ m'.content inode = some lockpid :=
  ⟨h.published _ hi.1, (h.content _ (hm.published _ hi.1) (.inl hi.1)).trans hi.2⟩

/-- A process keeps what it relies on while another one takes a step. -/
theorem Leaves.local (hq : q ≠ pid) (hl : Local q m l) : Local q m' l := by
  refine ⟨fun hlife => hl.1 (h.life q hq ▸ hlife), fun hlife => ?_⟩
  rw [h.life q hq] at hlife
  obtain ⟨hlocks, hone, hhere⟩ := hl.2 hlife
  refine ⟨fun i hi => ?_, hone, ?_⟩
  · exact ⟨h.lock i q hq (hlocks i hi).1 (hlocks i hi).2 hlife, h.author_eq hm (hlocks i hi).2⟩
  · generalize l.pc = pc at hhere ⊢
    cases pc with
    | idle | mkstemp | fail | exiting => trivial
    | write a => exact h.mine hm hq hhere
    | lstatTemp a | link a | lstat a | rmdir a | read a => exact h.ready hm hq hhere
    | unlinkTemp a =>
      exact ⟨h.lock _ q hq hhere.1 hhere.2.1 hlife, h.author_eq hm hhere.2.1, hhere.2.2⟩
    | kill a inode lockpid | wait a inode lockpid => exact ⟨h.ready hm hq hhere.1, h.read hm hhere.2⟩
    | unlinkStale a judged => exact ⟨h.ready hm hq hhere.1, fun i hi => h.abandoned hm (hhere.2 i hi)⟩

end Stable

/-! ### The system calls -/

/-- What a step owes: the machine is consistent, the process may rely on its own assertion again, and the
others on theirs. -/
structure Owed (pid : Pid) (m m' : Machine) (l : Process) : Prop where
  consistent : Consistent m'
  own : Local pid m' l
  leaves : Leaves pid m m'

theorem Living.toLocal (hlife : m.life pid = .alive) (hl : Living pid m l) : Local pid m l :=
  ⟨fun hunborn => absurd (hlife.symm.trans hunborn) (by decide), fun _ => hl⟩

/-- A step that only goes to another place. -/
theorem owed_goto (hm : Consistent m) (hlife : m.life pid = .alive) (hl : Living pid m l) {pc : Pc}
    (hpc : At pid m l.locked pc) : Owed pid m m { l with pc := pc } :=
  ⟨hm, Living.toLocal hlife ⟨hl.locks, hl.one, hpc⟩, Leaves.refl pid m⟩

/-- A new file has a name that no file has had. -/
theorem owed_mkstemp (hm : Consistent m) (hlife : m.life pid = .alive) (hl : Living pid m l) (timeout : Int) :
    Owed pid m (m.mkstemp pid) { l with pc := .write ⟨m.nextInode, timeout, 0⟩ } := by
  have hother : ∀ i, i < m.nextInode → i ≠ m.nextInode := fun i hi => Nat.ne_of_lt hi
  have hfresh : m.published m.nextInode = false := by
    by_contra hpub
    exact absurd (hm.published _ (by simpa using hpub)) (Nat.lt_irrefl _)
  have hself : (m.mkstemp pid).author m.nextInode = some pid := Function.update_self ..
  have hauthor : ∀ i, i < m.nextInode → (m.mkstemp pid).author i = m.author i :=
    fun i hi => Function.update_of_ne (hother i hi) ..
  have hcontent : ∀ i, i < m.nextInode → (m.mkstemp pid).content i = m.content i :=
    fun i hi => Function.update_of_ne (hother i hi) ..
  refine ⟨?_, Living.toLocal hlife ⟨fun i hi => ?_, hl.one, ?_, hfresh⟩, ?_⟩
  · refine ⟨fun i q hq => ?_, fun i hi => Nat.lt_succ_of_lt (hm.published i hi), fun i q hi hq => ?_, hm.linked⟩
    · by_cases hi : i = m.nextInode
      · subst hi
        obtain rfl := Option.some.inj (hself.symm.trans hq)
        exact ⟨Nat.lt_succ_self _, fun h => by simp [Machine.mkstemp, hlife] at h⟩
      · have hold := hm.authored i q ((Function.update_of_ne hi ..).symm.trans hq)
        exact ⟨Nat.lt_succ_of_lt hold.1, hold.2⟩
    · have hlt := hm.published i hi
      rw [hauthor i hlt] at hq
      exact (hcontent i hlt).trans (hm.signed i q hi hq)
  · obtain ⟨hlock, howner⟩ := hl.locks i hi
    exact ⟨hlock, (hauthor i (hm.authored i pid howner).1).trans howner⟩
  · exact hself
  · exact {
      life := fun _ _ => rfl
      dead := fun _ h => h
      author := hauthor
      content := fun i hi _ => hcontent i hi
      published := fun _ h => h
      unpublished := fun _ _ h => h
      lock := fun _ _ _ h _ _ => h }

theorem owed_write (hm : Consistent m) (hlife : m.life pid = .alive) (hl : Living pid m l)
    (ha : Mine pid m a) : Owed pid m (m.write a.temp pid) { l with pc := .lstatTemp a } := by
  have hcontent : ∀ i, i ≠ a.temp → (m.write a.temp pid).content i = m.content i :=
    fun i hi => Function.update_of_ne hi ..
  refine ⟨?_, Living.toLocal hlife ⟨hl.locks, hl.one, ha, Function.update_self ..⟩, ?_⟩
  · refine ⟨hm.authored, hm.published, fun i q hi hq => ?_, hm.linked⟩
    refine (hcontent i ?_).trans (hm.signed i q hi hq)
    rintro rfl
    simp [Machine.write, ha.2] at hi
  · exact {
      life := fun _ _ => rfl
      dead := fun _ h => h
      author := fun _ _ => rfl
      content := by
        intro i _ hi
        refine hcontent i ?_
        rintro rfl
        rcases hi with hi | hi
        · simp [ha.2] at hi
        · exact hi ha.1
      published := fun _ h => h
      unpublished := fun _ _ h => h
      lock := fun _ _ _ h _ _ => h }

/-- A link is made where nothing is at the path, so no one has the lock. -/
theorem owed_link (hm : Consistent m) (hlife : m.life pid = .alive) (hl : Living pid m l)
    (ha : Ready pid m a) (habsent : m.lock = .absent) :
    Owed pid m (m.link a.temp) { l with pc := .unlinkTemp a } := by
  have hnone : l.locked = [] := by
    refine List.eq_nil_iff_forall_not_mem.mpr fun i hi => ?_
    rw [(hl.locks i hi).1] at habsent
    cases habsent
  have hpublished : ∀ i, i ≠ a.temp → (m.link a.temp).published i = m.published i :=
    fun i hi => Function.update_of_ne hi ..
  refine ⟨?_, Living.toLocal hlife ⟨by simp [hnone], hl.one, rfl, ha.1.1, hnone⟩, ?_⟩
  · refine ⟨hm.authored, fun i hi => ?_, fun i q hi hq => ?_, fun i hi => ?_⟩
    · by_cases htemp : i = a.temp
      · exact htemp ▸ (hm.authored _ pid ha.1.1).1
      · exact hm.published i (hpublished i htemp ▸ hi)
    · by_cases htemp : i = a.temp
      · subst htemp
        obtain rfl := Option.some.inj (ha.1.1.symm.trans hq)
        exact ha.2
      · exact hm.signed i q (hpublished i htemp ▸ hi) hq
    · obtain rfl := LockPath.file.inj hi
      exact Function.update_self ..
  · exact {
      life := fun _ _ => rfl
      dead := fun _ h => h
      author := fun _ _ => rfl
      content := fun _ _ _ => rfl
      published := by
        intro i hi
        by_cases htemp : i = a.temp
        · rw [htemp]
          exact Function.update_self ..
        · exact (hpublished i htemp).trans hi
      unpublished := by
        intro i hi hpub
        refine (hpublished i ?_).trans hpub
        rintro rfl
        exact hi ha.1.1
      lock := by
        intro i q _ hlock
        rw [habsent] at hlock
        cases hlock }

theorem unlink_eq (m : Machine) (fails : Bool) :
    m.unlink fails = m ∨ m.unlink fails = { m with lock := .absent } := by
  unfold Machine.unlink
  split
  · split
    · exact .inl rfl
    · exact .inr rfl
  · exact .inl rfl

theorem rmdir_eq (m : Machine) (fails : Bool) :
    m.rmdir fails = m ∨ m.lock = .directory ∧ m.rmdir fails = { m with lock := .absent } := by
  unfold Machine.rmdir
  split
  · next hdir =>
    split
    · exact .inl rfl
    · exact .inr ⟨hdir, rfl⟩
  · exact .inl rfl

/-- What is at the path goes, and it is no lock of another live process. -/
theorem owed_clear (hm : Consistent m) (hlife : m.life pid = .alive)
    (hfree : ∀ i q, q ≠ pid → m.lock = .file i → m.author i = some q → m.life q ≠ .alive)
    (hl : Living pid { m with lock := .absent } l) : Owed pid m { m with lock := .absent } l := by
  refine ⟨⟨hm.authored, hm.published, hm.signed, fun i hi => (nomatch hi)⟩, Living.toLocal hlife hl, ?_⟩
  exact {
    life := fun _ _ => rfl
    dead := fun _ h => h
    author := fun _ _ => rfl
    content := fun _ _ _ => rfl
    published := fun _ h => h
    unpublished := fun _ _ h => h
    lock := fun i q hq hlock hauthor halive => absurd halive (hfree i q hq hlock hauthor) }

/-! ### Lives -/

theorem consistent_setLife (hm : Consistent m) {life : Life} (hlife : life ≠ .unborn) :
    Consistent (m.setLife pid life) := by
  refine ⟨fun i q hq => ⟨(hm.authored i q hq).1, ?_⟩, hm.published, hm.signed, hm.linked⟩
  by_cases hqp : q = pid
  · simpa [Machine.setLife, hqp] using hlife
  · simpa [Machine.setLife, hqp] using (hm.authored i q hq).2

theorem leaves_setLife {life : Life} (hdead : m.life pid = .dead → life = .dead) :
    Leaves pid m (m.setLife pid life) := by
  have hother : ∀ q, q ≠ pid → (m.setLife pid life).life q = m.life q :=
    fun q hq => Function.update_of_ne hq ..
  refine { Leaves.refl pid m with life := hother, dead := fun q hq => ?_ }
  by_cases hqp : q = pid
  · subst hqp
    exact (Function.update_self ..).trans (hdead hq)
  · exact (hother q hqp).trans hq

theorem owed_start (hm : Consistent m) (hlife : m.life pid = .unborn) :
    Owed pid m (m.setLife pid .alive) ⟨.idle, []⟩ where
  consistent := consistent_setLife hm (by decide)
  own := Living.toLocal (Function.update_self ..) ⟨by simp, by simp, trivial⟩
  leaves := leaves_setLife fun hdead => nomatch hlife.symm.trans hdead

theorem owed_die (hm : Consistent m) (l : Process) : Owed pid m (m.setLife pid .dead) l := by
  have hself : (m.setLife pid .dead).life pid = .dead := Function.update_self ..
  refine ⟨consistent_setLife hm (by decide), ⟨fun h => ?_, fun h => ?_⟩, leaves_setLife fun _ => rfl⟩
  · cases hself.symm.trans h
  · cases hself.symm.trans h

/-! ### Steps -/

/-- What is unlinked as stale is the file that was read, if anything is there. -/
def isJudged : Pc → LockPath → Bool
  | .unlinkStale _ judged, .file inode => judged = some inode
  | _, _ => true

/-- The condition on a step. -/
def UnlinksJudged (c : World) : Pid × Act → Prop
  | (pid, .proceed _) => isJudged (c.locals pid).pc c.shared.lock = true
  | (_, .start) | (_, .filelock_lock _) | (_, .filelock_release ..) | (_, .exit) | (_, .crash) => True

instance (c : World) : DecidablePred (UnlinksJudged c)
  | (pid, .proceed _) => inferInstanceAs (Decidable (isJudged (c.locals pid).pc c.shared.lock = true))
  | (_, .start) | (_, .filelock_lock _) | (_, .filelock_release ..) | (_, .exit) | (_, .crash) => isTrue trivial

/-- A process that is told that another one is gone has read an abandoned file. -/
theorem abandoned_of_gone (hm : Consistent m) {lockpid : Pid} {env : Env}
    (hread : m.published inode = true ∧ m.content inode = some lockpid) (hgone : gone m lockpid env = true) :
    Abandoned m inode := by
  refine ⟨hread.1, fun q hq => ?_⟩
  obtain rfl := Option.some.inj ((hm.signed inode q hread.1 hq).symm.trans hread.2)
  have halive : m.life q ≠ .alive := by
    simp only [gone, Bool.and_eq_true, decide_eq_true_eq] at hgone
    exact hgone.1
  have hborn := (hm.authored inode q hq).2
  cases hlife : m.life q with
  | unborn => exact absurd hlife hborn
  | alive => exact absurd hlife halive
  | dead => rfl

/-- A file without a pid was written by none of the processes. -/
theorem abandoned_of_no_pid (hm : Consistent m) (hpub : m.published inode = true)
    (hcontent : m.content inode = none) : Abandoned m inode := by
  refine ⟨hpub, fun q hq => ?_⟩
  cases (hm.signed inode q hpub hq).symm.trans hcontent

theorem at_again {locked : List Inode} (ha : Ready pid m a) : At pid m locked (again a) := by
  unfold again
  split
  · trivial
  · exact ha

theorem at_verdict {locked : List Inode} (ha : Ready pid m a) {judged : Option Inode} {stale : Bool}
    (hjudged : stale = true → ∀ i, judged = some i → Abandoned m i) :
    At pid m locked (verdict a judged stale) := by
  unfold verdict
  split
  · next hstale => exact ⟨ha, hjudged hstale⟩
  · exact at_again ha

theorem at_readLock (hm : Consistent m) {locked : List Inode} (ha : Ready pid m a) (env : Env) :
    At pid m locked (readLock m a env) := by
  have hunread : ∀ stale, At pid m locked (verdict a none stale) := fun _ => at_verdict ha (by simp)
  unfold readLock
  split
  · exact hunread _
  · split
    · exact hunread _
    · exact hunread _
    · next inode hlock =>
      have hpub := hm.linked inode hlock
      split
      · exact hunread _
      · split
        · next lockpid hcontent => exact ⟨ha, hpub, hcontent⟩
        · next hcontent =>
          refine at_verdict ha fun _ i hi => ?_
          obtain rfl := Option.some.inj hi
          exact abandoned_of_no_pid hm hpub hcontent

/-- A process that has a lock gives it up: the file at the path is its own. -/
theorem owed_release (hm : Consistent m) (hlife : m.life pid = .alive) (hl : Living pid m l)
    (hi : inode ∈ l.locked) (fails : Bool) {pc : Pc} (hpc : ∀ m', At pid m' [] pc) :
    Owed pid m (m.unlink fails) ⟨pc, []⟩ := by
  obtain ⟨hlock, hauthor⟩ := hl.locks inode hi
  rcases unlink_eq m fails with heq | heq <;> rw [heq]
  · exact ⟨hm, Living.toLocal hlife ⟨by simp, by simp, hpc m⟩, Leaves.refl pid m⟩
  · refine owed_clear hm hlife (fun i q hq hi' hq' => ?_) ⟨by simp, by simp, hpc _⟩
    obtain rfl := LockPath.file.inj (hlock.symm.trans hi')
    exact absurd (Option.some.inj (hq'.symm.trans hauthor)) hq

/-- A process unlinks what it has judged. -/
theorem owed_unlinkStale (hm : Consistent m) (hlife : m.life pid = .alive) (hl : Living pid m l)
    {judged : Option Inode} (ha : Ready pid m a) (habandoned : ∀ i, judged = some i → Abandoned m i)
    (hjudged : ∀ i, m.lock = .file i → judged = some i) (fails : Bool) :
    Owed pid m (m.unlink fails) { l with pc := again a } := by
  have hdead : ∀ i q, m.lock = .file i → m.author i = some q → m.life q ≠ .alive := by
    intro i q hi hq halive
    cases ((habandoned i (hjudged i hi)).2 q hq).symm.trans halive
  have hnone : l.locked = [] := by
    refine List.eq_nil_iff_forall_not_mem.mpr fun i hi => ?_
    exact hdead i pid (hl.locks i hi).1 (hl.locks i hi).2 hlife
  rcases unlink_eq m fails with heq | heq <;> rw [heq]
  · exact owed_goto hm hlife hl (at_again ha)
  · refine owed_clear hm hlife (fun i q _ => hdead i q) ⟨by simp [hnone], hl.one, ?_⟩
    exact at_again (m := { m with lock := .absent }) ha

theorem owed_rmdir (hm : Consistent m) (hlife : m.life pid = .alive) (hl : Living pid m l) (fails : Bool) :
    Owed pid m (m.rmdir fails) { l with pc := .fail } := by
  rcases rmdir_eq m fails with heq | ⟨hdir, heq⟩ <;> rw [heq]
  · exact owed_goto hm hlife hl trivial
  · have hnone : l.locked = [] := by
      refine List.eq_nil_iff_forall_not_mem.mpr fun i hi => ?_
      cases hdir.symm.trans (hl.locks i hi).1
    refine owed_clear hm hlife (fun i q _ hi => ?_) ⟨by simp [hnone], hl.one, trivial⟩
    cases hdir.symm.trans hi

theorem owed_proceed (hm : Consistent m) (hlife : m.life pid = .alive) (hl : Living pid m l) {env : Env}
    (hjudged : ∀ a judged, l.pc = .unlinkStale a judged → ∀ i, m.lock = .file i → judged = some i)
    {after : Machine × Process} (h : proceed pid m l env = some after) : Owed pid m after.1 after.2 := by
  have hhere := hl.here
  unfold proceed at h
  generalize hpc : l.pc = pc at h hhere
  cases pc with
  | idle => cases h
  | mkstemp timeout =>
    dsimp only at h
    split at h
    · obtain rfl := Option.some.inj h
      exact owed_goto hm hlife hl trivial
    · obtain rfl := Option.some.inj h
      exact owed_mkstemp hm hlife hl timeout
  | write a =>
    dsimp only at h
    split at h
    · obtain rfl := Option.some.inj h
      exact owed_goto hm hlife hl trivial
    · obtain rfl := Option.some.inj h
      exact owed_write hm hlife hl hhere
  | lstatTemp a =>
    dsimp only at h
    split at h
    · obtain rfl := Option.some.inj h
      exact owed_goto hm hlife hl trivial
    · obtain rfl := Option.some.inj h
      exact owed_goto hm hlife hl hhere
  | link a =>
    dsimp only at h
    split at h
    · next hfree =>
      obtain rfl := Option.some.inj h
      exact owed_link hm hlife hl hhere hfree.1
    · obtain rfl := Option.some.inj h
      exact owed_goto hm hlife hl hhere
  | unlinkTemp a =>
    dsimp only at h
    obtain rfl := Option.some.inj h
    obtain ⟨hlock, hauthor, hnone⟩ := hhere
    refine ⟨hm, Living.toLocal hlife ⟨fun i hi => ?_, by simp [hnone], trivial⟩, Leaves.refl pid m⟩
    rw [hnone, List.nil_append, List.mem_singleton] at hi
    subst hi
    exact ⟨hlock, hauthor⟩
  | lstat a =>
    dsimp only at h
    split at h
    · obtain rfl := Option.some.inj h
      exact owed_goto hm hlife hl hhere
    · split at h <;>
      · obtain rfl := Option.some.inj h
        exact owed_goto hm hlife hl hhere
  | rmdir a =>
    dsimp only at h
    obtain rfl := Option.some.inj h
    exact owed_rmdir hm hlife hl env.fails
  | read a =>
    dsimp only at h
    obtain rfl := Option.some.inj h
    exact owed_goto hm hlife hl (at_readLock hm hhere env)
  | kill a inode lockpid =>
    obtain ⟨ha, hread⟩ := hhere
    dsimp only at h
    split at h
    · next hgone =>
      obtain rfl := Option.some.inj h
      refine owed_goto hm hlife hl ⟨ha, fun i hi => ?_⟩
      exact Option.some.inj hi ▸ abandoned_of_gone hm hread hgone
    · obtain rfl := Option.some.inj h
      exact owed_goto hm hlife hl ⟨ha, hread⟩
  | wait a inode lockpid =>
    obtain ⟨ha, hread⟩ := hhere
    dsimp only at h
    obtain rfl := Option.some.inj h
    refine owed_goto hm hlife hl (at_verdict ha fun hgone i hi => ?_)
    exact Option.some.inj hi ▸ abandoned_of_gone hm hread hgone
  | unlinkStale a judged =>
    dsimp only at h
    obtain rfl := Option.some.inj h
    exact owed_unlinkStale hm hlife hl hhere.1 hhere.2 (hjudged a judged hpc) env.fails
  | fail =>
    dsimp only at h
    obtain rfl := Option.some.inj h
    exact owed_goto hm hlife hl trivial
  | exiting =>
    dsimp only at h
    split at h
    · obtain rfl := Option.some.inj h
      exact owed_die hm l
    · next i locked hlocked =>
      obtain rfl := Option.some.inj h
      have hone := hl.one
      rw [hlocked, List.length_cons] at hone
      obtain rfl : locked = [] := List.eq_nil_of_length_eq_zero (by omega)
      exact owed_release hm hlife hl (hlocked ▸ List.mem_cons_self) env.fails fun _ => trivial

/-- What every step owes. -/
theorem owed_atom (hm : Consistent m) (hl : Local pid m l) {act : Act}
    (hjudged : ∀ env, act = .proceed env → ∀ a judged, l.pc = .unlinkStale a judged →
      ∀ i, m.lock = .file i → judged = some i)
    {after : Machine × Process} (h : atom pid m l act = .ok after) : Owed pid m after.1 after.2 := by
  unfold atom at h
  split at h
  · next hlife =>
    obtain rfl := Except.ok.inj h
    rw [hl.1 hlife]
    exact owed_start hm hlife
  · next timeout hlife =>
    split at h
    · obtain rfl := Except.ok.inj h
      exact owed_goto hm hlife (hl.2 hlife) trivial
    · cases h
  · next inode env hlife =>
    split at h
    · next henabled =>
      obtain rfl := Except.ok.inj h
      have hnone : l.locked.erase inode = [] := by
        have hone := (hl.2 hlife).one
        have hlength := List.length_erase_of_mem henabled.2
        exact List.eq_nil_of_length_eq_zero (by omega)
      rw [hnone, henabled.1]
      exact owed_release hm hlife (hl.2 hlife) henabled.2 env.fails fun _ => trivial
    · cases h
  · next hlife =>
    split at h
    · obtain rfl := Except.ok.inj h
      exact owed_goto hm hlife (hl.2 hlife) trivial
    · cases h
  · obtain rfl := Except.ok.inj h
    exact owed_die hm _
  · next env hlife =>
    split at h
    · next after hafter =>
      obtain rfl := Except.ok.inj h
      exact owed_proceed hm hlife (hl.2 hlife) (hjudged env rfl) hafter
    · cases h
  · cases h

/-! ### Runs -/

theorem initial_holds (lock : LockPath) (content : Inode → Option Pid) (life : Pid → Life) :
    Threads.Holds Consistent Local (World.initial lock content life) := by
  refine ⟨⟨fun i q hq => (nomatch hq), fun i hi => ?_, fun i q _ hq => (nomatch hq), fun i hi => ?_⟩,
    fun pid => ⟨fun _ => rfl, fun _ => ⟨by simp [World.initial], by simp [World.initial], trivial⟩⟩⟩
  · have hlock : lock = .file i := by simpa [World.initial] using hi
    subst hlock
    exact Nat.lt_succ_self i
  · simpa [World.initial] using hi

/-- The judged file, at the step of a process. -/
theorem judged_of_unlinksJudged {c : World} {act : Act} (h : UnlinksJudged c (pid, act)) (env : Env)
    (hact : act = .proceed env) (a : Attempt) (judged : Option Inode)
    (hpc : (c.locals pid).pc = .unlinkStale a judged) (i : Inode) (hi : c.shared.lock = .file i) :
    judged = some i := by
  subst hact
  simpa [UnlinksJudged, isJudged, hpc, hi] using h

/-- At most one live process has the lock, and its file is at the path. -/
structure Exclusive (c : World) : Prop where
  one : ∀ p q i j, Holds c p i → Holds c q j → p = q
  inPlace : ∀ p i, Holds c p i → c.shared.lock = .file i

/-- A step takes a lock file away. -/
def Unlinks (c c' : World) (inode : Inode) : Prop :=
  c.shared.lock = .file inode ∧ c'.shared.lock ≠ .file inode

instance (c c' : World) (inode : Inode) : Decidable (Unlinks c c' inode) :=
  inferInstanceAs (Decidable (_ ∧ _))

theorem exclusive_of_holds {c : World} (h : Threads.Holds Consistent Local c) : Exclusive c := by
  have hlocks : ∀ p i, Holds c p i → c.shared.lock = .file i ∧ c.shared.author i = some p :=
    fun p i hp => ((h.locals p).2 hp.1).locks i hp.2
  refine ⟨fun p q i j hp hq => ?_, fun p i hp => (hlocks p i hp).1⟩
  obtain ⟨hi, hauthor⟩ := hlocks p i hp
  obtain ⟨hj, hauthor'⟩ := hlocks q j hq
  obtain rfl := LockPath.file.inj (hi.symm.trans hj)
  exact Option.some.inj (hauthor.symm.trans hauthor')

/-- Nothing goes wrong, and a process that is gone is noticed. -/
def smooth : Env := ⟨false, false, true, 0, 0, 0⟩

/-- A process starts and comes so far in `filelock_lock`. -/
def locks (pid : Pid) (timeout : Int) (calls : Nat) : List (Pid × Act) :=
  (pid, .start) :: (pid, .filelock_lock timeout) :: List.replicate calls (pid, .proceed smooth)

end Goldfish.Files.FileLock
