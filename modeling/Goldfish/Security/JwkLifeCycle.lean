import Goldfish.Security.JwkDirectory
import Goldfish.Security.JwkFilter

/-!
# Goldfish.Security.JwkLifeCycle

**Starting and stopping the observer.** `watching` is the state that the calls of the
observer leave its `FileSystemWatcher` in; there is none if the path was no directory
when the observer was made. `LifeCycle` says what each call is for: `start` has the
watcher run and scans the directory once, `stop` has it stopped, and a call that comes
twice does nothing the second time.

`stop` calls the watcher where the observer was *not* running, so one that runs goes on
(`stop_running`). A life keeps its cycle exactly if no call stops a running observer, and
each start finds a watcher, and keys that make a keyset (`life_cycle_iff`).
-/

namespace Goldfish.Security

open Goldfish.Lib Goldfish.Lib.Prog

variable {jwks : JwkSets} {system : System jwks} {mPathFilter : Path → Bool} {isDir : Bool}

/-! ### The watcher -/

/-- `FileSystemWatcher`, of which only the flag matters. -/
structure FileSystemWatcher where
  mRunning : Bool
deriving DecidableEq, Repr

namespace FileSystemWatcher

/-- `start`, which also tells whether its thread can watch. -/
def start (watcher : FileSystemWatcher) : FileSystemWatcher :=
  if watcher.mRunning then watcher else ⟨true⟩

/-- `stop`. -/
def stop (watcher : FileSystemWatcher) : FileSystemWatcher :=
  if watcher.mRunning then ⟨false⟩ else watcher

@[simp] theorem start_mRunning (watcher : FileSystemWatcher) : watcher.start.mRunning = true := by
  unfold start
  split
  · assumption
  · rfl

@[simp] theorem stop_mRunning (watcher : FileSystemWatcher) : watcher.stop.mRunning = false := by
  unfold stop
  split
  · rfl
  · next h => simpa using h

theorem stop_of_stopped {watcher : FileSystemWatcher} (h : watcher.mRunning = false) :
    watcher.stop = watcher := by simp [stop, h]

/-- `getFileSystemWatcher`. -/
def getFileSystemWatcher (isDir : Bool) : Option FileSystemWatcher :=
  if !isDir then none else some ⟨false⟩

end FileSystemWatcher

/-- A member of a null pointer is called. -/
inductive NullWatcher where
  | stop
deriving DecidableEq, Repr

/-- What an event makes of `mWatcher`: `start` is not called on a null pointer. -/
def observe (mWatcher : Option FileSystemWatcher) : Event jwks → Except NullWatcher (Option FileSystemWatcher)
  | .watcherStart _ => .ok (mWatcher.map FileSystemWatcher.start)
  | .watcherStop =>
      match mWatcher with
      | some watcher => .ok (some watcher.stop)
      | none => .error .stop
  | .scanDirEntries _ | .pathIsFile .. | .pathCanRead .. | .ifstream .. | .remove .. | .publicKeys .. |
    .callback _ => .ok mWatcher

/-- `mWatcher` after the events. -/
def watching (isDir : Bool) (log : List (Event jwks)) : Except NullWatcher (Option FileSystemWatcher) :=
  log.foldlM observe (FileSystemWatcher.getFileSystemWatcher isDir)

/-- The watcher of an observer is running. -/
def isRunning (mWatcher : Option FileSystemWatcher) : Bool := mWatcher.any (·.mRunning)

/-- The directory is scanned. -/
def Event.isScan : Event jwks → Bool
  | .scanDirEntries _ => true
  | .pathIsFile .. | .pathCanRead .. | .ifstream .. | .remove .. | .publicKeys .. | .callback _ |
    .watcherStart _ | .watcherStop => false

/-- How often the directory has been scanned. -/
def scans (log : List (Event jwks)) : Nat := log.countP Event.isScan

/-! ### Lives -/

/-- What the owner of an observer calls. -/
inductive LifeCall where
  | start
  | stop
deriving DecidableEq, Repr

/-- The call as a step of the observer. -/
def LifeCall.action : LifeCall → Action
  | .start => .start
  | .stop => .stop

/-- What a program returns. None of them fails. -/
def value {α : Type} (m : Watching jwks α) (log : List (Event jwks)) : α :=
  match (m log).1 with
  | .ok a => a
  | .error e => e.elim

/-- An observer, and all that has happened. -/
structure Life (jwks : JwkSets) where
  observer : JwkDirectoryObserver jwks
  log : List (Event jwks)

namespace Life

/-- One call, with what it adds to the log. -/
def call (system : System jwks) (mPathFilter : Path → Bool) (life : Life jwks) (c : LifeCall) : Life jwks :=
  ⟨value (life.observer.step system mPathFilter c.action) life.log,
    life.log ++ (life.observer.step system mPathFilter c.action life.log).2⟩

/-- A new observer, after the calls. -/
def after (system : System jwks) (mPathFilter : Path → Bool) (calls : List LifeCall) : Life jwks :=
  calls.foldl (call system mPathFilter) ⟨.initial, []⟩

end Life

/-- The last call was `start`. -/
def started (calls : List LifeCall) : Bool := calls.getLast? = some .start

/-- The keys of the loader make a keyset, unless there are none. -/
def JwkKeyLoader.Notifies (loader : JwkKeyLoader jwks) : Prop :=
  loader.empty = true ∨ ∃ keyset, loader.activeKeySet = .ok keyset

section

variable (system : System jwks) (mPathFilter : Path → Bool) (isDir : Bool)

/-- What the call does that comes after the others. -/
structure LifeCycle (pre : List LifeCall) (c : LifeCall) : Prop where
  running : ∃ mWatcher, watching isDir (Life.after system mPathFilter (pre ++ [c])).log = .ok mWatcher ∧
    isRunning mWatcher = started (pre ++ [c])
  scanned : c = .start → started pre = false →
    scans (Life.after system mPathFilter (pre ++ [c])).log = scans (Life.after system mPathFilter pre).log + 1
  startedTwice : c = .start → started pre = true →
    Life.after system mPathFilter (pre ++ [c]) = Life.after system mPathFilter pre
  stoppedTwice : c = .stop → started pre = false →
    (Life.after system mPathFilter (pre ++ [c])).observer = (Life.after system mPathFilter pre).observer ∧
      watching isDir (Life.after system mPathFilter (pre ++ [c])).log =
        watching isDir (Life.after system mPathFilter pre).log ∧
      scans (Life.after system mPathFilter (pre ++ [c])).log = scans (Life.after system mPathFilter pre).log

/-- There is a watcher, a start of a stopped observer finds keys that make a keyset, and what is stopped
has not been started. -/
def Spares (pre : List LifeCall) : LifeCall → Prop
  | .start => isDir = true ∧ (started pre = false →
      (value (scanJwkPath system (Life.after system mPathFilter pre).observer.mLoadedKeys)
        (Life.after system mPathFilter pre).log).Notifies)
  | .stop => isDir = true ∧ started pre = false

end

/-! ### What the programs do to the watcher -/

section Programs

variable {log log' : List (Event jwks)} {loader : JwkKeyLoader jwks} {path : Path}

theorem watching_concat (e : Event jwks) :
    watching isDir (log ++ [e]) = watching isDir log >>= fun mWatcher => observe mWatcher e := by
  rw [watching, List.foldlM_append]
  exact congrArg _ (funext fun mWatcher => List.foldlM_cons.trans (by cases observe mWatcher e <;> rfl))

theorem scans_concat (e : Event jwks) : scans (log ++ [e]) = scans log + if e.isScan then 1 else 0 := by
  simp [scans, List.countP_append, List.countP_cons]

/-- Neither a scan, nor a call of the watcher. -/
structure Quiet (log log' : List (Event jwks)) : Prop where
  watcher : ∀ isDir, watching isDir log' = watching isDir log
  scans : scans log' = scans log

theorem Quiet.refl : Quiet log log := ⟨fun _ => rfl, rfl⟩

theorem Quiet.trans {log'' : List (Event jwks)} (h : Quiet log log') (h' : Quiet log' log'') :
    Quiet log log'' :=
  ⟨fun isDir => (h'.watcher isDir).trans (h.watcher isDir), h'.scans.trans h.scans⟩

theorem quiet_concat {e : Event jwks} (hwatcher : ∀ mWatcher, observe mWatcher e = .ok mWatcher)
    (hscan : e.isScan = false) : Quiet log (log ++ [e]) := by
  constructor
  case watcher =>
    intro isDir
    rw [watching_concat]
    simp only [hwatcher]
    cases watching isDir log <;> rfl
  case scans => rw [scans_concat, hscan]; rfl

/-- A call that neither scans nor is one of the watcher. -/
theorem runs_quiet {α : Type} {answer : List (Event jwks) → α} {event : α → Event jwks}
    (hwatcher : ∀ a mWatcher, observe mWatcher (event a) = .ok mWatcher) (hscan : ∀ a, (event a).isScan = false) :
    Runs (.ask answer event) log fun _ log' => Quiet log log' :=
  safe_ask (fun _ => trivial) fun a => quiet_concat (hwatcher a) (hscan a)

theorem quiet_deleteFile : Runs (system.deleteFile path) log fun _ log' => Quiet log log' := by
  refine safe_bind (runs_quiet (fun _ _ => rfl) fun _ => rfl) fun isFile log₁ h₁ => ?_
  refine safe_ite (fun _ => safe_pure h₁) fun _ => ?_
  exact (runs_quiet (fun _ _ => rfl) fun _ => rfl).mono fun _ _ h₂ => h₁.trans h₂

theorem quiet_readFile : Runs (readFile system path) log fun _ log' => Quiet log log' := by
  refine safe_bind (runs_quiet (fun _ _ => rfl) fun _ => rfl) fun isFile log₁ h₁ => ?_
  refine safe_ite (fun _ => safe_pure h₁) fun _ => ?_
  refine safe_bind (runs_quiet (fun _ _ => rfl) fun _ => rfl) fun canRead log₂ h₂ => ?_
  refine safe_ite (fun _ => safe_pure (h₁.trans h₂)) fun _ => ?_
  exact safe_bind (runs_quiet (fun _ _ => rfl) fun _ => rfl) fun _ _ h₃ => safe_pure (h₁.trans (h₂.trans h₃))

theorem quiet_add : Runs (loader.add system path) log fun _ log' => Quiet log log' := by
  refine safe_bind quiet_readFile fun read log₁ h₁ => ?_
  cases read with
  | error failure => exact safe_pure h₁
  | ok text =>
    dsimp only
    cases loadKeys jwks path text with
    | error failure => exact safe_pure h₁
    | ok keys => exact safe_bind (runs_quiet (fun _ _ => rfl) fun _ => rfl) fun _ _ h₂ => safe_pure (h₁.trans h₂)

theorem quiet_scanEntry : Runs (scanEntry system loader path) log fun _ log' => Quiet log log' := by
  refine safe_bind quiet_add fun added log₁ h₁ => safe_ite (fun _ => ?_) fun _ => safe_pure h₁
  exact safe_bind quiet_deleteFile fun _ _ h₂ => safe_pure (h₁.trans h₂)

/-- A scan asks for the entries once. -/
theorem runs_scan : Runs (scanJwkPath system loader) log fun _ log' =>
    (∀ isDir, watching isDir log' = watching isDir log) ∧ scans log' = scans log + 1 := by
  refine safe_bind (safe_ask (fun _ => trivial) (Q := fun _ log₁ =>
    (∀ isDir, watching isDir log₁ = watching isDir log) ∧ scans log₁ = scans log + 1)
    fun entries => ⟨fun isDir => ?_, ?_⟩) fun entries log₁ h₁ => ?_
  · rw [watching_concat]
    cases watching isDir log <;> rfl
  · rw [scans_concat]
    rfl
  · refine safe_foldlM h₁ fun path _ loader' log₂ h₂ => quiet_scanEntry.mono fun _ _ h₃ => ?_
    exact ⟨fun isDir => (h₃.watcher isDir).trans (h₂.1 isDir), h₃.scans.trans h₂.2⟩

theorem quiet_notify : Runs (notify loader) log fun notified log' =>
    Quiet log log' ∧ (notified.ok = true ↔ loader.Notifies) := by
  unfold notify
  refine safe_ite (fun hempty => ?_) fun hkeys => ?_
  · exact safe_bind (runs_quiet (fun _ _ => rfl) fun _ => rfl) fun _ _ h =>
      safe_pure ⟨h, iff_of_true rfl (.inl hempty)⟩
  · unfold JwkKeyLoader.Notifies
    cases hset : loader.activeKeySet with
    | error failure =>
      refine safe_pure ⟨Quiet.refl, iff_of_false ?_ ?_⟩
      · rw [Status.ok_of_failure failure]
        exact Bool.false_ne_true
      · rintro (hempty | ⟨keyset, hok⟩)
        · exact hkeys hempty
        · cases hok
    | ok keyset =>
      exact safe_bind (runs_quiet (fun _ _ => rfl) fun _ => rfl) fun _ _ h =>
        safe_pure ⟨h, iff_of_true rfl (.inr ⟨keyset, rfl⟩)⟩

/-- The directory is scanned again if the keys make no keyset. -/
theorem runs_notified : Runs (notifyKeysetUpdated system loader) log fun _ log' =>
    (∀ isDir, watching isDir log' = watching isDir log) ∧ (scans log' = scans log ↔ loader.Notifies) := by
  refine safe_bind quiet_notify fun notified log₁ ⟨h₁, hok⟩ => safe_ite (fun hfailed => ?_) fun hnotified => ?_
  · refine safe_bind runs_scan fun rescanned log₂ ⟨h₂, hscans⟩ => ?_
    refine safe_bind quiet_notify fun _ log₃ ⟨h₃, _⟩ => safe_pure ⟨fun isDir => ?_, iff_of_false ?_ ?_⟩
    · exact (h₃.watcher isDir).trans ((h₂ isDir).trans (h₁.watcher isDir))
    · rw [h₃.scans, hscans, h₁.scans]
      exact Nat.succ_ne_self _
    · rw [← hok]
      simpa using hfailed
  · exact safe_pure ⟨h₁.watcher, iff_of_true h₁.scans (hok.mp (by simpa using hnotified))⟩

/-- What is returned is the value of the program. -/
theorem value_of_runs {α : Type} {m : Watching jwks α} {Q : α → List (Event jwks) → Prop}
    (h : Runs m log Q) : Q (value m log) (log ++ (m log).2) := by
  refine h.2 _ ?_
  unfold value
  cases hrun : (m log).1 with
  | ok a => rfl
  | error e => exact e.elim

theorem Runs.value {α : Type} {m : Watching jwks α} {Q : α → List (Event jwks) → Prop} (h : Runs m log Q) :
    Runs m log fun a log' => Q a log' ∧ a = Security.value m log := by
  refine ⟨h.1, fun a ha => ⟨h.2 a ha, ?_⟩⟩
  unfold Security.value
  rw [ha]

variable {observer : JwkDirectoryObserver jwks}

theorem start_stopped (system : System jwks) (mPathFilter : Path → Bool) (hstopped : observer.mRunning = false) :
    Runs (observer.step system mPathFilter .start) log fun observer' log' =>
      observer'.mRunning = true ∧
        (∀ isDir, watching isDir log' =
          (fun mWatcher => mWatcher.map FileSystemWatcher.start) <$> watching isDir log) ∧
        (scans log' = scans log + 1 ↔ (value (scanJwkPath system observer.mLoadedKeys) log).Notifies) := by
  have hprogram : Runs (observer.start system) log fun result log' => result.2.mRunning = true ∧
      (∀ isDir, watching isDir log' =
        (fun mWatcher => mWatcher.map FileSystemWatcher.start) <$> watching isDir log) ∧
      (scans log' = scans log + 1 ↔ (value (scanJwkPath system observer.mLoadedKeys) log).Notifies) := by
    unfold JwkDirectoryObserver.start
    rw [if_neg (by simp [hstopped])]
    refine safe_bind (Runs.value runs_scan) fun loader log₁ ⟨⟨h₁, hscans⟩, hloader⟩ => ?_
    refine safe_bind runs_notified fun loaded log₂ ⟨h₂, hnotifies⟩ => ?_
    refine safe_bind (safe_ask (fun _ => trivial) (Q := fun _ log₃ => (∀ isDir, watching isDir log₃ =
      (fun mWatcher => mWatcher.map FileSystemWatcher.start) <$> watching isDir log) ∧ scans log₃ = scans log₂)
      fun answer => ⟨fun isDir => ?_, ?_⟩) fun answer log₃ ⟨h₃, hscans₃⟩ => safe_pure ⟨rfl, h₃, ?_⟩
    · rw [watching_concat, h₂, h₁]
      cases watching isDir log <;> rfl
    · rw [scans_concat]
      rfl
    · rw [hscans₃, ← hscans, hnotifies, hloader]
  exact safe_bind hprogram fun _ _ h => safe_pure h

theorem start_running (hrunning : observer.mRunning = true) :
    observer.step system mPathFilter .start log = (.ok observer, []) := by
  show (observer.start system >>= fun started => pure started.2) log = _
  have hstart : observer.start system log = (.ok (false, observer), []) := by
    rw [JwkDirectoryObserver.start, if_pos hrunning]
    rfl
  rw [bind_run_ok hstart]
  rfl

theorem stop_running (hrunning : observer.mRunning = true) :
    observer.step system mPathFilter .stop log = (.ok .initial, []) := by
  show observer.stop log = _
  rw [JwkDirectoryObserver.stop, if_pos hrunning]
  rfl

theorem stop_stopped (hstopped : observer.mRunning = false) :
    observer.step system mPathFilter .stop log = (.ok .initial, [.watcherStop]) := by
  show observer.stop log = _
  rw [JwkDirectoryObserver.stop, if_neg (by simp [hstopped])]
  rfl

end Programs

/-! ### Lives keep their cycle -/

@[simp] theorem started_nil : started [] = false := rfl

@[simp] theorem started_concat (pre : List LifeCall) (c : LifeCall) : started (pre ++ [c]) = decide (c = .start) := by
  simp [started]

theorem Life.after_concat (pre : List LifeCall) (c : LifeCall) :
    after system mPathFilter (pre ++ [c]) = (after system mPathFilter pre).call system mPathFilter c := by
  simp [after, List.foldl_append]

/-- The observer and its watcher agree with the last call. -/
structure Agrees (isDir : Bool) (life : Life jwks) (running : Bool) : Prop where
  observer : life.observer.mRunning = running
  cleared : running = false → life.observer = .initial
  watcher : ∃ mWatcher, watching isDir life.log = .ok mWatcher ∧ mWatcher.isSome = isDir ∧
    isRunning mWatcher = running

theorem agrees_new : Agrees isDir (Life.after system mPathFilter []) false where
  observer := rfl
  cleared := fun _ => rfl
  watcher := ⟨_, rfl, by cases isDir <;> rfl, by cases isDir <;> rfl⟩

section Agrees

variable (system mPathFilter) {life : Life jwks}

/-- A start of a running observer does nothing. -/
theorem Agrees.start_running (h : Agrees isDir life true) :
    life.call system mPathFilter .start = life ∧ isDir = true := by
  obtain ⟨mWatcher, -, hdir, hrunning⟩ := h.watcher
  constructor
  · simp only [Life.call, LifeCall.action, value, Security.start_running h.observer, List.append_nil]
  · cases mWatcher with
    | none => cases hrunning
    | some watcher => exact hdir.symm

/-- A start of a stopped observer has the watcher run, if there is one. -/
theorem Agrees.start_stopped (h : Agrees isDir life false) :
    (life.call system mPathFilter .start).observer.mRunning = true ∧
      (∃ mWatcher, watching isDir (life.call system mPathFilter .start).log = .ok mWatcher ∧
        mWatcher.isSome = isDir ∧ isRunning mWatcher = isDir) ∧
      (scans (life.call system mPathFilter .start).log = scans life.log + 1 ↔
        (value (scanJwkPath system life.observer.mLoadedKeys) life.log).Notifies) := by
  obtain ⟨mWatcher, hwatching, hdir, -⟩ := h.watcher
  obtain ⟨hobserver, hwatcher, hscans⟩ :=
    value_of_runs (Security.start_stopped system mPathFilter h.observer)
  refine ⟨hobserver, ⟨mWatcher.map FileSystemWatcher.start, ?_, ?_, ?_⟩, hscans⟩
  · exact (hwatcher isDir).trans (by rw [hwatching]; rfl)
  · rw [Option.isSome_map, hdir]
  · cases mWatcher with
    | none => exact hdir
    | some watcher => simpa [isRunning] using hdir

/-- A stop of a running observer leaves the watcher as it is. -/
theorem Agrees.stop_running (h : Agrees isDir life true) :
    watching isDir (life.call system mPathFilter .stop).log = watching isDir life.log := by
  simp only [Life.call, LifeCall.action, Security.stop_running h.observer, List.append_nil]

/-- A stop of a stopped observer calls the watcher, which has stopped before. -/
theorem Agrees.stop_stopped (h : Agrees isDir life false) :
    (life.call system mPathFilter .stop).observer = life.observer ∧
      scans (life.call system mPathFilter .stop).log = scans life.log ∧
      (isDir = true → watching isDir (life.call system mPathFilter .stop).log = watching isDir life.log) ∧
      (isDir = false → watching isDir (life.call system mPathFilter .stop).log = .error .stop) := by
  obtain ⟨mWatcher, hwatching, hdir, hrunning⟩ := h.watcher
  have hlog : (life.call system mPathFilter .stop).log = life.log ++ [.watcherStop] := by
    simp only [Life.call, LifeCall.action, Security.stop_stopped h.observer]
  have hafter : watching isDir (life.call system mPathFilter .stop).log =
      observe mWatcher (.watcherStop : Event jwks) := by
    rw [hlog, watching_concat, hwatching]
    rfl
  refine ⟨?_, ?_, fun hpresent => ?_, fun habsent => ?_⟩
  · rw [h.cleared rfl]
    simp only [Life.call, LifeCall.action, value, Security.stop_stopped h.observer]
  · rw [hlog, scans_concat]
    rfl
  · rw [hafter, hwatching]
    cases mWatcher with
    | none => simp [hpresent] at hdir
    | some watcher => rw [observe, FileSystemWatcher.stop_of_stopped hrunning]
  · rw [hafter]
    cases mWatcher with
    | none => rfl
    | some watcher => simp [habsent] at hdir

end Agrees

theorem lifeCycle_iff_spares {pre : List LifeCall} (c : LifeCall)
    (h : Agrees isDir (Life.after system mPathFilter pre) (started pre)) :
    LifeCycle system mPathFilter isDir pre c ↔ Spares system mPathFilter isDir pre c := by
  cases c with
  | start =>
    cases hstarted : started pre with
    | true =>
      rw [hstarted] at h
      obtain ⟨hsame, hdir⟩ := h.start_running system mPathFilter
      obtain ⟨mWatcher, hwatching, -, hrunning⟩ := h.watcher
      refine iff_of_true ?_ ⟨hdir, fun hstopped => by simp [hstarted] at hstopped⟩
      constructor
      case running =>
        rw [Life.after_concat, hsame]
        exact ⟨mWatcher, hwatching, by simpa using hrunning⟩
      case scanned => exact fun _ hstopped => by simp [hstarted] at hstopped
      case startedTwice => exact fun _ _ => by rw [Life.after_concat, hsame]
      case stoppedTwice => exact fun hstop => by cases hstop
    | false =>
      rw [hstarted] at h
      obtain ⟨-, ⟨mWatcher, hwatching, -, hrunning⟩, hscans⟩ :=
        h.start_stopped system mPathFilter
      constructor
      · intro hcycle
        obtain ⟨mWatcher', hwatching', hrunning'⟩ := hcycle.running
        rw [Life.after_concat, hwatching] at hwatching'
        obtain rfl := Except.ok.inj hwatching'
        have hscanned := hcycle.scanned rfl hstarted
        rw [Life.after_concat] at hscanned
        exact ⟨by simpa [hrunning] using hrunning', fun _ => hscans.mp hscanned⟩
      · intro ⟨hdir, hkeys⟩
        constructor
        case running =>
          rw [Life.after_concat]
          exact ⟨mWatcher, hwatching, by simpa [hdir] using hrunning⟩
        case scanned =>
          intro _ _
          rw [Life.after_concat]
          exact hscans.mpr (hkeys hstarted)
        case startedTwice => exact fun _ hrunning => by simp [hstarted] at hrunning
        case stoppedTwice => exact fun hstop => by cases hstop
  | stop =>
    cases hstarted : started pre with
    | true =>
      rw [hstarted] at h
      obtain ⟨mWatcher, hwatching, -, hrunning⟩ := h.watcher
      refine iff_of_false (fun hcycle => ?_) fun hspares => by simp [hspares.2] at hstarted
      obtain ⟨mWatcher', hwatching', hrunning'⟩ := hcycle.running
      rw [Life.after_concat, h.stop_running system mPathFilter, hwatching] at hwatching'
      obtain rfl := Except.ok.inj hwatching'
      simp [hrunning] at hrunning'
    | false =>
      rw [hstarted] at h
      obtain ⟨mWatcher, hwatching, -, hrunning⟩ := h.watcher
      obtain ⟨hobserver, hscans, hpresent, habsent⟩ :=
        h.stop_stopped system mPathFilter
      constructor
      · intro hcycle
        obtain ⟨mWatcher', hwatching', -⟩ := hcycle.running
        refine ⟨?_, hstarted⟩
        cases hdir : isDir with
        | true => rfl
        | false =>
          rw [Life.after_concat, habsent hdir] at hwatching'
          cases hwatching'
      · intro ⟨hdir, _⟩
        constructor
        case running =>
          rw [Life.after_concat, hpresent hdir]
          exact ⟨mWatcher, hwatching, by simpa using hrunning⟩
        case scanned => exact fun hstart => by cases hstart
        case startedTwice => exact fun hstart => by cases hstart
        case stoppedTwice =>
          intro _ _
          rw [Life.after_concat]
          exact ⟨hobserver, hpresent hdir, hscans⟩

/-- A call that meets its condition leaves the observer and its watcher in agreement. -/
theorem Agrees.call {pre : List LifeCall} {c : LifeCall}
    (h : Agrees isDir (Life.after system mPathFilter pre) (started pre))
    (hspares : Spares system mPathFilter isDir pre c) :
    Agrees isDir (Life.after system mPathFilter (pre ++ [c])) (started (pre ++ [c])) := by
  rw [Life.after_concat, started_concat]
  cases c with
  | start =>
    cases hstarted : started pre with
    | true =>
      rw [hstarted] at h
      rw [(h.start_running system mPathFilter).1]
      exact h
    | false =>
      rw [hstarted] at h
      obtain ⟨hobserver, ⟨mWatcher, hwatching, hsome, hrunning⟩, -⟩ :=
        h.start_stopped system mPathFilter
      exact ⟨hobserver, fun hstopped => by simp at hstopped, mWatcher, hwatching, hsome, hrunning.trans hspares.1⟩
  | stop =>
    rw [hspares.2] at h
    obtain ⟨hobserver, -, hpresent, -⟩ := h.stop_stopped system mPathFilter
    obtain ⟨mWatcher, hwatching, hsome, hrunning⟩ := h.watcher
    refine ⟨?_, fun _ => hobserver.trans (h.cleared rfl), mWatcher, ?_, hsome, hrunning⟩
    · rw [hobserver]
      exact h.observer
    · rw [hpresent hspares.1]
      exact hwatching

/-- **The life cycle of an observer.** Every call of a life does what it is for exactly if there is a
watcher, a start of a stopped observer finds keys that make a keyset, and no call stops a running observer. -/
theorem life_cycle_iff (system : System jwks) (mPathFilter : Path → Bool) (isDir : Bool)
    (calls : List LifeCall) :
    Hist (LifeCycle system mPathFilter isDir) calls ↔ Hist (Spares system mPathFilter isDir) calls :=
  hist_iff_hist (I := fun pre => Agrees isDir (Life.after system mPathFilter pre) (started pre)) agrees_new
    (fun _ c h => lifeCycle_iff_spares c h) (fun _ _ h hspares => h.call hspares) calls

/-- What one call runs. -/
theorem Life.call_run (life : Life jwks) (c : LifeCall) :
    life.observer.step system mPathFilter c.action life.log =
      (.ok (life.call system mPathFilter c).observer,
        (life.observer.step system mPathFilter c.action life.log).2) := by
  refine Prod.ext ?_ rfl
  show _ = Except.ok (value _ _)
  unfold value
  cases (life.observer.step system mPathFilter c.action life.log).1 with
  | ok observer => rfl
  | error e => exact e.elim

theorem Life.calls_run (system : System jwks) (mPathFilter : Path → Bool) (calls : List LifeCall) (life : Life jwks) :
    ∃ es, (calls.map LifeCall.action).foldlM (JwkDirectoryObserver.step system mPathFilter) life.observer life.log =
        (.ok (calls.foldl (call system mPathFilter) life).observer, es) ∧
      (calls.foldl (call system mPathFilter) life).log = life.log ++ es := by
  induction calls generalizing life with
  | nil => exact ⟨[], rfl, (List.append_nil _).symm⟩
  | cons c calls ih =>
    obtain ⟨es, hrun, hlog⟩ := ih (life.call system mPathFilter c)
    rw [List.map_cons, List.foldlM_cons, bind_run_ok (life.call_run c)]
    refine ⟨_, congrArg (Prod.mk · _) (congrArg Prod.fst hrun), ?_⟩
    have hes : es = _ := (congrArg Prod.snd hrun).symm
    rw [List.foldl_cons, hlog, hes]
    exact List.append_assoc ..

/-- A life is a run of the observer. -/
theorem life_is_run (system : System jwks) (mPathFilter : Path → Bool) (calls : List LifeCall) :
    JwkDirectoryObserver.run system mPathFilter (calls.map LifeCall.action) [] =
      (.ok (Life.after system mPathFilter calls).observer, (Life.after system mPathFilter calls).log) := by
  obtain ⟨es, hrun, hlog⟩ := Life.calls_run system mPathFilter calls ⟨.initial, []⟩
  rw [Life.after, hlog]
  exact hrun

/-- The observer is started and stopped: its watcher still runs. -/
theorem stopped_watcher_runs :
    let life := Life.after keyAndDirectory acceptJwkExtOnly [.start, .stop]
    (∃ mWatcher, watching true life.log = .ok mWatcher ∧ isRunning mWatcher = true) ∧
      life.observer.mRunning = false ∧
      ¬ Hist (LifeCycle keyAndDirectory acceptJwkExtOnly true) [.start, .stop] := by
  refine ⟨⟨_, rfl, rfl⟩, rfl, fun h => ?_⟩
  obtain ⟨mWatcher, hwatching, hrunning⟩ := (h [.start] .stop [] rfl).running
  obtain rfl := Except.ok.inj hwatching
  cases hrunning

end Goldfish.Security
