import Goldfish.Files.Update
import Goldfish.Lib.Trace

/-!
# Goldfish.Files.Dirty

When `writeIfChanged` has nothing to write. `mDirty` is to be false only if the backing
file holds what the object last read from it or wrote to it, and nothing has been set
and no write has failed since (`Session.Saved`).

Three steps can clear the flag, or leave it clear, in another state: a failed `read`, a
write that fails behind the `.new` file, and a write that fails in front of it while the
flag is clear already. A run is right at every point exactly if it has none of them
(`nothing_skipped_iff`).
-/

namespace Goldfish.Files

open Goldfish.Lib

/-- `false` for a write that failed. -/
def IniFile.writeIfChanged (ini : IniFile) (faults : Faults) (dir : Directory) : Bool × IniFile × Directory :=
  if !ini.mDirty then (true, ini, dir) else ini.writeCommon false faults dir

/-! ### Runs -/

/-- The calls of a run, with what the system decides about each. -/
inductive Call where
  /-- `opens`: the backing file can be opened if there is one. -/
  | read (keepComments opens : Bool)
  | set (key : Text) (setter : Setter)
  | setBackingFile (filePath : Text)
  | write (faults : Faults)
  | writeDiscardingEmpty (faults : Faults)
  | writeIfChanged (faults : Faults)

/-- The object and the files, and what is to be remembered of the run. -/
structure Session where
  ini : IniFile
  dir : Directory
  /-- The file of the last successful read or write, and what the file held behind it. -/
  last : Option (Text × Text)
  /-- A value has been set since, or a write has failed. -/
  pending : Bool

namespace Session

variable (s : Session)

/-- A session that begins with a new `IniFile`. -/
def new (backingFilePath : Text) (dir : Directory) : Session where
  ini := IniFile.new backingFilePath
  dir := dir
  last := none
  pending := false

/-- What a call that reads the file finds. -/
def seen (opens : Bool) : Directory := if opens then s.dir else fun _ => none

/-- A read or a write succeeded with this object and these files. -/
def succeeded (ini : IniFile) (dir : Directory) : Session where
  ini := ini
  dir := dir
  last := (dir ini.mBackingFilePath).map fun contents => (ini.mBackingFilePath, contents)
  pending := false

/-- What a write makes of the session. -/
def written : Bool × IniFile × Directory → Session
  | (true, ini, dir) => succeeded ini dir
  | (false, ini, dir) => { s with ini := ini, dir := dir, pending := true }

/-- One call. -/
def step : Call → Session
  | .read keepComments opens =>
    match s.ini.read keepComments (s.seen opens) with
    | (true, ini) => succeeded ini s.dir
    | (false, ini) => { s with ini := ini }
  | .set key setter => { s with ini := s.ini.set key setter, pending := true }
  | .setBackingFile filePath => { s with ini := s.ini.setBackingFile filePath }
  | .write faults => s.written (s.ini.write faults s.dir)
  | .writeDiscardingEmpty faults => s.written (s.ini.writeDiscardingEmpty faults s.dir)
  | .writeIfChanged faults =>
    -- a call that does not write is neither a successful write nor a failed one
    if s.ini.mDirty then s.written (s.ini.writeIfChanged faults s.dir) else s

/-- The backing file holds what the last successful read or write left in it, and there is nothing to
write. -/
def Saved : Prop :=
  s.pending = false ∧
    ∃ contents, s.last = some (s.ini.mBackingFilePath, contents) ∧
      s.dir s.ini.mBackingFilePath = some contents

/-- Where `writeIfChanged` returns true without writing, there is nothing to write. -/
def NothingSkipped : Prop := s.ini.mDirty = false → s.Saved

/-- A write gets through, or fails in front of the `.new` file with the flag set. -/
def WriteKeeps (faults : Faults) : Prop :=
  if s.ini.mBackingFilePath ≠ [] ∧ faults.openNew = true then faults.moveNew = true else s.ini.mDirty = true

/-- **The condition on a step.** -/
def Keeps : Call → Prop
  | .read _ opens => s.ini.input (s.seen opens) ≠ none ∨ s.Saved
  | .set _ _ => True
  | .setBackingFile _ => True
  | .write faults => s.WriteKeeps faults
  | .writeDiscardingEmpty faults => s.WriteKeeps faults
  | .writeIfChanged faults => s.ini.mDirty = true → s.WriteKeeps faults

end Session

/-! ### One step -/

section Step

variable {s : Session}

/-- Parsing does not touch the name of the file. -/
theorem parseLines_mBackingFilePath (keepComments : Bool) (ini : IniFile) (n : Nat) (ls : List Text) :
    (ini.parseLines keepComments n ls).mBackingFilePath = ini.mBackingFilePath := by
  induction ls generalizing ini n with
  | nil => rfl
  | cons line ls ih =>
    rw [IniFile.parseLines]
    cases parseLine line with
    | comment =>
      dsimp only
      rw [ih]
      split <;> rfl
    | invalid => exact ih ini n
    | entry key value => exact ih (ini.emplace key value) (n + 1)

/-- What is read is what the file holds. -/
theorem contents_of_input {opens : Bool} {data : Text} (h : s.ini.input (s.seen opens) = some data) :
    s.dir s.ini.mBackingFilePath = some data := by
  unfold IniFile.input Session.seen at h
  cases opens with
  | false =>
    split at h
    · cases h
    · cases h
  | true =>
    rw [if_pos rfl] at h
    split at h
    · cases h
    · cases hdir : s.dir s.ini.mBackingFilePath with
      | none => simp [hdir] at h
      | some contents =>
        rw [hdir] at h
        dsimp only at h
        split at h
        · cases h
        · exact h

/-- Behind a success, everything is saved. -/
theorem succeeded_saved {ini : IniFile} {dir : Directory} {contents : Text}
    (h : dir ini.mBackingFilePath = some contents) : (Session.succeeded ini dir).Saved := by
  refine ⟨rfl, contents, ?_, h⟩
  rw [Session.succeeded, h]
  rfl

/-- **A write.** -/
theorem written_nothingSkipped_iff (s : Session) (discardEmpty : Bool) (faults : Faults) :
    (s.written (s.ini.writeCommon discardEmpty faults s.dir)).NothingSkipped ↔ s.WriteKeeps faults := by
  -- a write that fails in front of the `.new` file leaves the flag as it is
  have hnone : s.ini.writeCommon discardEmpty faults s.dir = (false, s.ini, s.dir) →
      ((s.written (s.ini.writeCommon discardEmpty faults s.dir)).NothingSkipped ↔ s.ini.mDirty = true) := by
    intro hfail
    rw [hfail]
    simp [Session.written, Session.NothingSkipped, Session.Saved]
  unfold Session.WriteKeeps
  by_cases hpath : s.ini.mBackingFilePath = []
  · rw [if_neg (by simp [hpath])]
    refine hnone ?_
    rw [IniFile.writeCommon, if_pos hpath]
  cases hopen : faults.openNew with
  | false =>
    rw [if_neg (by simp)]
    exact hnone (writeCommon_not_opened s.ini discardEmpty s.dir hopen)
  | true =>
    rw [if_pos ⟨hpath, rfl⟩]
    cases hnew : faults.moveNew with
    | false =>
      rw [writeCommon_not_replaced s.ini discardEmpty s.dir hpath hopen hnew]
      simp [Session.written, Session.NothingSkipped, Session.Saved]
    | true =>
      have hwritten := writeCommon_replaced s.ini discardEmpty s.dir hpath hopen hnew
      have htrue : (s.ini.writeCommon discardEmpty faults s.dir).1 = true := by rw [hwritten]
      have hcontents := (writeCommon_of_true htrue).1
      rw [hwritten] at hcontents ⊢
      exact iff_of_true (fun _ => succeeded_saved hcontents) rfl

/-- **One step.** -/
theorem step_nothingSkipped_iff (h : s.NothingSkipped) (call : Call) :
    (s.step call).NothingSkipped ↔ s.Keeps call := by
  cases call with
  | read keepComments opens =>
    rw [Session.step, Session.Keeps, IniFile.read]
    cases hinput : s.ini.input (s.seen opens) with
    | none => exact ⟨fun hskip => .inr (hskip rfl), fun hkeeps _ => hkeeps.resolve_left (by simp)⟩
    | some data =>
      have hcontents : s.dir (s.ini.clear.parseStream data keepComments).mBackingFilePath = some data := by
        rw [IniFile.parseStream, parseLines_mBackingFilePath]
        exact contents_of_input hinput
      exact iff_of_true (fun _ => succeeded_saved hcontents) (.inl (by simp))
  | set key setter => exact iff_of_true (fun hclean => Bool.noConfusion hclean) trivial
  | setBackingFile filePath => exact iff_of_true (fun hclean => Bool.noConfusion hclean) trivial
  | write faults => exact written_nothingSkipped_iff s false faults
  | writeDiscardingEmpty faults => exact written_nothingSkipped_iff s true faults
  | writeIfChanged faults =>
    rw [Session.step, Session.Keeps]
    cases hdirty : s.ini.mDirty with
    | false => exact iff_of_true h (by simp)
    | true =>
      rw [if_pos rfl, IniFile.writeIfChanged, hdirty]
      exact (written_nothingSkipped_iff s false faults).trans (by simp)

end Step

/-! ### Every run -/

/-- The session after some calls. -/
def Session.run (backingFilePath : Text) (dir : Directory) (calls : List Call) : Session :=
  calls.foldl Session.step (Session.new backingFilePath dir)

/-- **What `writeIfChanged` skips.** At every point of a run where `mDirty` is false, the backing file
holds what the last successful read or write left in it, and nothing has been set and no write has failed
since, exactly if: no read fails with something unsaved; no write fails behind the `.new` file; and no
call to write fails in front of it while the flag is clear. -/
theorem nothing_skipped_iff (backingFilePath : Text) (dir : Directory) (calls : List Call) :
    (∀ pre, pre <+: calls → (Session.run backingFilePath dir pre).NothingSkipped) ↔
      Hist (fun pre call => (Session.run backingFilePath dir pre).Keeps call) calls := by
  refine forall_initial_iff_hist (fun hclean => Bool.noConfusion hclean) (fun pre call h => ?_) calls
  rw [Session.run, List.foldl_append]
  exact step_nothingSkipped_iff h call

/-- The new text could not be put in its place; trying again does nothing, and says that it worked. -/
theorem failed_write_is_forgotten : ¬ ∀ (backingFilePath : Text) (dir : Directory) (calls : List Call),
    (Session.run backingFilePath dir calls).NothingSkipped := by
  intro h
  have hskip := h ['f'.toUInt8] (fun _ => none)
    [.set ['k'.toUInt8] (.setInt 1), .writeIfChanged ⟨true, true, false, true⟩] (by decide)
  exact absurd hskip.1 (by decide)

end Goldfish.Files
