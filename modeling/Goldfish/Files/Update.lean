import Goldfish.Files.IniFile
import Mathlib.Tactic.Common

/-!
# Goldfish.Files.Update

Replacing the backing file is **all or nothing** (`writeCommon_all_or_nothing`). The new
text goes to the `.new` file, the backing file is moved to the `.old` file, the `.new`
file takes its place; whatever fails on the way, the user's text is under its own name
or, where it could not be moved back, in the `.old` file.

`Displaced` says what the first move leaves behind; `Displaced.replaced` and
`Displaced.kept` follow the two outcomes of the replacing move from there.
-/

namespace Goldfish.Files

/-! ### Names and single operations -/

theorem iniFileNew_ne (path : Text) : iniFileNew path ≠ path := by
  simp [iniFileNew]

theorem iniFileOld_ne (path : Text) : iniFileOld path ≠ path := by
  simp [iniFileOld]

theorem iniFileNew_ne_old (path : Text) : iniFileNew path ≠ iniFileOld path := by
  rw [iniFileNew, iniFileOld, Ne, List.append_cancel_left_eq]
  decide

namespace Directory

variable {dir : Directory} {source target name contents : Text}

@[simp] theorem remove_self : dir.remove name name = none := by
  simp [remove]

theorem remove_of_ne {other : Text} (h : other ≠ name) : dir.remove name other = dir other := by
  simp [remove, h]

theorem move_missing (works : Bool) (h : dir source = none) : dir.move works source target = (false, dir) := by
  simp [move, h]

theorem move_fails (dir : Directory) (source target : Text) : dir.move false source target = (false, dir) := by
  unfold move
  split <;> rfl

theorem move_works (h : dir source = some contents) (target : Text) :
    dir.move true source target =
      (true, Function.update (Function.update dir source none) target (some contents)) := by
  simp [move, h]

/-- A move succeeds, or it changes nothing. -/
theorem move_cases (dir : Directory) (works : Bool) (source target : Text) :
    dir.move works source target = (false, dir) ∨
      ∃ contents, works = true ∧ dir source = some contents ∧
        dir.move works source target =
          (true, Function.update (Function.update dir source none) target (some contents)) := by
  cases hsource : dir source with
  | none => exact .inl (move_missing works hsource)
  | some contents =>
    cases works with
    | false => exact .inl (move_fails dir source target)
    | true => exact .inr ⟨contents, rfl, rfl, move_works hsource target⟩

end Directory

/-- A move the system does not let succeed fails. -/
theorem Directory.works_of_move {dir : Directory} {works : Bool} {source target : Text}
    (h : (dir.move works source target).1 = true) : works = true := by
  cases works with
  | true => rfl
  | false =>
    rw [move_fails] at h
    exact h

/-! ### The two moves -/

/-- The directory when the new text has been written and a stale `.old` file removed. -/
def prepared (path printed : Text) (dir : Directory) : Directory :=
  Directory.remove (Function.update dir (iniFileNew path) (some printed)) (iniFileOld path)

theorem prepared_path (path printed : Text) (dir : Directory) : prepared path printed dir path = dir path := by
  rw [prepared, Directory.remove_of_ne (iniFileOld_ne path).symm,
    Function.update_of_ne (iniFileNew_ne path).symm]

theorem prepared_new (path printed : Text) (dir : Directory) :
    prepared path printed dir (iniFileNew path) = some printed := by
  rw [prepared, Directory.remove_of_ne (iniFileNew_ne_old path), Function.update_self]

/-- What the first move leaves behind, whether or not it moved the backing file. -/
structure Displaced (path printed : Text) (dir dir' : Directory) (moved : Bool) : Prop where
  new : dir' (iniFileNew path) = some printed
  stays : moved = false → dir' path = dir path
  away : moved = true → ∃ contents, dir path = some contents ∧ dir' (iniFileOld path) = some contents

theorem displaced (path printed : Text) (dir : Directory) (works : Bool) :
    Displaced path printed dir ((prepared path printed dir).move works path (iniFileOld path)).2
      ((prepared path printed dir).move works path (iniFileOld path)).1 := by
  rcases Directory.move_cases (prepared path printed dir) works path (iniFileOld path) with hmove |
    ⟨contents, -, hcontents, hmove⟩
  · rw [hmove]
    exact ⟨prepared_new path printed dir, fun _ => prepared_path path printed dir, by simp⟩
  · rw [hmove]
    rw [prepared_path] at hcontents
    refine ⟨?_, by simp, fun _ => ⟨contents, hcontents, Function.update_self ..⟩⟩
    dsimp only
    rw [Function.update_of_ne (iniFileNew_ne_old path), Function.update_of_ne (iniFileNew_ne path)]
    exact prepared_new path printed dir

variable {path printed : Text} {dir dir₁ : Directory} {moved : Bool}

/-- The replacing move succeeded: the new text is in its place, whether or not the old one was moved away
first. -/
theorem Displaced.replaced (h : Displaced path printed dir dir₁ moved) :
    let dir₂ := (dir₁.move true (iniFileNew path) path).2
    let dir₃ := if moved then dir₂.remove (iniFileOld path) else dir₂
    dir₃ path = some printed ∧ dir₃ (iniFileNew path) = none := by
  rw [Directory.move_works h.new]
  have hpath : (Function.update (Function.update dir₁ (iniFileNew path) none) path (some printed)) path =
      some printed := Function.update_self ..
  have hnew : (Function.update (Function.update dir₁ (iniFileNew path) none) path (some printed))
      (iniFileNew path) = none := by
    rw [Function.update_of_ne (iniFileNew_ne path), Function.update_self]
  dsimp only
  split
  · rw [Directory.remove_of_ne (iniFileOld_ne path).symm, Directory.remove_of_ne (iniFileNew_ne_old path)]
    exact ⟨hpath, hnew⟩
  · exact ⟨hpath, hnew⟩

/-- The replacing move failed: the old text is in its place, unless it could not be moved back either. -/
theorem Displaced.kept (h : Displaced path printed dir dir₁ moved) (moveBack : Bool) :
    let dir₂ := if moved then (dir₁.move moveBack (iniFileOld path) path).2 else dir₁
    let dir₃ := dir₂.remove (iniFileNew path)
    dir₃ path = dir path ∨
      moved = true ∧ moveBack = false ∧ ∃ contents, dir path = some contents ∧
        dir₃ (iniFileOld path) = some contents := by
  dsimp only
  rw [Directory.remove_of_ne (iniFileNew_ne path).symm, Directory.remove_of_ne (iniFileNew_ne_old path).symm]
  cases moved with
  | false => exact .inl (h.stays rfl)
  | true =>
    obtain ⟨contents, hpath, hold⟩ := h.away rfl
    rw [if_pos rfl]
    cases moveBack with
    | false =>
      rw [Directory.move_fails]
      exact .inr ⟨rfl, rfl, contents, hpath, hold⟩
    | true =>
      rw [Directory.move_works hold, hpath]
      exact .inl (Function.update_self ..)

/-! ### The update -/

section WriteCommon

variable (ini : IniFile) (discardEmpty : Bool) {faults : Faults} (dir : Directory)

/-- The backing file moved out of the way, or what is left where that fails. -/
def IniFile.moveOld (works : Bool) : Bool × Directory :=
  (prepared ini.mBackingFilePath (ini.print discardEmpty) dir).move works ini.mBackingFilePath
    (iniFileOld ini.mBackingFilePath)

theorem moveOld_new (works : Bool) :
    (ini.moveOld discardEmpty dir works).2 (iniFileNew ini.mBackingFilePath) =
      some (ini.print discardEmpty) :=
  (displaced ini.mBackingFilePath (ini.print discardEmpty) dir works).new

theorem writeCommon_not_opened (h : faults.openNew = false) :
    ini.writeCommon discardEmpty faults dir = (false, ini, dir) := by
  rw [IniFile.writeCommon, IniFile.writeCommonImpl, h]
  dsimp only
  split <;> rfl

theorem writeCommon_not_replaced (hpath : ini.mBackingFilePath ≠ []) (hopen : faults.openNew = true)
    (h : faults.moveNew = false) :
    ini.writeCommon discardEmpty faults dir =
      (false, { ini with mDirty := false },
        Directory.remove
          (if (ini.moveOld discardEmpty dir faults.moveOld).1 then
            (Directory.move (ini.moveOld discardEmpty dir faults.moveOld).2 faults.moveBack
              (iniFileOld ini.mBackingFilePath) ini.mBackingFilePath).2
          else (ini.moveOld discardEmpty dir faults.moveOld).2)
          (iniFileNew ini.mBackingFilePath)) := by
  have hmove := Directory.move_fails (ini.moveOld discardEmpty dir faults.moveOld).2
    (iniFileNew ini.mBackingFilePath) ini.mBackingFilePath
  unfold IniFile.moveOld prepared at hmove ⊢
  rw [IniFile.writeCommon, IniFile.writeCommonImpl, if_neg hpath, if_pos hopen, h]
  dsimp only
  rw [hmove]

theorem writeCommon_replaced (hpath : ini.mBackingFilePath ≠ []) (hopen : faults.openNew = true)
    (h : faults.moveNew = true) :
    ini.writeCommon discardEmpty faults dir =
      (true, { ini with mDirty := false },
        if (ini.moveOld discardEmpty dir faults.moveOld).1 then
          Directory.remove (Directory.move (ini.moveOld discardEmpty dir faults.moveOld).2 true
            (iniFileNew ini.mBackingFilePath) ini.mBackingFilePath).2 (iniFileOld ini.mBackingFilePath)
        else (Directory.move (ini.moveOld discardEmpty dir faults.moveOld).2 true
          (iniFileNew ini.mBackingFilePath) ini.mBackingFilePath).2) := by
  have hmove := Directory.move_works (moveOld_new ini discardEmpty dir faults.moveOld) ini.mBackingFilePath
  unfold IniFile.moveOld prepared at hmove ⊢
  rw [IniFile.writeCommon, IniFile.writeCommonImpl, if_neg hpath, if_pos hopen, h]
  dsimp only
  rw [hmove]

end WriteCommon

section Outcomes

variable {ini : IniFile} {discardEmpty : Bool} {faults : Faults} {dir : Directory}

/-- A successful write had a backing file. -/
theorem path_of_writeCommon (h : (ini.writeCommon discardEmpty faults dir).1 = true) :
    ini.mBackingFilePath ≠ [] := by
  intro hpath
  rw [IniFile.writeCommon, if_pos hpath] at h
  exact Bool.false_ne_true h

/-- Success: the file could be opened and the replacing move worked. -/
theorem writeCommon_of_true (h : (ini.writeCommon discardEmpty faults dir).1 = true) :
    (ini.writeCommon discardEmpty faults dir).2.2 ini.mBackingFilePath = some (ini.print discardEmpty) ∧
      (ini.writeCommon discardEmpty faults dir).2.2 (iniFileNew ini.mBackingFilePath) = none := by
  have hpath := path_of_writeCommon h
  cases hopen : faults.openNew with
  | false =>
    rw [writeCommon_not_opened ini discardEmpty dir hopen] at h
    exact absurd h Bool.false_ne_true
  | true =>
    cases hnew : faults.moveNew with
    | false =>
      rw [writeCommon_not_replaced ini discardEmpty dir hpath hopen hnew] at h
      exact absurd h Bool.false_ne_true
    | true =>
      rw [writeCommon_replaced ini discardEmpty dir hpath hopen hnew]
      exact (displaced ini.mBackingFilePath (ini.print discardEmpty) dir faults.moveOld).replaced

/-- Failure: nothing was opened, or the replacing move failed. -/
theorem writeCommon_of_false (h : (ini.writeCommon discardEmpty faults dir).1 = false) :
    (ini.writeCommon discardEmpty faults dir).2.2 ini.mBackingFilePath = dir ini.mBackingFilePath ∨
      faults.moveOld = true ∧ faults.moveNew = false ∧ faults.moveBack = false ∧
        ∃ contents, dir ini.mBackingFilePath = some contents ∧
          (ini.writeCommon discardEmpty faults dir).2.2 (iniFileOld ini.mBackingFilePath) = some contents := by
  by_cases hpath : ini.mBackingFilePath = []
  · rw [IniFile.writeCommon, if_pos hpath]
    exact .inl rfl
  · cases hopen : faults.openNew with
    | false =>
      rw [writeCommon_not_opened ini discardEmpty dir hopen]
      exact .inl rfl
    | true =>
      cases hnew : faults.moveNew with
      | true =>
        rw [writeCommon_replaced ini discardEmpty dir hpath hopen hnew] at h
        exact absurd h.symm Bool.false_ne_true
      | false =>
        rw [writeCommon_not_replaced ini discardEmpty dir hpath hopen hnew]
        have hmoved := displaced ini.mBackingFilePath (ini.print discardEmpty) dir faults.moveOld
        rcases hmoved.kept faults.moveBack with h | ⟨hold, hback, h⟩
        · exact .inl h
        · exact .inr ⟨Directory.works_of_move hold, rfl, hback, h⟩

end Outcomes

/-- **All or nothing.** If `writeCommon` returns true, the backing file holds the printed text and no
`.new` file is left. If it returns false, the backing file is what it was, unless it had been moved away
and both the replacing and the reverting move failed; its content is then in the `.old` file. -/
theorem writeCommon_all_or_nothing (ini : IniFile) (discardEmpty : Bool) (faults : Faults)
    (dir : Directory) :
    let result := ini.writeCommon discardEmpty faults dir
    let path := ini.mBackingFilePath
    (result.1 = true →
      result.2.2 path = some (ini.print discardEmpty) ∧ result.2.2 (iniFileNew path) = none) ∧
    (result.1 = false →
      result.2.2 path = dir path ∨
        faults.moveOld = true ∧ faults.moveNew = false ∧ faults.moveBack = false ∧
          ∃ contents, dir path = some contents ∧ result.2.2 (iniFileOld path) = some contents) :=
  ⟨writeCommon_of_true, writeCommon_of_false⟩

end Goldfish.Files
