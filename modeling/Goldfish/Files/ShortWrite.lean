import Goldfish.Files.Update

/-!
# Goldfish.Files.ShortWrite

**A `.new` file that does not take the whole text.** The disk has room for so many bytes
of it; a write beyond them sets the error state of the stream, and nothing is written
after that (`Ofstream`). What reaches the file is the beginning of the text
(`putLines_written`).

`writeCommonImpl` looks at the stream when it has opened it and not again, so a short
text is moved over the backing file like a complete one. The configuration survives
exactly if that move fails too, and the backing file could be moved back
(`short_write_iff`).
-/

namespace Goldfish.Files

open Goldfish.Lib

/-! ### The stream -/

/-- A stream to a file: what has reached it, and the error state. -/
structure Ofstream where
  room : Nat
  written : Text
  bad : Bool
  fits : written.length ≤ room

namespace Ofstream

/-- A file that is opened and truncated. -/
def open_ (room : Nat) : Ofstream := ⟨room, [], false, Nat.zero_le room⟩

/-- `outFile << text` -/
def put (outFile : Ofstream) (text : Text) : Ofstream :=
  if outFile.bad then outFile
  else if h : (outFile.written ++ text).length ≤ outFile.room then
    ⟨outFile.room, outFile.written ++ text, false, h⟩
  else ⟨outFile.room, (outFile.written ++ text).take outFile.room, true, List.length_take_le ..⟩

variable {outFile : Ofstream} {a b : Text}

theorem put_of_bad (h : outFile.bad = true) : outFile.put a = outFile := by
  rw [put, if_pos h]

@[simp] theorem put_nil : outFile.put [] = outFile := by
  obtain ⟨room, written, bad, fits⟩ := outFile
  cases bad with
  | true => exact put_of_bad rfl
  | false => simp [put, fits]

/-- Pieces that are written one after the other are one text. -/
theorem put_put : (outFile.put a).put b = outFile.put (a ++ b) := by
  cases hbad : outFile.bad with
  | true => rw [put_of_bad hbad, put_of_bad hbad, put_of_bad hbad]
  | false =>
    have hgood : ¬ outFile.bad = true := by simp [hbad]
    by_cases ha : (outFile.written ++ a).length ≤ outFile.room
    · rw [put, put, put, if_neg hgood, if_neg hgood, dif_pos ha, if_neg Bool.false_ne_true]
      simp only [List.append_assoc]
    · have hab : ¬ (outFile.written ++ (a ++ b)).length ≤ outFile.room := by
        rw [← List.append_assoc, List.length_append]
        omega
      rw [put, put, put, if_neg hgood, if_neg hgood, dif_neg ha, dif_neg hab, if_pos rfl]
      have htake : (outFile.written ++ (a ++ b)).take outFile.room = (outFile.written ++ a).take outFile.room := by
        rw [← List.append_assoc, List.take_append_of_le_length (by omega)]
      simp only [htake]

theorem put_open (room : Nat) (text : Text) : ((open_ room).put text).written = text.take room := by
  unfold put open_
  rw [if_neg Bool.false_ne_true]
  split
  · next h => exact (List.take_of_length_le h).symm
  · rfl

end Ofstream

/-! ### Printing -/

/-- The inner loop of `writeCommonImpl`. -/
def putComments (lineno : Nat) (outFile : Ofstream) : List (Nat × Text) → Ofstream × List (Nat × Text) × Nat
  | [] => (outFile, [], lineno)
  | comment :: comments =>
    if lineno ≥ comment.1 then
      putComments (lineno + 1) ((outFile.put comment.2).put [newline]) comments
    else (outFile, comment :: comments, lineno)

/-- The outer loop of `writeCommonImpl`, behind `lineno` lines. -/
def putLines (discardEmpty : Bool) (mData : Text → Option Text) (outFile : Ofstream) :
    List Text → List (Nat × Text) → Nat → Ofstream
  | [], _, _ => outFile
  | key :: keys, comments, lineno =>
    let (outFile, comments, lineno) := putComments (lineno + 1) outFile comments
    let value := (mData key).getD []
    let outFile :=
      if discardEmpty && value.isEmpty then outFile
      else (((outFile.put key).put [' '.toUInt8, '='.toUInt8, ' '.toUInt8]).put value).put [newline]
    putLines discardEmpty mData outFile keys comments lineno

theorem putComments_eq (lineno : Nat) (outFile : Ofstream) (comments : List (Nat × Text)) :
    putComments lineno outFile comments =
      (outFile.put (unlines newline (writeComments lineno comments).1), (writeComments lineno comments).2) := by
  induction comments generalizing lineno outFile with
  | nil => simp [putComments, writeComments]
  | cons comment comments ih =>
    rw [putComments, writeComments]
    split
    · rw [ih, Ofstream.put_put, Ofstream.put_put, unlines_cons]
      rfl
    · simp

theorem putLines_eq (discardEmpty : Bool) (mData : Text → Option Text) (keys : List Text) (outFile : Ofstream)
    (comments : List (Nat × Text)) (lineno : Nat) :
    putLines discardEmpty mData outFile keys comments lineno =
      outFile.put (unlines newline (writeLines discardEmpty mData keys comments lineno)) := by
  induction keys generalizing outFile comments lineno with
  | nil => simp [putLines, writeLines]
  | cons key keys ih =>
    rw [putLines, writeLines, putComments_eq]
    dsimp only
    rw [ih, unlines_append, unlines_append]
    split
    · rw [Ofstream.put_put, unlines_nil, List.append_nil]
    · simp only [Ofstream.put_put, entryLine, unlines_cons, unlines_nil, List.append_assoc, List.cons_append,
        List.nil_append]

/-! ### The update -/

/-- `writeCommonImpl`, to a disk that has room for so many bytes. Nothing asks for the state of the stream
after the loop, or when it is closed. -/
def IniFile.writeCommonImplTo (ini : IniFile) (discardEmpty : Bool) (filePath : Text) (opens : Bool) (room : Nat)
    (dir : Directory) : Bool × IniFile × Directory :=
  if opens then
    let outFile := putLines discardEmpty ini.mData (Ofstream.open_ room) ini.mOrderList ini.mComments 0
    (true, { ini with mDirty := false }, Function.update dir filePath (some outFile.written))
  else (false, ini, dir)

theorem writeCommonImplTo_eq (ini : IniFile) (discardEmpty : Bool) (filePath : Text) (opens : Bool) (room : Nat)
    (dir : Directory) : ini.writeCommonImplTo discardEmpty filePath opens room dir =
      if opens then
        (true, { ini with mDirty := false },
          Function.update dir filePath (some ((ini.print discardEmpty).take room)))
      else (false, ini, dir) := by
  unfold IniFile.writeCommonImplTo
  dsimp only
  rw [putLines_eq, Ofstream.put_open]
  rfl

/-- `writeCommon` on a disk that has room for so many bytes. -/
def IniFile.writeCommonTo (ini : IniFile) (discardEmpty : Bool) (faults : Faults) (room : Nat) (dir : Directory) :
    Bool × IniFile × Directory :=
  let path := ini.mBackingFilePath
  if path = [] then (false, ini, dir)
  else
    match ini.writeCommonImplTo discardEmpty (iniFileNew path) faults.openNew room dir with
    | (false, ini, dir) => (false, ini, dir)
    | (true, ini, dir) =>
      let dir := dir.remove (iniFileOld path)
      let (deleteOldConfig, dir) := dir.move faults.moveOld path (iniFileOld path)
      match dir.move faults.moveNew (iniFileNew path) path with
      | (false, dir) =>
        let dir := if deleteOldConfig then (dir.move faults.moveBack (iniFileOld path) path).2 else dir
        (false, ini, dir.remove (iniFileNew path))
      | (true, dir) =>
        let dir := if deleteOldConfig then dir.remove (iniFileOld path) else dir
        (true, ini, dir)

variable {ini : IniFile} {discardEmpty : Bool} {faults : Faults} {room : Nat}

/-- Where there is room for the whole text, it is written. -/
theorem writeCommonTo_of_room (hroom : (ini.print discardEmpty).length ≤ room) (dir : Directory) :
    ini.writeCommonTo discardEmpty faults room dir = ini.writeCommon discardEmpty faults dir := by
  have himpl : ∀ filePath opens, ini.writeCommonImplTo discardEmpty filePath opens room dir =
      ini.writeCommonImpl discardEmpty filePath opens dir := by
    intro filePath opens
    rw [writeCommonImplTo_eq, List.take_of_length_le hroom]
    rfl
  unfold IniFile.writeCommonTo IniFile.writeCommon
  dsimp only
  exact himpl (iniFileNew ini.mBackingFilePath) faults.openNew ▸ rfl

/-- The directory when the replacing move has failed: what was moved away may come back. -/
def restored (path printed : Text) (faults : Faults) (dir : Directory) : Directory :=
  if ((prepared path printed dir).move faults.moveOld path (iniFileOld path)).1 then
    (((prepared path printed dir).move faults.moveOld path (iniFileOld path)).2.move faults.moveBack
      (iniFileOld path) path).2
  else ((prepared path printed dir).move faults.moveOld path (iniFileOld path)).2

theorem restored_iff (path printed : Text) (faults : Faults) (dir : Directory) :
    restored path printed faults dir path = dir path ↔
      (faults.moveOld = true → (dir path).isSome → faults.moveBack = true) := by
  unfold restored
  rcases Directory.move_cases (prepared path printed dir) faults.moveOld path (iniFileOld path) with hmove |
    ⟨contents, hold, hcontents, hmove⟩
  · -- nothing was moved away: it could not be, or was not there
    rw [hmove, if_neg Bool.false_ne_true]
    dsimp only
    rw [prepared_path]
    refine iff_of_true rfl fun hold hsome => ?_
    obtain ⟨contents, hcontents⟩ := Option.isSome_iff_exists.mp hsome
    rw [hold, Directory.move_works ((prepared_path path printed dir).trans hcontents)] at hmove
    exact Bool.noConfusion (congrArg Prod.fst hmove)
  · rw [prepared_path] at hcontents
    rw [hmove, if_pos rfl]
    have hgone : (Function.update (Function.update (prepared path printed dir) path none) (iniFileOld path)
        (some contents)) path = none := by
      rw [Function.update_of_ne (iniFileOld_ne path).symm, Function.update_self]
    have haway : (Function.update (Function.update (prepared path printed dir) path none) (iniFileOld path)
        (some contents)) (iniFileOld path) = some contents := Function.update_self ..
    cases hback : faults.moveBack with
    | true =>
      rw [Directory.move_works haway, hcontents]
      exact iff_of_true (Function.update_self ..) fun _ _ => rfl
    | false =>
      rw [Directory.move_fails]
      dsimp only
      rw [hgone, hcontents]
      refine iff_of_false (fun h => ?_) fun h => ?_
      · cases h
      · exact Bool.false_ne_true (h hold rfl)

section Short

variable (hpath : ini.mBackingFilePath ≠ []) (hopen : faults.openNew = true) (dir : Directory)
include hpath hopen

/-- The beginning of the text takes the place of the backing file. -/
theorem writeCommonTo_replaced (hnew : faults.moveNew = true) :
    (ini.writeCommonTo discardEmpty faults room dir).1 = true ∧
      (ini.writeCommonTo discardEmpty faults room dir).2.2 ini.mBackingFilePath =
        some ((ini.print discardEmpty).take room) := by
  have hdisplaced := displaced ini.mBackingFilePath ((ini.print discardEmpty).take room) dir faults.moveOld
  have hmove := Directory.move_works hdisplaced.new ini.mBackingFilePath
  have hreplaced := hdisplaced.replaced.1
  unfold prepared at hmove hreplaced
  unfold IniFile.writeCommonTo
  dsimp only at hreplaced ⊢
  rw [writeCommonImplTo_eq, if_neg hpath, if_pos hopen, hnew]
  dsimp only
  rw [hmove] at hreplaced ⊢
  exact ⟨rfl, hreplaced⟩

/-- The replacing move fails: the configuration is as it was, unless it has been moved away and not back. -/
theorem writeCommonTo_kept_iff (hnew : faults.moveNew = false) :
    (ini.writeCommonTo discardEmpty faults room dir).1 = false ∧
      ((ini.writeCommonTo discardEmpty faults room dir).2.2 ini.mBackingFilePath = dir ini.mBackingFilePath ↔
        (faults.moveOld = true → (dir ini.mBackingFilePath).isSome → faults.moveBack = true)) := by
  have hdisplaced := displaced ini.mBackingFilePath ((ini.print discardEmpty).take room) dir faults.moveOld
  have hmove := Directory.move_fails ((prepared ini.mBackingFilePath ((ini.print discardEmpty).take room) dir).move
    faults.moveOld ini.mBackingFilePath (iniFileOld ini.mBackingFilePath)).2
    (iniFileNew ini.mBackingFilePath) ini.mBackingFilePath
  have hrun : ini.writeCommonTo discardEmpty faults room dir =
      (false, { ini with mDirty := false },
        Directory.remove (restored ini.mBackingFilePath ((ini.print discardEmpty).take room) faults dir)
          (iniFileNew ini.mBackingFilePath)) := by
    unfold restored
    unfold prepared at hmove ⊢
    unfold IniFile.writeCommonTo
    dsimp only
    rw [writeCommonImplTo_eq, if_neg hpath, if_pos hopen, hnew]
    dsimp only
    rw [hmove]
  rw [hrun]
  refine ⟨rfl, ?_⟩
  dsimp only
  rw [Directory.remove_of_ne (iniFileNew_ne ini.mBackingFilePath).symm]
  exact restored_iff _ _ _ _

end Short

/-- **A short write.** However much of the text the `.new` file has taken, `writeCommon` returns false with
the configuration unchanged exactly if the `.new` file cannot be moved over the backing file, and the
backing file, where there is one that has been moved away, is moved back. -/
theorem short_write_iff (ini : IniFile) (discardEmpty : Bool) (faults : Faults) (room : Nat) (dir : Directory)
    (hpath : ini.mBackingFilePath ≠ []) (hopen : faults.openNew = true) :
    let result := ini.writeCommonTo discardEmpty faults room dir
    (result.1 = false ∧ result.2.2 ini.mBackingFilePath = dir ini.mBackingFilePath) ↔
      faults.moveNew = false ∧
        (faults.moveOld = true → (dir ini.mBackingFilePath).isSome → faults.moveBack = true) := by
  dsimp only
  cases hnew : faults.moveNew with
  | true =>
    have htrue : (ini.writeCommonTo discardEmpty faults room dir).1 = true :=
      (writeCommonTo_replaced hpath hopen dir hnew).1
    refine iff_of_false (fun h => ?_) fun h => Bool.noConfusion h.1
    rw [htrue] at h
    exact Bool.noConfusion h.1
  | false =>
    have hfalse : (ini.writeCommonTo discardEmpty faults room dir).1 = false :=
      (writeCommonTo_kept_iff hpath hopen dir hnew).1
    rw [and_iff_right hfalse, (writeCommonTo_kept_iff hpath hopen dir hnew).2, and_iff_right rfl]

/-- A configuration of one value, and a directory that has an older one. -/
def avdConfig : IniFile :=
  (IniFile.new ['a'.toUInt8]).set ['k'.toUInt8] (.setString ['v'.toUInt8])

/-- A directory with an older file. -/
def olderConfig : Directory := Function.update (fun _ => none) ['a'.toUInt8] (some ['o'.toUInt8])

/-- The disk is full and the second move fails, but not the third. -/
theorem full_disk_kept :
    let result := avdConfig.writeCommonTo false ⟨true, true, false, true⟩ 3 olderConfig
    result.1 = false ∧ result.2.2 avdConfig.mBackingFilePath = olderConfig avdConfig.mBackingFilePath :=
  (short_write_iff avdConfig false ⟨true, true, false, true⟩ 3 olderConfig (by decide) rfl).mpr
    ⟨rfl, fun _ _ => rfl⟩

/-- The disk is full: half of the text replaces the configuration. -/
theorem full_disk_replaces :
    let result := avdConfig.writeCommonTo false ⟨true, true, true, true⟩ 3 olderConfig
    3 < (avdConfig.print false).length ∧ result.1 = true ∧
      olderConfig avdConfig.mBackingFilePath = some ['o'.toUInt8] ∧
      result.2.2 avdConfig.mBackingFilePath = some ['k'.toUInt8, ' '.toUInt8, '='.toUInt8] := by
  refine ⟨by decide, rfl, rfl, ?_⟩
  decide

end Goldfish.Files
