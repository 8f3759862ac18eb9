import Goldfish.System.Ext4Mounts

/-!
# Goldfish.Adb.KeyPath

Where the adb key is (`adbkey.cpp`): in the directory of the user, or copied there from the
home directory.

A path leads to a place of the disk, two paths perhaps to the same. `getAdbKeyPath` copies
from the directory of the user, where the key is not readable, so it copies nothing
(`copy_file_unreadable`): the disk stays as it is (`getAdbKeyPath_eq`), and a key that is in
the home directory only is not found (`key_found_iff`).
-/

namespace Goldfish.Adb

open Goldfish.Lib Goldfish.System

/-- What is at a place of the disk. -/
inductive DiskEntry where
  /-- Nothing; a file may be made there or not. -/
  | absent (creatable : Bool)
  | file (content : List UInt8) (readable : Bool)
  | other
  deriving DecidableEq, Repr

/-- A disk. Several paths may lead to one place. -/
structure Disk (Place : Type) where
  place : Text → Place
  entry : Place → DiskEntry

namespace Disk

variable {Place : Type}

/-- The empty path leads nowhere. -/
def look (disk : Disk Place) (path : Text) : DiskEntry :=
  if path = [] then .absent false else disk.entry (disk.place path)

/-- A regular file is at the path. -/
def pathIsFile (disk : Disk Place) (path : Text) : Bool :=
  match disk.look path with
  | .file _ _ => true
  | _ => false

/-- What is at the path can be read. -/
def pathCanRead (disk : Disk Place) (path : Text) : Bool :=
  match disk.look path with
  | .file _ readable => readable
  | .other => true
  | .absent _ => false

/-- `fs::copy_file` without options: it copies a file that can be read to where nothing is. -/
def copy_file [DecidableEq Place] (disk : Disk Place) (source target : Text) : Disk Place :=
  match disk.look source, disk.look target with
  | .file content true, .absent true =>
    { disk with entry := Function.update disk.entry (disk.place target) (.file content true) }
  | _, _ => disk

end Disk

/-- What the function asks the system for. -/
structure Directories where
  getUserDirectory : Text
  getHomeDirectory : Text
  getTempDir : Text
  deriving DecidableEq, Repr

/-- Where the `.android` directory of the host is looked for. -/
def Directories.home (dirs : Directories) : Text :=
  if dirs.getHomeDirectory ≠ [] then dirs.getHomeDirectory
  else if dirs.getTempDir ≠ [] then dirs.getTempDir
  else literal "/tmp"

/-- Where the key should be. -/
def Directories.adbKeyPath (dirs : Directories) (adbKeyFileName : Text) : Text :=
  pathAppend dirs.getUserDirectory adbKeyFileName

/-- Where a key may be that can be copied. -/
def Directories.guessedSrcAdbKeyPub (dirs : Directories) (adbKeyFileName : Text) : Text :=
  pathAppend (pathAppend dirs.home (literal ".android")) adbKeyFileName

section KeyPath

variable {Place : Type} [DecidableEq Place]

/-- The path, and the disk then; the empty path is `none`. -/
def getAdbKeyPath (dirs : Directories) (disk : Disk Place) (adbKeyFileName : Text) : Option Text × Disk Place :=
  let adbKeyPath := dirs.adbKeyPath adbKeyFileName
  if disk.pathIsFile adbKeyPath ∧ disk.pathCanRead adbKeyPath then (some adbKeyPath, disk)
  else
    let disk := disk.copy_file adbKeyPath (dirs.guessedSrcAdbKeyPub adbKeyFileName)
    if disk.pathIsFile adbKeyPath ∧ disk.pathCanRead adbKeyPath then (some adbKeyPath, disk) else (none, disk)

end KeyPath

/-! ### The key -/

section Key

variable {Place : Type}

/-- A file that can be read, with this content. -/
def ReadableWith (disk : Disk Place) (path : Text) (content : List UInt8) : Prop :=
  disk.look path = .file content true

/-- There is a file at the path, and it can be read. -/
def Readable (disk : Disk Place) (path : Text) : Prop := ∃ content, ReadableWith disk path content

/-- A key that can be copied to where there is none. -/
def Copyable (disk : Disk Place) (source target : Text) : Prop :=
  Readable disk source ∧ disk.look target = .absent true

/-- A path that begins in a directory. -/
def UnderDirectory (directory path : Text) : Prop := ∃ rest, isAbsolute rest = false ∧ path = pathAppend directory rest

theorem readable_iff {disk : Disk Place} {path : Text} :
    (disk.pathIsFile path = true ∧ disk.pathCanRead path = true) ↔ Readable disk path := by
  unfold Disk.pathIsFile Disk.pathCanRead Readable ReadableWith
  cases disk.look path with
  | absent creatable => simp
  | file content readable => cases readable <;> simp
  | other => simp

variable [DecidableEq Place]

/-- What cannot be read is not copied. -/
theorem copy_file_unreadable {disk : Disk Place} {source : Text} (h : ¬ Readable disk source) (target : Text) :
    disk.copy_file source target = disk := by
  unfold Disk.copy_file
  split
  · rename_i content hlook _
    exact absurd ⟨content, hlook⟩ h
  · rfl

/-- The key is found where it is or can be copied to, a copy is the key of the home directory, and nothing is made
or changed there. -/
structure FindsKey (dirs : Directories) (disk : Disk Place) (name : Text) : Prop where
  found : (getAdbKeyPath dirs disk name).1 = some (dirs.adbKeyPath name) ↔
    Readable disk (dirs.adbKeyPath name) ∨ Copyable disk (dirs.guessedSrcAdbKeyPub name) (dirs.adbKeyPath name)
  copied : ¬ Readable disk (dirs.adbKeyPath name) →
    (getAdbKeyPath dirs disk name).1 = some (dirs.adbKeyPath name) → ∃ content,
      ReadableWith disk (dirs.guessedSrcAdbKeyPub name) content ∧
        ReadableWith (getAdbKeyPath dirs disk name).2 (dirs.adbKeyPath name) content
  frame : ∀ path, UnderDirectory (pathAppend dirs.home (literal ".android")) path →
    (getAdbKeyPath dirs disk name).2.look path = disk.look path

open Classical in
/-- **What the function does.** It finds the key in the directory of the user, and leaves the disk as it is. -/
theorem getAdbKeyPath_eq (dirs : Directories) (disk : Disk Place) (name : Text) :
    getAdbKeyPath dirs disk name =
      (if Readable disk (dirs.adbKeyPath name) then some (dirs.adbKeyPath name) else none, disk) := by
  unfold getAdbKeyPath
  dsimp only
  by_cases hreadable : Readable disk (dirs.adbKeyPath name)
  · rw [if_pos (readable_iff.mpr hreadable), if_pos hreadable]
  · rw [if_neg fun h => hreadable (readable_iff.mp h), copy_file_unreadable hreadable,
      if_neg fun h => hreadable (readable_iff.mp h), if_neg hreadable]

/-- **Finding the key.** It is as it should be exactly if the key can be read in the directory of the user, or
could not be copied there. -/
theorem key_found_iff (dirs : Directories) (disk : Disk Place) (name : Text) :
    FindsKey dirs disk name ↔ Readable disk (dirs.adbKeyPath name) ∨
      ¬ Copyable disk (dirs.guessedSrcAdbKeyPub name) (dirs.adbKeyPath name) := by
  have hcall := getAdbKeyPath_eq dirs disk name
  have hfound : (getAdbKeyPath dirs disk name).1 = some (dirs.adbKeyPath name) ↔
      Readable disk (dirs.adbKeyPath name) := by
    rw [hcall]
    simp
  constructor
  · intro h
    by_contra hnot
    rw [not_or, not_not] at hnot
    exact hnot.1 (hfound.mp (h.found.mpr (.inr hnot.2)))
  · intro hok
    refine ⟨hfound.trans ⟨.inl, fun h => ?_⟩, fun hunreadable h => absurd (hfound.mp h) hunreadable, fun path _ => ?_⟩
    · rcases hok with hreadable | hnone
      · exact hreadable
      · exact h.resolve_right hnone
    · rw [hcall]

end Key

/-- The key is in the home directory only. -/
def keyAtHome : Disk Text where
  place path := path
  entry path := if path = literal "/home/me/.android/adbkey" then .file (literal "key") true else .absent true

theorem key_at_home_not_found :
    let dirs : Directories := ⟨literal "/user", literal "/home/me", literal "/tmp"⟩
    Copyable keyAtHome (dirs.guessedSrcAdbKeyPub (literal "adbkey")) (dirs.adbKeyPath (literal "adbkey")) ∧
      (getAdbKeyPath dirs keyAtHome (literal "adbkey")).1 = none := by
  refine ⟨⟨⟨literal "key", rfl⟩, rfl⟩, rfl⟩

end Goldfish.Adb
