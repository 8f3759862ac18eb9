import Goldfish.Lib.CStrings
import Goldfish.System.StorageCapacity

/-!
# Goldfish.System.Ext4Mounts

Whether a path is on an ext4 file system (`System.cpp`), by the directories in the table
of mounts.

`dir_contains_path` tells whether the components of its second argument are a prefix of
those of the first one (`dir_contains_path_iff`). `pathFileSystemIsExt4Internal` passes the
mounted directory first, so it asks whether the path is above such a directory
(`isExt4_iff`), and is right where the path has as little above it as below it
(`isExt4_right_iff`).
-/

namespace Goldfish.System

open Goldfish.Lib

/-! ### Paths -/

/-- What stands between the names of a path. -/
def separator : UInt8 := '/'.toUInt8

/-- The path begins at the root. -/
def isAbsolute (path : Text) : Bool := path.head? = some separator

/-- What iterating over an `fs::path` gives: the root, the names, and an empty name behind a separator at the
end. -/
def pathComponents (path : Text) : List Text :=
  let names := words (· = separator) path
  (if isAbsolute path then [[separator]] else []) ++ names ++
    if names ≠ [] ∧ path.getLast? = some separator then [[]] else []

/-- The operator `/`. -/
def pathAppend (lhs rhs : Text) : Text :=
  if isAbsolute rhs then rhs
  else if lhs = [] ∨ lhs.getLast? = some separator then lhs ++ rhs
  else lhs ++ separator :: rhs

/-- `fs::absolute`, in a current directory. -/
def absolute (cwd path : Text) : Text := if isAbsolute path then path else pathAppend cwd path

/-! ### Mounts -/

/-- The directories of the lines whose third word is `ext4`. -/
def get_all_ext4_mount_dirs (mounts : Text) : List Text :=
  (lines '\n'.toUInt8 mounts).filterMap fun line =>
    match words isspace line with
    | _ :: dir :: parttype :: _ => if parttype = literal "ext4" then some dir else none
    | _ => none

/-- The loop over the components of the directory, with those of the path beside it. -/
def sameComponents : List Text → List Text → Bool
  | [], _ => true
  | _ :: _, [] => false
  | p :: dir, q :: path => if p ≠ q then false else sameComponents dir path

/-- The root names are all empty. -/
def dir_contains_path (cwd path dir : Text) : Bool :=
  sameComponents (pathComponents (absolute cwd dir)) (pathComponents (absolute cwd path))

/-- `/proc/self/mounts` is `mounts`. -/
def pathFileSystemIsExt4Internal (mounts cwd path : Text) : Bool :=
  (get_all_ext4_mount_dirs mounts).any fun dir => dir_contains_path cwd dir path

theorem sameComponents_iff (dir path : List Text) : sameComponents dir path = true ↔ dir <+: path := by
  induction dir generalizing path with
  | nil => simp [sameComponents]
  | cons p dir ih =>
    cases path with
    | nil => simp [sameComponents]
    | cons q path =>
      rw [sameComponents, List.cons_prefix_cons]
      by_cases hne : p = q
      · rw [if_neg (not_not.mpr hne), ih, and_iff_right hne]
      · rw [if_pos hne]
        exact iff_of_false (by simp) fun h => hne h.1

/-- The second argument is the container. -/
theorem dir_contains_path_iff (cwd path dir : Text) :
    dir_contains_path cwd path dir = true ↔
      pathComponents (absolute cwd dir) <+: pathComponents (absolute cwd path) :=
  sameComponents_iff _ _

section Mounts

variable (mounts cwd path : Text)

/-- The components of the mounted directories. -/
def MountedAt (components : List Text) : Prop :=
  ∃ dir ∈ get_all_ext4_mount_dirs mounts, pathComponents (absolute cwd dir) = components

/-- A mounted directory is above the path. -/
def MountedAbove : Prop := ∃ dir, MountedAt mounts cwd dir ∧
  dir <+: pathComponents (absolute cwd path) ∧ dir ≠ pathComponents (absolute cwd path)

/-- A mounted directory is below the path. -/
def MountedBelow : Prop := ∃ dir, MountedAt mounts cwd dir ∧
  pathComponents (absolute cwd path) <+: dir ∧ dir ≠ pathComponents (absolute cwd path)

/-- What the function tells: whether the path is above a mounted directory. -/
theorem isExt4_iff : pathFileSystemIsExt4Internal mounts cwd path = true ↔
    ∃ dir, MountedAt mounts cwd dir ∧ pathComponents (absolute cwd path) <+: dir := by
  simp only [pathFileSystemIsExt4Internal, List.any_eq_true, dir_contains_path_iff]
  constructor
  · rintro ⟨dir, hdir, hprefix⟩
    exact ⟨_, ⟨dir, hdir, rfl⟩, hprefix⟩
  · rintro ⟨_, ⟨dir, hdir, rfl⟩, hprefix⟩
    exact ⟨dir, hdir, hprefix⟩

/-- **Ext4 by mount point.** The answer says whether a mounted directory contains the path exactly if the path is
itself one, or as well above one as below another, or neither. -/
theorem isExt4_right_iff :
    (pathFileSystemIsExt4Internal mounts cwd path = true ↔
        ∃ dir ∈ get_all_ext4_mount_dirs mounts,
          pathComponents (absolute cwd dir) <+: pathComponents (absolute cwd path)) ↔
      MountedAt mounts cwd (pathComponents (absolute cwd path)) ∨
        (MountedAbove mounts cwd path ↔ MountedBelow mounts cwd path) := by
  have habove : (∃ dir ∈ get_all_ext4_mount_dirs mounts,
      pathComponents (absolute cwd dir) <+: pathComponents (absolute cwd path)) ↔
        MountedAt mounts cwd (pathComponents (absolute cwd path)) ∨ MountedAbove mounts cwd path := by
    constructor
    · rintro ⟨dir, hdir, hprefix⟩
      by_cases hsame : pathComponents (absolute cwd dir) = pathComponents (absolute cwd path)
      · exact .inl ⟨dir, hdir, hsame⟩
      · exact .inr ⟨_, ⟨dir, hdir, rfl⟩, hprefix, hsame⟩
    · rintro (⟨dir, hdir, hsame⟩ | ⟨_, ⟨dir, hdir, rfl⟩, hprefix, -⟩)
      · exact ⟨dir, hdir, hsame ▸ List.prefix_refl _⟩
      · exact ⟨dir, hdir, hprefix⟩
  have hbelow : (∃ dir, MountedAt mounts cwd dir ∧ pathComponents (absolute cwd path) <+: dir) ↔
      MountedAt mounts cwd (pathComponents (absolute cwd path)) ∨ MountedBelow mounts cwd path := by
    constructor
    · rintro ⟨dir, hdir, hprefix⟩
      by_cases hsame : dir = pathComponents (absolute cwd path)
      · exact .inl (hsame ▸ hdir)
      · exact .inr ⟨dir, hdir, hprefix, hsame⟩
    · rintro (hdir | ⟨dir, hdir, hprefix, -⟩)
      · exact ⟨_, hdir, List.prefix_refl _⟩
      · exact ⟨dir, hdir, hprefix⟩
  rw [isExt4_iff, habove, hbelow]
  by_cases hat : MountedAt mounts cwd (pathComponents (absolute cwd path))
  · exact iff_of_true (iff_of_true (.inl hat) (.inl hat)) (.inl hat)
  · rw [or_iff_right hat, or_iff_right hat, or_iff_right hat]
    exact Iff.comm

end Mounts

/-- The root is mounted, and contains no other directory; a disk is mounted, and contains the directory above it. -/
theorem container_swapped :
    (pathFileSystemIsExt4Internal (literal "/dev/vda / ext4 rw 0 0\n") (literal "/") (literal "/data") = false ∧
        pathComponents (literal "/") <+: pathComponents (literal "/data")) ∧
      pathFileSystemIsExt4Internal (literal "/dev/vdb /mnt/disk ext4 rw 0 0\n") (literal "/") (literal "/mnt") = true ∧
        ¬ pathComponents (literal "/mnt/disk") <+: pathComponents (literal "/mnt") := by
  decide +kernel

end Goldfish.System
