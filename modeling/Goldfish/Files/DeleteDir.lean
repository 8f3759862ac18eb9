import Goldfish.Files.SystemCalls

/-!
# Goldfish.Files.DeleteDir

**Deleting a directory** (`path_delete_dir` and `path_delete_dir_contents` in `path.cpp`,
with `pathIsDirInternal` and `scanDirInternal` of `System.cpp`).

Nothing is added (`shrinks`), so a path leads nowhere that it did not lead to at first. On
the way down there is less and less room for links and directories: the recursion ends
(`contents_returns`).
-/

namespace Goldfish.Files.DeleteDir

open Goldfish.Lib PathParent SystemCalls

/-! ### The functions -/

/-- What is left in the file system, and a status. -/
abbrev Outcome := ListedTree Name × Int

/-- The status of a system call. -/
def status (t : ListedTree Name) : Except Errno (ListedTree Name) → Outcome
  | .ok t' => (t', 0)
  | .error _ => (t, -1)

section Functions

variable (p : Process)

/-- `pathIsDirInternal` -/
def path_is_dir (t : ListedTree Name) (path : Text) : Bool :=
  if path = [] then false else p.isDirectory t.toFileTree path

/-- `scanDirInternal`; the names come sorted. -/
def scanDir (t : ListedTree Name) (dirPath : Text) : List Name :=
  if dirPath = [] then [] else p.readdir t dirPath

/-- `path_delete_file`. -/
def path_delete_file (path : Text) (t : ListedTree Name) : Outcome := status t (p.unlink t path)

/-- `path_delete_dir`, with what deletes the contents. -/
def deleteWith (contents : Text → ListedTree Name → Option Outcome) (path : Text) (t : ListedTree Name) :
    Option Outcome :=
  (contents path t).map fun left =>
    let removed := status left.1 (p.rmdir left.1 path)
    (removed.1, if left.2 ≠ 0 then left.2 else removed.2)

/-- One name of the scanner. -/
def deleteName (contents : Text → ListedTree Name → Option Outcome) (name : Text) (t : ListedTree Name) :
    Option Outcome :=
  if path_is_dir p t name then deleteWith p contents name t else some (path_delete_file p name t)

/-- The body of the loop. -/
def deleteNext (contents : Text → ListedTree Name → Option Outcome) (path : Text) (s : Outcome) (n : Name) :
    Option Outcome :=
  (deleteName p contents (join path n) s.1).map fun r => (r.1, if s.2 ≠ 0 then s.2 else r.2)

/-- `fuel` bounds the depth of the recursion. -/
def path_delete_dir_contents : (fuel : Nat) → Text → ListedTree Name → Option Outcome
  | 0, _, _ => none
  | fuel + 1, path, t => (scanDir p t path).foldlM (deleteNext p (path_delete_dir_contents fuel) path) (t, 0)

/-- `path_delete_dir`. -/
def path_delete_dir (fuel : Nat) : Text → ListedTree Name → Option Outcome :=
  deleteWith p (path_delete_dir_contents p fuel)

end Functions

theorem path_is_dir_eq (p : Process) (t : ListedTree Name) (path : Text) :
    path_is_dir p t path = p.isDirectory t.toFileTree path := by
  unfold path_is_dir
  split
  · rename_i hpath
    rw [hpath]
    rfl
  · rfl

theorem scanDir_eq (p : Process) (t : ListedTree Name) (path : Text) : scanDir p t path = p.readdir t path := by
  unfold scanDir
  split
  · rename_i hpath
    rw [hpath]
    rfl
  · rfl

/-! ### The functions return, and add nothing -/

/-- Nothing is added. -/
def Shrinks (contents : Text → ListedTree Name → Option Outcome) : Prop :=
  ∀ path t r, contents path t = some r → r.1.Within t.toFileTree

section Returns

variable {p : Process} {t t₀ : ListedTree Name} {path : Text} {r s : Outcome} {fuel : Nat} {n : Name}
  {names : List Name} {contents : Text → ListedTree Name → Option Outcome}

theorem status_within {call : Except Errno (ListedTree Name)} (h : ∀ t', call = .ok t' → t'.Within t.toFileTree) :
    (status t call).1.Within t.toFileTree := by
  cases call with
  | error e => exact .refl _
  | ok t' => exact h t' rfl

theorem path_delete_file_within : (path_delete_file p path t).1.Within t.toFileTree := by
  refine status_within fun t' h => ?_
  obtain ⟨l, n, k, -, -, -, -, -, rfl⟩ := Process.unlink_eq_ok_iff.mp h
  exact t.remove_within _

theorem rmdir_within (p : Process) (t : ListedTree Name) (path : Text) :
    (status t (p.rmdir t path)).1.Within t.toFileTree := by
  refine status_within fun t' h => ?_
  obtain ⟨l, n, -, -, -, -, rfl⟩ := Process.rmdir_eq_ok_iff.mp h
  exact t.remove_within _

theorem Shrinks.deleteWith (h : Shrinks contents) : Shrinks (deleteWith p contents) := by
  intro path t r hr
  obtain ⟨left, hleft, rfl⟩ := Option.map_eq_some_iff.mp hr
  exact (rmdir_within p left.1 path).trans (h path t left hleft)

theorem Shrinks.deleteName (h : Shrinks contents) : Shrinks (deleteName p contents) := by
  intro path t r hr
  unfold DeleteDir.deleteName at hr
  split at hr
  · exact h.deleteWith path t r hr
  · cases hr
    exact path_delete_file_within

theorem Shrinks.deleteNext (h : Shrinks contents) (hr : deleteNext p contents path s n = some r) :
    r.1.Within s.1.toFileTree := by
  obtain ⟨r', hr', rfl⟩ := Option.map_eq_some_iff.mp hr
  exact h.deleteName _ _ r' hr'

theorem Shrinks.foldlM (h : Shrinks contents) (hr : names.foldlM (DeleteDir.deleteNext p contents path) s = some r) :
    r.1.Within s.1.toFileTree := by
  induction names generalizing s with
  | nil =>
    cases hr
    exact .refl _
  | cons n names ih =>
    rw [List.foldlM_cons] at hr
    obtain ⟨s', hs', hr⟩ := Option.bind_eq_some_iff.mp hr
    exact (ih hr).trans (h.deleteNext hs')

theorem shrinks (p : Process) (fuel : Nat) : Shrinks (path_delete_dir_contents p fuel) := by
  induction fuel with
  | zero =>
    intro path t r hr
    cases hr
  | succ fuel ih => exact fun path t r hr => ih.foldlM hr

/-- The recursion ends where there is no room left. -/
theorem contents_returns (p : Process) (fuel : Nat) {depth : Nat} (hdepth : ∀ l, t₀.kind l ≠ none → l.length ≤ depth)
    (hwithin : t.Within t₀.toFileTree) (hpos : 0 < fuel)
    (hroom : ∀ links l, p.resolve t₀.toFileTree path = .ok (links, l) → FileTree.room depth links l < fuel) :
    ∃ r, path_delete_dir_contents p fuel path t = some r := by
  induction fuel generalizing path t with
  | zero => exact absurd hpos (Nat.lt_irrefl 0)
  | succ fuel ih =>
    -- a name of the scanner
    have hname : ∀ n, ∀ t : ListedTree Name, path ≠ [] → t.Within t₀.toFileTree →
        ∃ r, deleteName p (path_delete_dir_contents p fuel) (join path n) t = some r := by
      intro n t hpath hwithin
      unfold deleteName
      rw [path_is_dir_eq]
      split
      · rename_i hdir
        obtain ⟨links', l', hresolve, -⟩ := Process.isDirectory_iff.mp hdir
        have hresolve := Process.resolve_mono hwithin hresolve
        obtain ⟨-, links, l, hpath, hwalk⟩ := (Process.resolve_join_iff hpath).mp hresolve
        have hlt := FileTree.room_lt hdepth hwalk
        have hle := hroom links l hpath
        obtain ⟨left, hleft⟩ := ih hwithin (by omega) fun links'' l'' h => by
          rw [hresolve] at h
          cases h
          omega
        exact ⟨_, Option.map_eq_some_iff.mpr ⟨left, hleft, rfl⟩⟩
      · exact ⟨_, rfl⟩
    have hfold : ∀ names : List Name, ∀ s : Outcome, path ≠ [] → s.1.Within t₀.toFileTree →
        ∃ r, names.foldlM (deleteNext p (path_delete_dir_contents p fuel) path) s = some r := by
      intro names
      induction names with
      | nil => exact fun s _ _ => ⟨s, rfl⟩
      | cons n names ihnames =>
        intro s hpath hwithin
        obtain ⟨r, hr⟩ := hname n s.1 hpath hwithin
        have hnext : deleteNext p (path_delete_dir_contents p fuel) path s n =
            some (r.1, if s.2 ≠ 0 then s.2 else r.2) := by
          rw [deleteNext, hr]
          rfl
        obtain ⟨r', hr'⟩ := ihnames (r.1, if s.2 ≠ 0 then s.2 else r.2) hpath
          (((shrinks p fuel).deleteName _ _ _ hr).trans hwithin)
        refine ⟨r', ?_⟩
        rw [List.foldlM_cons, hnext]
        exact hr'
    by_cases hpath : path = []
    · rw [hpath]
      exact ⟨_, rfl⟩
    · exact hfold _ _ hpath hwithin

end Returns

end Goldfish.Files.DeleteDir
