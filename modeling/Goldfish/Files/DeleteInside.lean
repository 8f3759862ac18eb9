import Goldfish.Files.DeleteSweep

/-!
# Goldfish.Files.DeleteInside

**Recursive deletion stays inside** of the directory that a path names, and removes all of
it when every removal is permitted (`ContentsDeleted`, `DirDeleted`).

Whether an entry is descended into is asked with `stat`, so a link to a directory is
descended into and its target is emptied. The claims hold if everything under the directory
is plain when its turn comes, and where all removals are permitted only then
(`deletion_inside_iff`).
-/

namespace Goldfish.Files.DeleteDir

open Goldfish.Lib PathParent SystemCalls

section Claims

variable (p : Process) (t : ListedTree Name) (path : Text)

/-- Located under the path, without following a link. -/
def Inside (x : Location Name) : Prop := ∃ d, p.lstat t.toFileTree path = .ok d ∧ Under d x

/-- A deletion ends and changes only what it may; it removes all when every removal is permitted. -/
def Deletes (may : Location Name → Prop) (delete : (fuel : Nat) → Option Outcome) : Prop :=
  (∃ r, Returns delete r) ∧
    ∀ r, Returns delete r →
      (∀ x, r.1.kind x ≠ t.kind x → may x) ∧
        (path_is_dir p t path = true → (∀ x, p.removes x = true) →
          (∀ x, Inside p t path x → r.1.kind x = none) ∧ r.2 = 0)

/-- `path_delete_dir_contents` deletes what it should. -/
def ContentsDeleted : Prop :=
  Deletes p t path (Inside p t path) fun fuel => path_delete_dir_contents p fuel path t

/-- `path_delete_dir` deletes what it should. -/
def DirDeleted : Prop :=
  Deletes p t path (fun x => Inside p t path x ∨ p.lstat t.toFileTree path = .ok x) fun fuel =>
    path_delete_dir p fuel path t

/-- Everything under a directory can be found. -/
def AllListed (d : Location Name) : Prop := ∀ x, Under d x → t.kind x ≠ none → Listed p d x

/-- The path names the directory it leads to, where everything is plain in its turn; or it is a link,
and nothing is found. -/
def ContentsPlain : Prop :=
  ∀ links d, p.resolve t.toFileTree path = .ok (links, d) → t.kind d = some .dir →
    (p.lstat t.toFileTree path = .ok d →
      Clean p t d path d ∧ ((∀ x, p.removes x = true) → AllListed p t d)) ∧
    (p.lstat t.toFileTree path ≠ .ok d → p.lists d = true → t.names d = [])

/-- In the end the path still leads to the directory. -/
def DirPlain : Prop :=
  ∀ links d, p.resolve t.toFileTree path = .ok (links, d) → t.kind d = some .dir →
    (∃ l n, d = n :: l ∧ p.parentOf (leaving p t d d).toFileTree path = .ok (l, some (.name n))) ∧
      Clean p t d path d ∧ ((∀ x, p.removes x = true) → AllListed p t d)

end Claims

section Deletion

variable {p : Process} {t : ListedTree Name} {path : Text} {links : Nat} {d x : Location Name} {r : Outcome}

/-! ### The whole deletion -/

/-- At the start everything is there. -/
theorem entering_self (p : Process) (t : ListedTree Name) (d : Location Name) : entering p t d d = t := by
  refine ListedTree.ext_kind fun y => kind_remaining (closed_earlier d) ?_
  exact fun h => not_earlier_of_suffix h.1.1 h.2.1

theorem verdict_contents (hresolve : p.resolve t.toFileTree path = .ok (links, d)) (hdir : t.kind d = some .dir)
    (hr : Returns (fun fuel => path_delete_dir_contents p fuel path t) r) :
    Verdict p (Clean p t d path d) (p.lists d = true → ∀ n ∈ t.names d, Goes p t d (n :: d)) (leaving p t d d) r := by
  obtain ⟨fuel, hr⟩ := hr
  refine sweeps p t d fuel path links d r List.suffix_rfl (listed_self p d) hdir ?_ ?_
  · rw [entering_self, hresolve]
  · rw [entering_self]
    exact hr

/-- **Termination.** -/
theorem returns_contents (p : Process) (t : ListedTree Name) (path : Text) :
    ∃ r, Returns (fun fuel => path_delete_dir_contents p fuel path t) r := by
  obtain ⟨depth, hdepth⟩ := t.finite
  cases hresolve : p.resolve t.toFileTree path with
  | error e =>
    obtain ⟨r, hr⟩ := contents_returns p 1 hdepth (.refl _) Nat.one_pos fun links l h => by
      rw [hresolve] at h
      cases h
    exact ⟨r, 1, hr⟩
  | ok next =>
    obtain ⟨r, hr⟩ := contents_returns p (FileTree.room depth next.1 next.2 + 1) hdepth (.refl _)
      (Nat.succ_pos _) fun links l h => by
        rw [hresolve] at h
        cases h
        exact Nat.lt_succ_self _
    exact ⟨r, _, hr⟩

theorem returns_path_delete_dir_iff :
    Returns (fun fuel => path_delete_dir p fuel path t) r ↔
      ∃ left, Returns (fun fuel => path_delete_dir_contents p fuel path t) left ∧
        ((status left.1 (p.rmdir left.1 path)).1,
          if left.2 ≠ 0 then left.2 else (status left.1 (p.rmdir left.1 path)).2) = r :=
  returns_map

/-- Where no name is found, nothing happens. -/
theorem contents_of_readdir_eq_nil (h : p.readdir t path = [])
    (hr : Returns (fun fuel => path_delete_dir_contents p fuel path t) r) : r = (t, 0) := by
  obtain ⟨fuel, hr⟩ := hr
  cases fuel with
  | zero => cases hr
  | succ fuel =>
    simp only [path_delete_dir_contents, scanDir_eq, h] at hr
    cases hr
    rfl

theorem contents_of_not_dir (h : path_is_dir p t path = false)
    (hr : Returns (fun fuel => path_delete_dir_contents p fuel path t) r) : r = (t, 0) :=
  contents_of_readdir_eq_nil (Process.readdir_eq_nil (by rw [← path_is_dir_eq, h])) hr

theorem path_is_dir_iff :
    path_is_dir p t path = true ↔
      ∃ links d, p.resolve t.toFileTree path = .ok (links, d) ∧ t.kind d = some .dir := by
  rw [path_is_dir_eq, Process.isDirectory_iff]

/-- A deletion changes nothing but what can go under the directory. -/
theorem under_of_leaving (h : (leaving p t d d).kind x ≠ t.kind x) : Under d x ∧ Goes p t d x := by
  by_contra hstays
  exact h (kind_remaining (closed_leaving d) fun hgone => hstays ⟨hgone.1, hgone.2.2⟩)

theorem kind_leaving_of_goes (hx : Under d x) (hgoes : t.kind x ≠ none → Goes p t d x) :
    (leaving p t d d).kind x = none := by
  by_cases hpresent : t.kind x = none
  · rcases remaining_within p t d _ x with hnone | heq
    · exact hnone
    · exact heq.trans hpresent
  · exact kind_remaining_of_mem hx (.inr hx) (hgoes hpresent)

theorem AllListed.goes (h : AllListed p t d) (hall : ∀ x, p.removes x = true) (hx : Under d x) : Goes p t d x :=
  fun y hy hpresent => ⟨hall y, h y (hx.trans hy) hpresent⟩

/-- Nothing is located under a link. -/
theorem not_present_of_inside (hresolve : p.resolve t.toFileTree path = .ok (links, d))
    (hlink : p.lstat t.toFileTree path ≠ .ok d) (hx : Inside p t path x) : t.kind x = none := by
  obtain ⟨d', hlstat, hunder⟩ := hx
  by_contra hpresent
  obtain ⟨links', hresolve'⟩ := Process.resolve_of_lstat hlstat (FileTree.kind_of_under hunder hpresent)
  rw [hresolve] at hresolve'
  cases hresolve'
  exact hlink hlstat

/-! ### The contents -/

theorem ContentsPlain.deleted (h : ContentsPlain p t path) : ContentsDeleted p t path := by
  refine ⟨returns_contents p t path, fun r hr => ?_⟩
  by_cases hisDir : path_is_dir p t path = true
  · obtain ⟨links, d, hresolve, hdir⟩ := path_is_dir_iff.mp hisDir
    obtain ⟨hitself, hlink⟩ := h links d hresolve hdir
    by_cases hlstat : p.lstat t.toFileTree path = .ok d
    · obtain ⟨hclean, hlisted⟩ := hitself hlstat
      obtain ⟨hleft, hzero⟩ := (verdict_contents hresolve hdir hr).of_clean hclean
      refine ⟨fun x hx => ⟨d, hlstat, (under_of_leaving (hleft ▸ hx)).1⟩, fun _ hall => ⟨?_, ?_⟩⟩
      · rintro x ⟨d', hlstat', hunder⟩
        rw [hlstat] at hlstat'
        cases hlstat'
        rw [hleft]
        exact kind_leaving_of_goes hunder fun _ => (hlisted hall).goes hall hunder
      · exact hzero.mpr fun _ n _ => (hlisted hall).goes hall (under_cons n d)
    · have hnil : p.readdir t path = [] := by
        rw [Process.readdir_eq_of_resolve hresolve hdir]
        split
        · rename_i hlists
          exact hlink hlstat hlists
        · rfl
      obtain rfl := contents_of_readdir_eq_nil hnil hr
      exact ⟨fun x hx => absurd rfl hx, fun _ _ => ⟨fun x hx => not_present_of_inside hresolve hlstat hx, rfl⟩⟩
  · obtain rfl := contents_of_not_dir (by simpa using hisDir) hr
    exact ⟨fun x hx => absurd rfl hx, fun htrue => absurd htrue hisDir⟩

theorem ContentsDeleted.plain (hall : ∀ x, p.removes x = true) (h : ContentsDeleted p t path) :
    ContentsPlain p t path := by
  intro links d hresolve hdir
  obtain ⟨⟨r, hr⟩, hdeletes⟩ := h
  obtain ⟨hframe, hcomplete⟩ := hdeletes r hr
  obtain ⟨hgone, hzero⟩ := hcomplete (path_is_dir_iff.mpr ⟨links, d, hresolve, hdir⟩) hall
  have hverdict := verdict_contents hresolve hdir hr
  obtain ⟨hclean, hentries⟩ := hverdict.of_zero hall hzero
  obtain ⟨hleft, -⟩ := hverdict.of_clean hclean
  have hchanged : ∀ x, t.kind x ≠ none → r.1.kind x = none → Goes p t d x := by
    intro x hpresent hnone
    exact (under_of_leaving (fun heq => hpresent (by rw [← heq, ← hleft, hnone]))).2
  refine ⟨fun hlstat => ⟨hclean, fun _ x hx hpresent => ?_⟩, fun hlink hlists => ?_⟩
  · exact (hchanged x hpresent (hgone x ⟨d, hlstat, hx⟩) x List.suffix_rfl hpresent).2
  · refine List.eq_nil_iff_forall_not_mem.mpr fun n hn => ?_
    have hpresent := (t.mem_names d n).mp hn
    have hnone : r.1.kind (n :: d) = none :=
      hleft ▸ kind_leaving_of_goes (under_cons n d) fun _ => hentries hlists n hn
    exact hpresent (not_present_of_inside hresolve hlink (hframe _ fun heq => hpresent (by rw [← heq, hnone])))

/-! ### The directory itself -/

theorem DirPlain.deleted (h : DirPlain p t path) : DirDeleted p t path := by
  constructor
  · obtain ⟨left, hleft⟩ := returns_contents p t path
    exact ⟨_, returns_path_delete_dir_iff.mpr ⟨left, hleft, rfl⟩⟩
  intro r hr
  obtain ⟨left, hleft, rfl⟩ := returns_path_delete_dir_iff.mp hr
  by_cases hisDir : path_is_dir p t path = true
  · obtain ⟨links, d, hresolve, hdir⟩ := path_is_dir_iff.mp hisDir
    obtain ⟨⟨l, n, rfl, hleads⟩, hclean, hlisted⟩ := h links d hresolve hdir
    obtain ⟨hrest, hzero⟩ := (verdict_contents hresolve hdir hleft).of_clean hclean
    have hparent := Process.parentOf_mono (remaining_within p t _ _) hleads
    have hlstat := Process.lstat_of_parentOf hparent hdir
    have hself := (kind_leaving_self p t (n :: l) (n :: l)).trans hdir
    rw [hrest]
    constructor
    · intro x hx
      rw [hlstat]
      by_cases hchanged : (leaving p t (n :: l) (n :: l)).kind x = t.kind x
      · cases hcall : p.rmdir (leaving p t (n :: l) (n :: l)) path with
        | error e =>
          rw [hcall] at hx
          exact absurd hchanged hx
        | ok t' =>
          rw [hcall] at hx
          obtain ⟨l', m, hleads', -, hnames, -, rfl⟩ := Process.rmdir_eq_ok_iff.mp hcall
          rw [hleads] at hleads'
          cases hleads'
          have hkind := ListedTree.kind_remove (List.cons_ne_nil n l) hnames x
          by_cases heq : x = n :: l
          · exact .inr (by rw [heq])
          · rw [if_neg heq, hchanged] at hkind
            exact absurd hkind hx
      · exact .inl ⟨n :: l, hlstat, (under_of_leaving hchanged).1⟩
    · intro _ hall
      have hgoes : ∀ x, Under (n :: l) x → Goes p t (n :: l) x := fun x hx => (hlisted hall).goes hall hx
      have hnames := (names_leaving_eq_nil_iff (p := p) (t := t) List.suffix_rfl).mpr fun m _ =>
        hgoes _ (under_cons m (n :: l))
      constructor
      · rintro x ⟨d, hlstat', hunder⟩
        rw [hlstat] at hlstat'
        cases hlstat'
        have hnone := kind_leaving_of_goes hunder fun _ => hgoes x hunder
        rcases rmdir_within p (leaving p t (n :: l) (n :: l)) path x with hgone | heq
        · exact hgone
        · exact heq.trans hnone
      · refine first_eq_zero_iff.mpr ⟨hzero.mpr fun _ m _ => hgoes _ (under_cons m (n :: l)), ?_⟩
        exact status_eq_zero_iff.mpr
          ⟨_, Process.rmdir_eq_ok_iff.mpr ⟨l, n, hleads, hself, hnames, hall _, rfl⟩⟩
  · obtain rfl := contents_of_not_dir (by simpa using hisDir) hleft
    refine ⟨fun x hx => ?_, fun htrue => absurd htrue hisDir⟩
    cases hcall : p.rmdir t path with
    | error e =>
      rw [hcall] at hx
      exact absurd rfl hx
    | ok t' =>
      obtain ⟨l, n, hparent, hdir, -⟩ := Process.rmdir_eq_ok_iff.mp hcall
      obtain ⟨links, hresolve⟩ := Process.resolve_of_parentOf hparent hdir
      exact absurd (path_is_dir_iff.mpr ⟨links, n :: l, hresolve, hdir⟩) hisDir

theorem DirDeleted.plain (hall : ∀ x, p.removes x = true) (h : DirDeleted p t path) : DirPlain p t path := by
  intro links d hresolve hdir
  obtain ⟨⟨r, hr⟩, hdeletes⟩ := h
  obtain ⟨-, hzero⟩ := (hdeletes r hr).2 (path_is_dir_iff.mpr ⟨links, d, hresolve, hdir⟩) hall
  obtain ⟨left, hleft, rfl⟩ := returns_path_delete_dir_iff.mp hr
  obtain ⟨hzero, hcall⟩ := first_eq_zero_iff.mp hzero
  obtain ⟨t', hcall⟩ := status_eq_zero_iff.mp hcall
  have hverdict := verdict_contents hresolve hdir hleft
  obtain ⟨hclean, -⟩ := hverdict.of_zero hall hzero
  obtain ⟨hrest, -⟩ := hverdict.of_clean hclean
  rw [hrest] at hcall
  obtain ⟨l, n, hleads, hkind, hnames, -⟩ := Process.rmdir_eq_ok_iff.mp hcall
  -- the directory that is removed is the one that was read
  obtain ⟨links', hresolve'⟩ := Process.resolve_of_parentOf (Process.parentOf_mono (remaining_within p t d _) hleads)
    ((remaining_within p t d _).kind hkind)
  rw [hresolve] at hresolve'
  cases hresolve'
  refine ⟨⟨l, n, rfl, hleads⟩, hclean, fun _ x hx hpresent => ?_⟩
  obtain ⟨m, hm⟩ := under_iff_exists_entry.mp hx
  have hgoes := (names_leaving_eq_nil_iff List.suffix_rfl).mp hnames m (ListedTree.mem_names_of_suffix hm hpresent)
  exact (hgoes x hm hpresent).2

/-- **Recursive deletion stays inside** and removes all if everything is plain when its turn comes, and
only then if every removal is permitted. -/
theorem deletion_inside_iff (p : Process) (t : ListedTree Name) (path : Text) :
    (ContentsPlain p t path → ContentsDeleted p t path) ∧ (DirPlain p t path → DirDeleted p t path) ∧
      ((∀ x, p.removes x = true) →
        (ContentsDeleted p t path ↔ ContentsPlain p t path) ∧ (DirDeleted p t path ↔ DirPlain p t path)) :=
  ⟨ContentsPlain.deleted, DirPlain.deleted, fun hall =>
    ⟨⟨ContentsDeleted.plain hall, ContentsPlain.deleted⟩, DirDeleted.plain hall, DirPlain.deleted⟩⟩

end Deletion

/-! ### A link to the outside -/

/-- A directory. -/
def nameD : Name := ⟨['d'.toUInt8], by decide⟩

/-- A file. -/
def nameF : Name := ⟨['f'.toUInt8], by decide⟩

/-- A link. -/
def nameL : Name := ⟨['l'.toUInt8], by decide⟩

/-- A file outside. -/
def nameO : Name := ⟨['o'.toUInt8], by decide⟩

/-- `/d/l` is a link to `/o`, where the file `f` is. -/
def linkOutside : ListedTree Name where
  kind
    | [] => some .dir
    | [n] => if n = nameD ∨ n = nameO then some .dir else none
    | [n, m] =>
      if m = nameD ∧ n = nameL then some (.link true [.name nameO])
      else if m = nameO ∧ n = nameF then some .file
      else none
    | _ => none
  root := rfl
  parent := by
    intro l n h
    match l, h with
    | [], _ => rfl
    | [m], h =>
      have hm : m = nameD ∨ m = nameO := by
        by_contra hm
        rw [not_or] at hm
        simp [hm.1, hm.2] at h
      simp [hm]
    | _ :: _ :: _, h => simp at h
  names
    | [] => [nameD, nameO]
    | [m] => if m = nameD then [nameL] else if m = nameO then [nameF] else []
    | _ => []
  mem_names := by
    intro l n
    match l with
    | [] => simp [or_iff_not_imp_left]
    | [m] =>
      by_cases hd : m = nameD
      · subst hd
        simp [show nameD ≠ nameO by decide]
      · by_cases ho : m = nameO
        · simp [ho, show nameO ≠ nameD by decide]
        · simp [hd, ho]
    | _ :: _ :: _ => simp
  sorted := by
    intro l
    match l with
    | [] => decide
    | [m] => dsimp only; split <;> [skip; split] <;> simp
    | _ :: _ :: _ => exact List.Pairwise.nil
  finite := ⟨2, fun l h => by
    match l, h with
    | [], _ => simp
    | [_], _ => simp
    | [_, _], _ => simp
    | _ :: _ :: _ :: _, h => simp at h⟩

/-- A process that may do everything. -/
def superuser : Process where
  cwd := []
  rights := ⟨fun _ => true, fun _ => true⟩
  lists := fun _ => true
  removes := fun _ => true
  creates := fun _ => true

/-- Deleting `/d` or what is in it removes `/o/f`. -/
theorem deletes_outside :
    ¬ ContentsDeleted superuser linkOutside ['/'.toUInt8, 'd'.toUInt8] ∧
      ¬ DirDeleted superuser linkOutside ['/'.toUInt8, 'd'.toUInt8] := by
  have houtside : ¬ Inside superuser linkOutside ['/'.toUInt8, 'd'.toUInt8] [nameF, nameO] := by
    rintro ⟨d, hlstat, hunder⟩
    have hd : superuser.lstat linkOutside.toFileTree ['/'.toUInt8, 'd'.toUInt8] = .ok [nameD] := by decide +kernel
    rw [hd] at hlstat
    cases hlstat
    exact absurd hunder.1 (by decide)
  constructor
  · rintro ⟨-, h⟩
    have hrun : (path_delete_dir_contents superuser 3 ['/'.toUInt8, 'd'.toUInt8] linkOutside).map
        (fun r => r.1.kind [nameF, nameO]) = some none := by decide +kernel
    obtain ⟨r, hr, hnone⟩ := Option.map_eq_some_iff.mp hrun
    refine houtside ((h r ⟨3, hr⟩).1 _ ?_)
    rw [hnone]
    decide
  · rintro ⟨-, h⟩
    have hrun : (path_delete_dir superuser 3 ['/'.toUInt8, 'd'.toUInt8] linkOutside).map
        (fun r => r.1.kind [nameF, nameO]) = some none := by decide +kernel
    obtain ⟨r, hr, hnone⟩ := Option.map_eq_some_iff.mp hrun
    rcases (h r ⟨3, hr⟩).1 [nameF, nameO] (by rw [hnone]; decide) with hinside | hself
    · exact houtside hinside
    · have hd : superuser.lstat linkOutside.toFileTree ['/'.toUInt8, 'd'.toUInt8] = .ok [nameD] := by decide +kernel
      rw [hd] at hself
      cases hself

end Goldfish.Files.DeleteDir
