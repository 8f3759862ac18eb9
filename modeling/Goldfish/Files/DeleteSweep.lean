import Goldfish.Files.DeleteDir

/-!
# Goldfish.Files.DeleteSweep

**What a deletion leaves.** When the turn comes to an entry, what is before it and what is
under it is gone as far as it can go (`entering`, `leaving`).

If every entry is `Plain` at its turn, a deletion leaves just that, and its status tells
whether all has gone; if every removal is permitted and the status is 0, then every entry
was plain (`Verdict`). This is shown for one name, for the loop over the names and, by
induction on the depth of the recursion, for a directory (`sweeps`).
-/

namespace Goldfish.Files.DeleteDir

open Goldfish.Lib PathParent SystemCalls

/-! ### What can go -/

section Going

variable (p : Process) (t : ListedTree Name) (d : Location Name)

/-- The directories from `d` down to `x` can be listed. -/
def Listed (x : Location Name) : Prop := ∀ l, d <:+ l → Under l x → p.lists l = true

/-- What is there is found and may be removed, with all that is under it. -/
def Goes (x : Location Name) : Prop := ∀ y, x <:+ y → t.kind y ≠ none → p.removes y = true ∧ Listed p d y

/-- What remains when all that can go of some locations under `d` is gone. -/
noncomputable def remaining (Q : Location Name → Prop) : ListedTree Name :=
  t.prune fun y => Under d y ∧ Q y ∧ Goes p t d y

/-- The tree when the deletion comes to a directory, and when only the directory itself is left. -/
noncomputable def entering (x : Location Name) : ListedTree Name := remaining p t d fun y => Earlier y x

/-- Nothing under the directory is left. -/
noncomputable def leaving (x : Location Name) : ListedTree Name :=
  remaining p t d fun y => Earlier y x ∨ Under x y

/-- The directory is gone as well. -/
noncomputable def behind (x : Location Name) : ListedTree Name :=
  remaining p t d fun y => Earlier y x ∨ x <:+ y

end Going

section Remaining

variable {p : Process} {t : ListedTree Name} {d l x y : Location Name} {Q Q' : Location Name → Prop} {n : Name}

theorem Listed.mono (h : Listed p d y) (hx : x <:+ y) : Listed p d x :=
  fun l hl hunder => h l hl (hunder.trans hx)

theorem Listed.cons (h : Listed p d l) (hlists : p.lists l = true) : Listed p d (n :: l) := by
  rintro l' hl' ⟨hsuffix, hne⟩
  rcases List.suffix_cons_iff.mp hsuffix with heq | hsuffix
  · exact absurd heq.symm hne
  · by_cases heq : l = l'
    · exact heq ▸ hlists
    · exact h l' hl' ⟨hsuffix, heq⟩

theorem listed_self (p : Process) (d : Location Name) : Listed p d d := by
  rintro l hl ⟨hsuffix, hne⟩
  exact absurd (hl.eq_of_length_le hsuffix.length_le) hne

theorem Goes.mono (h : Goes p t d x) (hy : x <:+ y) : Goes p t d y :=
  fun z hz hkind => h z (hy.trans hz) hkind

/-- A directory goes with its entries. -/
theorem goes_iff (hkind : t.kind x ≠ none) (hlisted : Listed p d x) :
    Goes p t d x ↔ p.removes x = true ∧ ∀ n ∈ t.names x, Goes p t d (n :: x) := by
  constructor
  · exact fun h => ⟨(h x List.suffix_rfl hkind).1, fun n _ => h.mono (List.suffix_cons n x)⟩
  · rintro ⟨hremoves, hentries⟩ y hy hpresent
    by_cases heq : y = x
    · exact heq ▸ ⟨hremoves, hlisted⟩
    · obtain ⟨n, hn⟩ := under_iff_exists_entry.mp ⟨hy, heq⟩
      exact hentries n (ListedTree.mem_names_of_suffix hn hpresent) y hn hpresent

/-- What is at or under a location has the property with it. -/
def Closed (Q : Location Name → Prop) : Prop := ∀ y z, y <:+ z → Q y → Q z

theorem kind_remaining_of_mem (hy : Under d y) (hQ : Q y) (hgoes : Goes p t d y) :
    (remaining p t d Q).kind y = none := by
  refine ListedTree.kind_prune_of_mem ?_ ⟨hy, hQ, hgoes⟩
  rintro rfl
  exact hy.2 (List.suffix_nil.mp hy.1).symm

theorem kind_remaining (hQ : Closed Q) (h : ¬ (Under d y ∧ Q y ∧ Goes p t d y)) :
    (remaining p t d Q).kind y = t.kind y := by
  refine ListedTree.kind_prune_of_not_mem ?_ h
  rintro z hz - ⟨hunder, hmem, hgoes⟩
  exact ⟨hunder.trans hz, hQ z y hz hmem, hgoes.mono hz⟩

theorem remaining_within (p : Process) (t : ListedTree Name) (d : Location Name) (Q : Location Name → Prop) :
    (remaining p t d Q).Within t.toFileTree := t.prune_within _

/-- Only what is there and can go makes a difference. -/
theorem remaining_congr (hQ : Closed Q) (hQ' : Closed Q')
    (h : ∀ y, t.kind y ≠ none → Under d y → Goes p t d y → (Q y ↔ Q' y)) :
    remaining p t d Q = remaining p t d Q' := by
  refine ListedTree.ext_kind fun y => ?_
  by_cases hkind : t.kind y = none
  · have hnone : ∀ Q, (remaining p t d Q).kind y = none := by
      intro Q
      rcases remaining_within p t d Q y with hnone | heq
      · exact hnone
      · exact heq.trans hkind
    rw [hnone, hnone]
  · by_cases hgone : Under d y ∧ Goes p t d y
    · by_cases hy : Q y
      · rw [kind_remaining_of_mem hgone.1 hy hgone.2,
          kind_remaining_of_mem hgone.1 ((h y hkind hgone.1 hgone.2).mp hy) hgone.2]
      · have hy' : ¬ Q' y := fun hy' => hy ((h y hkind hgone.1 hgone.2).mpr hy')
        rw [kind_remaining hQ fun hmem => hy hmem.2.1, kind_remaining hQ' fun hmem => hy' hmem.2.1]
    · rw [kind_remaining hQ fun hmem => hgone ⟨hmem.1, hmem.2.2⟩,
        kind_remaining hQ' fun hmem => hgone ⟨hmem.1, hmem.2.2⟩]

theorem closed_earlier (x : Location Name) : Closed fun y => Earlier y x :=
  fun _ _ hyz h => h.of_suffix hyz

theorem closed_leaving (x : Location Name) : Closed fun y => Earlier y x ∨ Under x y :=
  fun _ _ hyz h => h.imp (fun h => h.of_suffix hyz) fun h => h.trans hyz

theorem closed_behind (x : Location Name) : Closed fun y => Earlier y x ∨ x <:+ y :=
  fun _ _ hyz h => h.imp (fun h => h.of_suffix hyz) fun h => h.trans hyz

theorem leaving_within (p : Process) (t : ListedTree Name) (d x : Location Name) :
    (leaving p t d x).Within (entering p t d x).toFileTree := by
  intro y
  by_cases hgone : Under d y ∧ (Earlier y x ∨ Under x y) ∧ Goes p t d y
  · exact .inl (kind_remaining_of_mem hgone.1 hgone.2.1 hgone.2.2)
  · refine .inr ((kind_remaining (closed_leaving x) hgone).trans (Eq.symm ?_))
    exact kind_remaining (closed_earlier x) fun h => hgone ⟨h.1, .inl h.2.1, h.2.2⟩

/-- At its turn a directory is still there. -/
theorem kind_leaving_self (p : Process) (t : ListedTree Name) (d x : Location Name) :
    (leaving p t d x).kind x = t.kind x := by
  refine kind_remaining (closed_leaving x) ?_
  rintro ⟨-, hearlier | hunder, -⟩
  · exact not_earlier_of_suffix List.suffix_rfl hearlier
  · exact hunder.2 rfl

theorem kind_entering_of_suffix (h : x <:+ y) : (entering p t d x).kind y = t.kind y :=
  kind_remaining (closed_earlier x) fun hgone => not_earlier_of_suffix h hgone.2.1

/-- What is left of the entries of a directory when it is to be removed. -/
theorem names_leaving_eq_nil_iff (hd : d <:+ x) :
    (leaving p t d x).names x = [] ↔ ∀ n ∈ t.names x, Goes p t d (n :: x) := by
  rw [List.eq_nil_iff_forall_not_mem]
  refine forall_congr' fun n => ?_
  rw [ListedTree.mem_names, ListedTree.mem_names, not_not]
  have hunder : Under d (n :: x) := under_cons_of_suffix n hd
  constructor
  · intro hnone hpresent
    by_contra hgoes
    rw [leaving, kind_remaining (closed_leaving x) fun h => hgoes h.2.2] at hnone
    exact hpresent hnone
  · intro h
    by_cases hpresent : t.kind (n :: x) = none
    · rcases remaining_within p t d _ (n :: x) with hnone | heq
      · exact hnone
      · exact heq.trans hpresent
    · exact kind_remaining_of_mem hunder (.inr (under_cons n x)) (h hpresent)

/-- Where nothing is under it, nothing changes before it is removed. -/
theorem leaving_eq_entering (h : ∀ y, Under x y → t.kind y ≠ none → ¬ Goes p t d y) :
    leaving p t d x = entering p t d x := by
  refine remaining_congr (closed_leaving x) (closed_earlier x) fun y hkind _ hgoes => ?_
  exact ⟨fun hy => hy.resolve_right fun hunder => h y hunder hkind hgoes, .inl⟩

/-- It is removed, -/
theorem remove_leaving (hd : Under d x) (hgoes : Goes p t d x) (hnames : (leaving p t d x).names x = []) :
    (leaving p t d x).remove x = behind p t d x := by
  have hnil : x ≠ [] := by
    rintro rfl
    exact hd.2 (List.suffix_nil.mp hd.1).symm
  refine ListedTree.ext_kind fun y => ?_
  rw [ListedTree.kind_remove hnil hnames]
  split
  · rename_i heq
    subst heq
    exact (kind_remaining_of_mem hd (.inr List.suffix_rfl) hgoes).symm
  · rename_i hne
    by_cases hgone : Under d y ∧ (Earlier y x ∨ x <:+ y) ∧ Goes p t d y
    · rw [behind, kind_remaining_of_mem hgone.1 hgone.2.1 hgone.2.2]
      exact kind_remaining_of_mem hgone.1 (hgone.2.1.imp_right fun hsuffix => ⟨hsuffix, hne⟩) hgone.2.2
    · rw [behind, kind_remaining (closed_behind x) hgone]
      refine kind_remaining (closed_leaving x) fun h => hgone ⟨h.1, h.2.1.imp_right fun hunder => hunder.1, h.2.2⟩

/-- or it stays. -/
theorem behind_eq_leaving (h : ¬ Goes p t d x) : behind p t d x = leaving p t d x := by
  refine remaining_congr (closed_behind x) (closed_leaving x) fun y _ _ hgoes => ?_
  refine or_congr_right ⟨fun hsuffix => ⟨hsuffix, ?_⟩, fun hunder => hunder.1⟩
  rintro rfl
  exact h hgoes

end Remaining

/-! ### The turns of the entries -/

/-- The path of what is under a directory. -/
def pathTo (path : Text) : Location Name → Text
  | [] => path
  | n :: front => join (pathTo path front) n

/-- The path of an entry leads to it, and what is taken for a directory is one. -/
structure Plain (p : Process) (t : ListedTree Name) (path : Text) (l : Location Name) (n : Name) : Prop where
  leads : p.parentOf t.toFileTree path = .ok (l, some (.name n))
  dir : path_is_dir p t path = true → t.kind (n :: l) = some .dir

section Turns

variable (p : Process) (t : ListedTree Name) (d : Location Name)

/-- What is under `l` is plain when its turn comes. -/
def Clean (path : Text) (l : Location Name) : Prop :=
  ∀ front n, t.kind (n :: (front ++ l)) ≠ none → Listed p d (n :: (front ++ l)) →
    Plain p (leaving p t d (n :: (front ++ l))) (pathTo path (n :: front)) (front ++ l) n

/-- An entry with what is under it. -/
def CleanEntry (path : Text) (l : Location Name) (n : Name) : Prop :=
  Plain p (leaving p t d (n :: l)) (join path n) l n ∧ Clean p t d (join path n) (n :: l)

/-- What is known of a deletion: what it leaves, and what its status tells. -/
structure Verdict (clean gone : Prop) (rest : ListedTree Name) (r : Outcome) : Prop where
  of_clean : clean → r.1 = rest ∧ (r.2 = 0 ↔ gone)
  of_zero : (∀ x, p.removes x = true) → r.2 = 0 → clean ∧ gone

/-- What a deletion of the contents does to a directory. -/
def Sweeps (contents : Text → ListedTree Name → Option Outcome) : Prop :=
  ∀ path links l r, d <:+ l → Listed p d l → t.kind l = some .dir →
    p.resolve (entering p t d l).toFileTree path = .ok (links, l) → contents path (entering p t d l) = some r →
    Verdict p (Clean p t d path l) (p.lists l = true → ∀ n ∈ t.names l, Goes p t d (n :: l)) (leaving p t d l) r

end Turns

section Sweep

variable {p : Process} {t : ListedTree Name} {d l : Location Name} {n : Name} {path : Text} {links : Nat}
  {r s : Outcome} {contents : Text → ListedTree Name → Option Outcome}

theorem pathTo_append (path : Text) (front : Location Name) (n : Name) :
    pathTo path (front ++ [n]) = pathTo (join path n) front := by
  induction front with
  | nil => rfl
  | cons m front ih => rw [List.cons_append, pathTo, ih, pathTo]

theorem clean_iff :
    Clean p t d path l ↔
      ∀ n, t.kind (n :: l) ≠ none → Listed p d (n :: l) → CleanEntry p t d path l n := by
  constructor
  · intro h n hkind hlisted
    refine ⟨h [] n hkind hlisted, fun front m hpresent hlisted => ?_⟩
    have hfront := h (front ++ [n]) m
    rw [List.append_assoc, List.singleton_append, pathTo, pathTo_append] at hfront
    exact hfront hpresent hlisted
  · intro h front n hpresent hlisted
    rcases List.eq_nil_or_concat front with rfl | ⟨front, m, rfl⟩
    · exact (h n hpresent hlisted).1
    · rw [List.concat_eq_append, List.append_assoc, List.singleton_append] at hpresent hlisted ⊢
      have hunder : Under (m :: l) (n :: (front ++ m :: l)) := under_cons_of_suffix n (List.suffix_append front _)
      have hdir := FileTree.kind_of_under hunder hpresent
      have hentry := (h m (by simp [hdir]) (hlisted.mono hunder.1)).2 front n hpresent hlisted
      rw [pathTo, pathTo_append]
      exact hentry

/-- Nothing is under what is no directory. -/
theorem not_present_under (hkind : t.kind l ≠ some .dir) (x : Location Name) (hx : Under l x) : t.kind x = none := by
  by_contra hpresent
  exact hkind (FileTree.kind_of_under hx hpresent)

theorem first_eq_zero_iff {a b : Int} : (if a ≠ 0 then a else b) = 0 ↔ a = 0 ∧ b = 0 := by
  split
  · rename_i ha
    exact iff_of_false ha fun h => ha h.1
  · rename_i ha
    exact ⟨fun hb => ⟨not_not.mp ha, hb⟩, fun h => h.2⟩

theorem status_eq_zero_iff {call : Except Errno (ListedTree Name)} :
    (status t call).2 = 0 ↔ ∃ t', call = .ok t' := by
  cases call with
  | error e => exact iff_of_false (by simp [status]) (by simp)
  | ok t' => exact iff_of_true rfl ⟨t', rfl⟩

/-- `rmdir`, where the path leads to a directory whose turn it is. -/
theorem rmdir_leaving (hd : Under d (n :: l)) (hlisted : Listed p d (n :: l)) (hdir : t.kind (n :: l) = some .dir)
    (hleads : p.parentOf (leaving p t d (n :: l)).toFileTree path = .ok (l, some (.name n))) :
    (status (leaving p t d (n :: l)) (p.rmdir (leaving p t d (n :: l)) path)).1 = behind p t d (n :: l) ∧
      ((status (leaving p t d (n :: l)) (p.rmdir (leaving p t d (n :: l)) path)).2 = 0 ↔ Goes p t d (n :: l)) := by
  have hself := (kind_leaving_self p t d (n :: l)).trans hdir
  have hgoes := goes_iff (t := t) (by simp [hdir]) hlisted
  by_cases hgone : Goes p t d (n :: l)
  · obtain ⟨hremoves, hentries⟩ := hgoes.mp hgone
    have hnames := (names_leaving_eq_nil_iff hd.1).mpr hentries
    rw [Process.rmdir_eq_ok_iff.mpr ⟨l, n, hleads, hself, hnames, hremoves, rfl⟩, remove_leaving hd hgone hnames]
    exact ⟨rfl, iff_of_true rfl hgone⟩
  · cases hcall : p.rmdir (leaving p t d (n :: l)) path with
    | ok t' =>
      obtain ⟨l', m, hleads', -, hnames, hremoves, -⟩ := Process.rmdir_eq_ok_iff.mp hcall
      rw [hleads] at hleads'
      cases hleads'
      exact absurd (hgoes.mpr ⟨hremoves, (names_leaving_eq_nil_iff hd.1).mp hnames⟩) hgone
    | error e => exact ⟨(behind_eq_leaving hgone).symm, iff_of_false (by simp [status]) hgone⟩

/-- **A directory** is swept, and then removed. -/
theorem Sweeps.deleteWith (hsweeps : Sweeps p t d contents) (hshrinks : Shrinks contents) (hd : Under d (n :: l))
    (hlisted : Listed p d (n :: l)) (hdir : t.kind (n :: l) = some .dir)
    (hresolve : p.resolve (entering p t d (n :: l)).toFileTree (join path n) = .ok (links, n :: l))
    (hleads : ∀ l' m, p.parentOf t.toFileTree (join path n) = .ok (l', some (.name m)) → l' = l ∧ m = n)
    (hr : deleteWith p contents (join path n) (entering p t d (n :: l)) = some r) :
    Verdict p (CleanEntry p t d path l n) (Goes p t d (n :: l)) (behind p t d (n :: l)) r := by
  obtain ⟨left, hleft, rfl⟩ := Option.map_eq_some_iff.mp hr
  have hverdict := hsweeps _ _ _ _ hd.1 hlisted hdir hresolve hleft
  have hgoes := goes_iff (t := t) (by simp [hdir]) hlisted
  constructor
  · rintro ⟨hplain, hclean⟩
    obtain ⟨hrest, hzero⟩ := hverdict.of_clean hclean
    obtain ⟨hbehind, hstatus⟩ := rmdir_leaving hd hlisted hdir hplain.leads
    rw [← hrest] at hbehind hstatus
    refine ⟨hbehind, first_eq_zero_iff.trans ⟨fun h => hstatus.mp h.2, fun hgone => ⟨?_, hstatus.mpr hgone⟩⟩⟩
    exact hzero.mpr fun _ => (hgoes.mp hgone).2
  · intro hall hstatus
    obtain ⟨hzero, hcall⟩ := first_eq_zero_iff.mp hstatus
    obtain ⟨t', hcall⟩ := status_eq_zero_iff.mp hcall
    obtain ⟨hclean, -⟩ := hverdict.of_zero hall hzero
    obtain ⟨hrest, -⟩ := hverdict.of_clean hclean
    obtain ⟨l', m, hleads', -, hnames, hremoves, -⟩ := Process.rmdir_eq_ok_iff.mp hcall
    have hwithin := (hshrinks _ _ _ hleft).trans (remaining_within p t d _)
    obtain ⟨rfl, rfl⟩ := hleads l' m (Process.parentOf_mono hwithin hleads')
    rw [hrest] at hleads' hnames
    refine ⟨⟨⟨hleads', fun _ => (kind_leaving_self p t d _).trans hdir⟩, hclean⟩, hgoes.mpr ⟨hremoves, ?_⟩⟩
    exact (names_leaving_eq_nil_iff hd.1).mp hnames

/-- **A file or a link** is removed. -/
theorem verdict_path_delete_file (hd : Under d (n :: l)) (hlisted : Listed p d (n :: l)) {k : Kind Name}
    (hkind : t.kind (n :: l) = some k) (hdir : k ≠ .dir)
    (hnot : path_is_dir p (entering p t d (n :: l)) (join path n) = false)
    (hleads : ∀ l' m, p.parentOf t.toFileTree (join path n) = .ok (l', some (.name m)) → l' = l ∧ m = n) :
    Verdict p (CleanEntry p t d path l n) (Goes p t d (n :: l)) (behind p t d (n :: l))
      (path_delete_file p (join path n) (entering p t d (n :: l))) := by
  have hnothing : ∀ x, Under (n :: l) x → t.kind x = none :=
    not_present_under (by rw [hkind]; simpa using hdir)
  have hgoes : Goes p t d (n :: l) ↔ p.removes (n :: l) = true := by
    rw [goes_iff (by simp [hkind]) hlisted, ListedTree.names_eq_nil_iff.mpr hnothing]
    simp
  have hleaving : leaving p t d (n :: l) = entering p t d (n :: l) :=
    leaving_eq_entering fun x hx hpresent => absurd (hnothing x hx) hpresent
  have hclean : Clean p t d (join path n) (n :: l) := fun front m hpresent _ =>
    absurd (hnothing _ (under_cons_of_suffix m (List.suffix_append front _))) hpresent
  have hself : (entering p t d (n :: l)).kind (n :: l) = some k :=
    (kind_entering_of_suffix List.suffix_rfl).trans hkind
  have hslash := endsWithSlash_join path n
  constructor
  · rintro ⟨hplain, -⟩
    rw [hleaving] at hplain
    unfold path_delete_file
    by_cases hremoves : p.removes (n :: l) = true
    · have hnames : (leaving p t d (n :: l)).names (n :: l) = [] := by
        rw [names_leaving_eq_nil_iff hd.1, ListedTree.names_eq_nil_iff.mpr hnothing]
        simp
      rw [Process.unlink_eq_ok_iff.mpr ⟨l, n, k, hplain.leads, hself, hdir, hslash, hremoves, rfl⟩]
      refine ⟨?_, iff_of_true rfl (hgoes.mpr hremoves)⟩
      rw [← remove_leaving hd (hgoes.mpr hremoves) hnames, hleaving]
      rfl
    · have hstays : ¬ Goes p t d (n :: l) := fun hgone => hremoves (hgoes.mp hgone)
      cases hcall : p.unlink (entering p t d (n :: l)) (join path n) with
      | ok t' =>
        obtain ⟨l', m, k', hleads', -, -, -, hremoves', -⟩ := Process.unlink_eq_ok_iff.mp hcall
        rw [hplain.leads] at hleads'
        cases hleads'
        exact absurd hremoves' hremoves
      | error e =>
        refine ⟨?_, iff_of_false (by simp [status]) hstays⟩
        rw [behind_eq_leaving hstays, hleaving]
        rfl
  · intro hall hstatus
    obtain ⟨t', hcall⟩ := status_eq_zero_iff.mp hstatus
    obtain ⟨l', m, k', hleads', -, -, -, -, -⟩ := Process.unlink_eq_ok_iff.mp hcall
    obtain ⟨rfl, rfl⟩ := hleads l' m (Process.parentOf_mono (remaining_within p t d _) hleads')
    refine ⟨⟨⟨hleaving ▸ hleads', fun h => ?_⟩, hclean⟩, hgoes.mpr (hall _)⟩
    rw [hleaving, hnot] at h
    cases h

/-- The path of an entry leads to it. -/
theorem leads_join (hpath : path ≠ []) (hresolve : p.resolve t.toFileTree path = .ok (links, l)) :
    ∀ l' m, p.parentOf t.toFileTree (join path n) = .ok (l', some (.name m)) → l' = l ∧ m = n := by
  intro l' m h
  obtain ⟨hlast, -, -, -, links', hresolve'⟩ := (Process.parentOf_join_iff hpath).mp h
  rw [hresolve] at hresolve'
  cases hresolve'
  cases hlast
  exact ⟨rfl, rfl⟩

/-- The path of a directory leads to it, and not through a link. -/
theorem resolve_join_dir (hpath : path ≠ []) (hresolve : p.resolve t.toFileTree path = .ok (links, l))
    (hdir : t.kind (n :: l) = some .dir) (hisDir : path_is_dir p (entering p t d (n :: l)) (join path n) = true) :
    ∃ links', p.resolve (entering p t d (n :: l)).toFileTree (join path n) = .ok (links', n :: l) := by
  rw [path_is_dir_eq] at hisDir
  obtain ⟨links', l', hentry, -⟩ := Process.isDirectory_iff.mp hisDir
  obtain ⟨-, links₀, l₀, hfront, hwalk⟩ :=
    (Process.resolve_join_iff hpath).mp (Process.resolve_mono (remaining_within p t d _) hentry)
  rw [hresolve] at hfront
  cases hfront
  obtain ⟨_, _, _, hadvance, hrest⟩ := FileTree.walk_cons_eq_ok_iff.mp hwalk
  cases hadvance with
  | entry =>
    rw [List.append_nil, FileTree.walk_nil] at hrest
    cases hrest
    exact ⟨_, hentry⟩
  | link _ _ hlink =>
    rw [hdir] at hlink
    cases hlink

/-- **A directory that is not found to be one** is left: `unlink` does not remove it. -/
theorem verdict_not_found (hdir : t.kind (n :: l) = some .dir)
    (hnot : path_is_dir p (entering p t d (n :: l)) (join path n) = false)
    (hleads : ∀ l' m, p.parentOf t.toFileTree (join path n) = .ok (l', some (.name m)) → l' = l ∧ m = n) :
    Verdict p (CleanEntry p t d path l n) (Goes p t d (n :: l)) (behind p t d (n :: l))
      (path_delete_file p (join path n) (entering p t d (n :: l))) := by
  have hself : (entering p t d (n :: l)).kind (n :: l) = some .dir :=
    (kind_entering_of_suffix List.suffix_rfl).trans hdir
  rw [path_is_dir_eq] at hnot
  constructor
  · rintro ⟨hplain, -⟩
    have hparent := Process.parentOf_mono (leaving_within p t d (n :: l)) hplain.leads
    obtain ⟨links', hentry⟩ := Process.resolve_of_parentOf hparent hself
    rw [Process.isDirectory_iff.mpr ⟨links', n :: l, hentry, hself⟩] at hnot
    cases hnot
  · intro _ hstatus
    obtain ⟨t', hcall⟩ := status_eq_zero_iff.mp hstatus
    obtain ⟨l', m, k', hleads', hkind', hne, -⟩ := Process.unlink_eq_ok_iff.mp hcall
    obtain ⟨rfl, rfl⟩ := hleads l' m (Process.parentOf_mono (remaining_within p t d _) hleads')
    rw [hself] at hkind'
    exact absurd (Option.some.inj hkind').symm hne

/-- **A link that is swept** is left: `rmdir` does not remove it. -/
theorem verdict_link (hshrinks : Shrinks contents) {k : Kind Name} (hkind : t.kind (n :: l) = some k) (hne : k ≠ .dir)
    (hisDir : path_is_dir p (entering p t d (n :: l)) (join path n) = true)
    (hleads : ∀ l' m, p.parentOf t.toFileTree (join path n) = .ok (l', some (.name m)) → l' = l ∧ m = n)
    (hr : deleteWith p contents (join path n) (entering p t d (n :: l)) = some r) :
    Verdict p (CleanEntry p t d path l n) (Goes p t d (n :: l)) (behind p t d (n :: l)) r := by
  constructor
  · rintro ⟨hplain, -⟩
    have hnothing := not_present_under (t := t) (l := n :: l) (by rw [hkind]; simpa using hne)
    have hleaving : leaving p t d (n :: l) = entering p t d (n :: l) :=
      leaving_eq_entering fun x hx hpresent => absurd (hnothing x hx) hpresent
    have hkind' := hplain.dir (hleaving ▸ hisDir)
    rw [kind_leaving_self, hkind] at hkind'
    exact absurd (Option.some.inj hkind') hne
  · intro _ hstatus
    obtain ⟨left, hleft, rfl⟩ := Option.map_eq_some_iff.mp hr
    obtain ⟨t', hcall⟩ := status_eq_zero_iff.mp (first_eq_zero_iff.mp hstatus).2
    obtain ⟨l', m, hleads', hkind', -⟩ := Process.rmdir_eq_ok_iff.mp hcall
    have hwithin := (hshrinks _ _ _ hleft).trans (remaining_within p t d _)
    obtain ⟨rfl, rfl⟩ := hleads l' m (Process.parentOf_mono hwithin hleads')
    have hkind' := hwithin.kind hkind'
    rw [hkind] at hkind'
    exact absurd (Option.some.inj hkind') hne

/-- **One name.** -/
theorem Sweeps.deleteName (hsweeps : Sweeps p t d contents) (hshrinks : Shrinks contents) (hd : Under d (n :: l))
    (hlisted : Listed p d (n :: l)) (hpresent : t.kind (n :: l) ≠ none) (hpath : path ≠ [])
    (hresolve : p.resolve t.toFileTree path = .ok (links, l))
    (hr : deleteName p contents (join path n) (entering p t d (n :: l)) = some r) :
    Verdict p (CleanEntry p t d path l n) (Goes p t d (n :: l)) (behind p t d (n :: l)) r := by
  have hleads := leads_join (n := n) hpath hresolve
  obtain ⟨k, hkind⟩ := Option.ne_none_iff_exists'.mp hpresent
  unfold DeleteDir.deleteName at hr
  by_cases hdir : k = .dir
  · subst hdir
    split at hr
    · rename_i hisDir
      obtain ⟨links', hentry⟩ := resolve_join_dir hpath hresolve hkind hisDir
      exact hsweeps.deleteWith hshrinks hd hlisted hkind hentry hleads hr
    · rename_i hisDir
      cases hr
      exact verdict_not_found hkind (by simpa using hisDir) hleads
  · split at hr
    · rename_i hisDir
      exact verdict_link hshrinks hkind hdir hisDir hleads hr
    · rename_i hisDir
      cases hr
      exact verdict_path_delete_file hd hlisted hkind hdir (by simpa using hisDir) hleads

/-! ### The loop over the names -/

/-- The tree when some names of a directory are done. -/
noncomputable def swept (p : Process) (t : ListedTree Name) (d l : Location Name) (done : List Name) :
    ListedTree Name :=
  remaining p t d fun y => Earlier y l ∨ ∃ m ∈ done, m :: l <:+ y

theorem closed_swept (l : Location Name) (done : List Name) :
    Closed fun y => Earlier y l ∨ ∃ m ∈ done, m :: l <:+ y :=
  fun _ _ hyz h => h.imp (fun h => h.of_suffix hyz) fun ⟨m, hm, h⟩ => ⟨m, hm, h.trans hyz⟩

theorem swept_nil (p : Process) (t : ListedTree Name) (d l : Location Name) :
    swept p t d l [] = entering p t d l := by
  refine remaining_congr (closed_swept l []) (closed_earlier l) fun y _ _ _ => ?_
  simp

theorem swept_names (p : Process) (t : ListedTree Name) (d l : Location Name) :
    swept p t d l (t.names l) = leaving p t d l := by
  refine remaining_congr (closed_swept l _) (closed_leaving l) fun y hkind _ _ => ?_
  rw [under_iff_exists_entry]
  exact or_congr_right ⟨fun ⟨m, _, h⟩ => ⟨m, h⟩, fun ⟨m, h⟩ => ⟨m, ListedTree.mem_names_of_suffix h hkind, h⟩⟩

/-- The names that are done are those before the next one. -/
theorem mem_done_iff {done rest : List Name} (hnames : t.names l = done ++ n :: rest) {m : Name}
    (hm : m ∈ t.names l) : m ∈ done ↔ m < n := by
  have hsorted := t.sorted l
  rw [hnames, List.pairwise_append, List.pairwise_cons] at hsorted
  obtain ⟨-, ⟨hrest, -⟩, hdone⟩ := hsorted
  have hasymm : ∀ a b : Name, a < b → ¬ b < a := fun a b => Std.Asymm.asymm (r := fun a b : Name => a < b) a b
  refine ⟨fun hmem => hdone m hmem n List.mem_cons_self, fun hlt => ?_⟩
  rw [hnames, List.mem_append, List.mem_cons] at hm
  rcases hm with hmem | rfl | hmem
  · exact hmem
  · exact absurd hlt (hasymm m m hlt)
  · exact absurd hlt (hasymm n m (hrest m hmem))

theorem swept_eq_entering {done rest : List Name} (hnames : t.names l = done ++ n :: rest) :
    swept p t d l done = entering p t d (n :: l) := by
  refine remaining_congr (closed_swept l done) (closed_earlier _) fun y hkind _ _ => ?_
  rw [earlier_cons_iff]
  refine or_congr_right (exists_congr fun m => and_congr_left fun hm => ?_)
  exact mem_done_iff hnames (ListedTree.mem_names_of_suffix hm hkind)

theorem behind_eq_swept {done rest : List Name} (hnames : t.names l = done ++ n :: rest) :
    behind p t d (n :: l) = swept p t d l (done ++ [n]) := by
  refine remaining_congr (closed_behind _) (closed_swept l _) fun y hkind _ _ => ?_
  have hdone : (∃ m, m < n ∧ m :: l <:+ y) ↔ ∃ m ∈ done, m :: l <:+ y :=
    exists_congr fun m => and_congr_left fun hm =>
      (mem_done_iff hnames (ListedTree.mem_names_of_suffix hm hkind)).symm
  rw [earlier_cons_iff, hdone, or_assoc]
  refine or_congr_right ?_
  simp only [List.mem_append, List.mem_singleton, or_and_right, exists_or, exists_eq_left]

/-- A status that is not 0 stays. -/
theorem foldlM_status {names : List Name} (hr : names.foldlM (deleteNext p contents path) s = some r)
    (hzero : r.2 = 0) :
    s.2 = 0 := by
  induction names generalizing s with
  | nil =>
    cases hr
    exact hzero
  | cons n names ih =>
    rw [List.foldlM_cons] at hr
    obtain ⟨s', hs', hr⟩ := Option.bind_eq_some_iff.mp hr
    obtain ⟨r', -, rfl⟩ := Option.map_eq_some_iff.mp hs'
    exact (first_eq_zero_iff.mp (ih hr)).1

/-- **The loop.** -/
theorem Sweeps.foldlM (hsweeps : Sweeps p t d contents) (hshrinks : Shrinks contents) (hd : d <:+ l)
    (hlisted : Listed p d l) (hlists : p.lists l = true) (hpath : path ≠ [])
    (hresolve : p.resolve t.toFileTree path = .ok (links, l)) (done : List Name) {rest : List Name}
    (hnames : t.names l = done ++ rest) (hs : s.1 = swept p t d l done)
    (hr : rest.foldlM (deleteNext p contents path) s = some r) :
    Verdict p (∀ n ∈ rest, CleanEntry p t d path l n) (s.2 = 0 ∧ ∀ n ∈ rest, Goes p t d (n :: l)) (leaving p t d l)
      r := by
  induction rest generalizing done s with
  | nil =>
    cases hr
    rw [List.append_nil] at hnames
    refine ⟨fun _ => ⟨?_, by simp⟩, fun _ hzero => ⟨by simp, hzero, by simp⟩⟩
    rw [hs, ← hnames, swept_names]
  | cons n rest ih =>
    rw [List.foldlM_cons] at hr
    obtain ⟨s', hs', hr⟩ := Option.bind_eq_some_iff.mp hr
    obtain ⟨r', hr', rfl⟩ := Option.map_eq_some_iff.mp hs'
    rw [hs, swept_eq_entering hnames] at hr'
    have hpresent : t.kind (n :: l) ≠ none := (t.mem_names l n).mp (by simp [hnames])
    have hentry := hsweeps.deleteName hshrinks (under_cons_of_suffix n hd) (hlisted.cons hlists) hpresent hpath
      hresolve hr'
    have hnext := fun hclean => ih (s := (r'.1, if s.2 ≠ 0 then s.2 else r'.2)) (done ++ [n])
      (by rw [hnames, List.append_assoc, List.singleton_append])
      ((hentry.of_clean hclean).1.trans (behind_eq_swept hnames)) hr
    simp only [List.forall_mem_cons]
    constructor
    · rintro ⟨hclean, hrest⟩
      obtain ⟨hleft, hzero⟩ := (hnext hclean).of_clean hrest
      refine ⟨hleft, hzero.trans ?_⟩
      rw [first_eq_zero_iff, (hentry.of_clean hclean).2, and_assoc]
    · intro hall hzero
      obtain ⟨hzero₁, hzero₂⟩ := first_eq_zero_iff.mp (foldlM_status hr hzero)
      obtain ⟨hclean, hgoes⟩ := hentry.of_zero hall hzero₂
      obtain ⟨hrest, -, hgone⟩ := (hnext hclean).of_zero hall hzero
      exact ⟨⟨hclean, hrest⟩, hzero₁, hgoes, hgone⟩

/-- **`path_delete_dir_contents`** sweeps. -/
theorem sweeps (p : Process) (t : ListedTree Name) (d : Location Name) (fuel : Nat) :
    Sweeps p t d (path_delete_dir_contents p fuel) := by
  induction fuel with
  | zero =>
    intro path links l r _ _ _ _ hr
    cases hr
  | succ fuel ih =>
    intro path links l r hd hlisted hdir hresolve hr
    have hself : (entering p t d l).kind l = some .dir := (kind_entering_of_suffix List.suffix_rfl).trans hdir
    have hnames : (entering p t d l).names l = t.names l :=
      ListedTree.names_congr fun n => by rw [kind_entering_of_suffix (List.suffix_cons n l)]
    have hpath : path ≠ [] := by
      rintro rfl
      cases hresolve
    rw [path_delete_dir_contents, scanDir_eq, Process.readdir_eq_of_resolve hresolve hself, hnames] at hr
    cases hlists : p.lists l with
    | true =>
      rw [hlists, if_pos rfl] at hr
      have hverdict := ih.foldlM (shrinks p fuel) hd hlisted hlists hpath
        (Process.resolve_mono (remaining_within p t d _) hresolve) [] rfl (swept_nil p t d l).symm hr
      have hclean : Clean p t d path l ↔ ∀ n ∈ t.names l, CleanEntry p t d path l n := by
        rw [clean_iff]
        exact forall_congr' fun n => ⟨fun h hn => h ((t.mem_names l n).mp hn) (hlisted.cons hlists),
          fun h hkind _ => h ((t.mem_names l n).mpr hkind)⟩
      rw [hclean]
      refine ⟨fun h => ?_, fun hall hzero => ?_⟩
      · simpa using hverdict.of_clean h
      · obtain ⟨h, -, hgone⟩ := hverdict.of_zero hall hzero
        exact ⟨h, fun _ => hgone⟩
    | false =>
      rw [hlists] at hr
      cases hr
      have hunlisted : ∀ y, Under l y → ¬ Listed p d y := by
        intro y hy hlisted
        have htrue := hlisted l hd hy
        rw [hlists] at htrue
        cases htrue
      refine ⟨fun _ => ⟨?_, by simp⟩, fun _ _ => ⟨fun front n _ hlisted => ?_, by simp⟩⟩
      · exact (leaving_eq_entering fun y hy hkind hgoes =>
          hunlisted y hy (hgoes y List.suffix_rfl hkind).2).symm
      · exact absurd hlisted (hunlisted _ (under_cons_of_suffix n (List.suffix_append front l)))

end Sweep

end Goldfish.Files.DeleteDir
