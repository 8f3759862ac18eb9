import Mathlib.Data.List.Basic
import Mathlib.Data.List.Induction
import Mathlib.Data.List.Nodup
import Mathlib.Data.List.Perm.Basic
import Mathlib.Tactic.Common

/-!
# Goldfish.Lib.FileTree

**Trees of files, directories and symbolic links**, with names of any type.

A `FileTree` says what is at each location; a location is its names, the innermost first.
In a `ListedTree` the names of a directory are ordered as well, and there are finitely
many of them on any way down. It can lose a location with nothing under it (`remove`), or
some locations with all that is under them (`prune`); a `FileTree` can get directories
(`mkdir`, `mkdirs`).

`walk` follows the components of a path from a location. It is taken apart one component
at a time (`walk_cons`, `walk_induct`), can be interrupted (`walk_append`), and leads where
it leads in a smaller tree (`walk_mono`).
-/

namespace Goldfish.Lib

/-- The names on the way to a place, the last one first. -/
abbrev Location (α : Type) := List α

/-- A component of a path: `.`, `..` or a name. -/
inductive Component (α : Type) where
  | here
  | up
  | name (n : α)
  deriving DecidableEq, Repr

/-- What is at a place. -/
inductive Kind (α : Type) where
  | dir
  | file
  | link (absolute : Bool) (target : List (Component α))
  deriving DecidableEq, Repr

/-- Everything but the root is in a directory. -/
structure FileTree (α : Type) where
  kind : Location α → Option (Kind α)
  root : kind [] = some .dir
  parent : ∀ l n, kind (n :: l) ≠ none → kind l = some .dir

/-- A finite tree, with the names in each directory in order. -/
structure ListedTree (α : Type) [LT α] extends FileTree α where
  names : Location α → List α
  mem_names : ∀ l n, n ∈ names l ↔ kind (n :: l) ≠ none
  sorted : ∀ l, (names l).Pairwise (· < ·)
  finite : ∃ depth, ∀ l, kind l ≠ none → l.length ≤ depth

/-- What is strictly under a location. -/
def Under {α : Type} (l x : Location α) : Prop := l <:+ x ∧ x ≠ l

section Under

variable {α : Type} {n m : α} {l x y : Location α}

theorem under_cons_of_suffix (n : α) (h : l <:+ x) : Under l (n :: x) := by
  refine ⟨h.trans (List.suffix_cons n x), ?_⟩
  rintro rfl
  exact absurd h.length_le (Nat.not_succ_le_self x.length)

theorem under_cons (n : α) (l : Location α) : Under l (n :: l) := under_cons_of_suffix n List.suffix_rfl

theorem Under.trans (h : Under l x) (hy : x <:+ y) : Under l y := by
  refine ⟨h.1.trans hy, ?_⟩
  rintro rfl
  exact h.2 (hy.eq_of_length_le h.1.length_le)

/-- What is under a location is at or under one of its entries. -/
theorem under_iff_exists_entry : Under l x ↔ ∃ n, n :: l <:+ x := by
  constructor
  · rintro ⟨⟨front, rfl⟩, hne⟩
    rcases List.eq_nil_or_concat front with rfl | ⟨front, n, rfl⟩
    · exact absurd rfl hne
    · exact ⟨n, front, by simp⟩
  · rintro ⟨n, h⟩
    exact (under_cons n l).trans h

/-- A location is at or under only one entry. -/
theorem eq_of_suffix (hx : n :: l <:+ x) (hy : m :: l <:+ x) : n = m := by
  have h := List.suffix_of_suffix_length_le hx hy (by simp)
  exact (List.cons.inj (h.eq_of_length (by simp))).1

/-- In the order of the names, without what is above or under. -/
def Earlier [LT α] (y x : Location α) : Prop := ∃ l m n, m < n ∧ m :: l <:+ y ∧ n :: l <:+ x

section Earlier

variable [LT α]

theorem earlier_cons_iff : Earlier y (n :: l) ↔ Earlier y l ∨ ∃ m, m < n ∧ m :: l <:+ y := by
  constructor
  · rintro ⟨l', m, n', hlt, hy, hx⟩
    rcases List.suffix_cons_iff.mp hx with heq | hsuffix
    · cases heq
      exact .inr ⟨m, hlt, hy⟩
    · exact .inl ⟨l', m, n', hlt, hy, hsuffix⟩
  · rintro (⟨l', m, n', hlt, hy, hx⟩ | ⟨m, hlt, hy⟩)
    · exact ⟨l', m, n', hlt, hy, hx.trans (List.suffix_cons n l)⟩
    · exact ⟨l, m, n, hlt, hy, List.suffix_rfl⟩

theorem Earlier.of_suffix (h : Earlier y x) (hy : y <:+ l) : Earlier l x := by
  obtain ⟨l', m, n, hlt, hm, hn⟩ := h
  exact ⟨l', m, n, hlt, hm.trans hy, hn⟩

theorem not_earlier_of_suffix [Std.Asymm fun a b : α => a < b] (h : x <:+ y) : ¬ Earlier y x := by
  rintro ⟨l, m, n, hlt, hm, hn⟩
  obtain rfl := eq_of_suffix hm (hn.trans h)
  exact Std.Asymm.asymm (r := fun a b : α => a < b) m m hlt hlt

end Earlier

end Under

namespace FileTree

variable {α : Type} {t t' t'' : FileTree α} {l x : Location α}

theorem ext_kind (h : ∀ l, t.kind l = t'.kind l) : t = t' := by
  have hkind : t.kind = t'.kind := funext h
  cases t
  cases t'
  cases hkind
  rfl

/-- Above everything is a directory. -/
theorem kind_of_under (h : Under l x) (hx : t.kind x ≠ none) : t.kind l = some .dir := by
  induction x with
  | nil => exact absurd (List.suffix_nil.mp h.1).symm h.2
  | cons n x ih =>
    have hdir := t.parent x n hx
    rcases List.suffix_cons_iff.mp h.1 with heq | hsuffix
    · exact absurd heq.symm h.2
    · by_cases heq : x = l
      · exact heq ▸ hdir
      · exact ih ⟨hsuffix, heq⟩ (by simp [hdir])

/-- A tree has nothing that another one does not have. -/
def Within (t t' : FileTree α) : Prop := ∀ l, t.kind l = none ∨ t.kind l = t'.kind l

theorem Within.refl (t : FileTree α) : t.Within t := fun _ => .inr rfl

theorem Within.trans (h : t.Within t') (h' : t'.Within t'') : t.Within t'' := by
  intro l
  rcases h l with hnone | heq
  · exact .inl hnone
  · rcases h' l with hnone | heq'
    · exact .inl (heq.trans hnone)
    · exact .inr (heq.trans heq')

theorem Within.kind {k : Kind α} (h : t.Within t') (hk : t.kind l = some k) : t'.kind l = some k := by
  rcases h l with hnone | heq
  · rw [hk] at hnone
    cases hnone
  · rw [← heq, hk]

section Mkdir

variable [DecidableEq α] {n : α}

/-- The tree with one more directory in a directory. -/
def mkdir (t : FileTree α) (l : Location α) (n : α) : FileTree α :=
  if h : t.kind l = some .dir then
    { kind := fun x => if x = n :: l then some .dir else t.kind x
      root := by rw [if_neg (List.cons_ne_nil n l).symm, t.root]
      parent := by
        intro x m hkind
        split
        · rfl
        · split at hkind
          · rename_i heq
            cases heq
            exact h
          · exact t.parent x m hkind }
  else t

theorem kind_mkdir (h : t.kind l = some .dir) (n : α) (x : Location α) :
    (t.mkdir l n).kind x = if x = n :: l then some .dir else t.kind x := by
  rw [mkdir, dif_pos h]

theorem within_mkdir (h : t.kind (n :: l) = none) : t.Within (t.mkdir l n) := by
  intro x
  unfold mkdir
  split
  · dsimp only
    split
    · rename_i heq
      exact .inl (heq ▸ h)
    · exact .inr rfl
  · exact .inr rfl

/-- Directories one in the other. -/
def mkdirs (t : FileTree α) : Location α → List α → FileTree α
  | _, [] => t
  | l, n :: names => (t.mkdir l n).mkdirs (n :: l) names

end Mkdir

end FileTree

/-! ### Removing -/

namespace ListedTree

variable {α : Type} [LT α] {t t' : ListedTree α} {l x : Location α} {P : Location α → Prop}

theorem names_congr [Std.Asymm fun a b : α => a < b] (h : ∀ n, t.kind (n :: l) = none ↔ t'.kind (n :: l) = none) :
    t.names l = t'.names l := by
  have hnodup : ∀ t : ListedTree α, (t.names l).Nodup := by
    refine fun t => (t.sorted l).imp fun hlt heq => ?_
    exact Std.Asymm.asymm (r := fun a b : α => a < b) _ _ hlt (heq ▸ hlt)
  refine @List.Perm.eq_of_pairwise _ (fun a b => a < b) _ _ ?_ (t.sorted l) (t'.sorted l) ?_
  · exact fun a b _ _ hab hba => absurd hba (Std.Asymm.asymm a b hab)
  · refine (List.perm_ext_iff_of_nodup (hnodup t) (hnodup t')).mpr fun n => ?_
    rw [t.mem_names, t'.mem_names, Ne, Ne, h]

theorem ext_kind [Std.Asymm fun a b : α => a < b] (h : ∀ l, t.kind l = t'.kind l) : t = t' := by
  have htree : t.toFileTree = t'.toFileTree := FileTree.ext_kind h
  have hnames : t.names = t'.names := funext fun l => names_congr fun n => by rw [h]
  cases t
  cases t'
  cases htree
  cases hnames
  rfl

/-- What is at or under an entry of a directory has that entry listed. -/
theorem mem_names_of_suffix {n : α} (h : n :: l <:+ x) (hx : t.kind x ≠ none) : n ∈ t.names l := by
  refine (t.mem_names l n).mpr fun hnone => ?_
  by_cases heq : x = n :: l
  · exact hx (heq ▸ hnone)
  · have hdir := FileTree.kind_of_under ⟨h, heq⟩ hx
    rw [hnone] at hdir
    cases hdir

/-- A directory has no entries exactly if nothing is under it. -/
theorem names_eq_nil_iff : t.names l = [] ↔ ∀ x, Under l x → t.kind x = none := by
  rw [List.eq_nil_iff_forall_not_mem]
  constructor
  · intro h x hx
    by_contra hkind
    obtain ⟨n, hn⟩ := under_iff_exists_entry.mp hx
    exact h n (mem_names_of_suffix hn hkind)
  · intro h n hn
    exact (t.mem_names l n).mp hn (h _ (under_cons n l))

/-- The tree without some locations, and what is under them. -/
noncomputable def prune (t : ListedTree α) (P : Location α → Prop) : ListedTree α :=
  open Classical in
  let gone := fun x => ∃ l, l ≠ [] ∧ l <:+ x ∧ P l
  { kind := fun x => if gone x then none else t.kind x
    root := by
      rw [if_neg, t.root]
      rintro ⟨l, hl, hsuffix, -⟩
      exact hl (List.suffix_nil.mp hsuffix)
    parent := by
      intro x n hkind
      split at hkind
      · exact absurd rfl hkind
      · rename_i hgone
        rw [if_neg, t.parent x n hkind]
        rintro ⟨l, hl, hsuffix, hP⟩
        exact hgone ⟨l, hl, hsuffix.trans (List.suffix_cons n x), hP⟩
    names := fun x => (t.names x).filter fun n => ¬ gone (n :: x)
    mem_names := by
      intro x n
      by_cases hgone : gone (n :: x) <;> simp [hgone, t.mem_names]
    sorted := fun x => (t.sorted x).filter _
    finite := by
      obtain ⟨depth, hdepth⟩ := t.finite
      refine ⟨depth, fun x hx => hdepth x ?_⟩
      split at hx
      · exact absurd rfl hx
      · exact hx }

theorem kind_prune_of_mem (hx : x ≠ []) (h : P x) : (t.prune P).kind x = none := by
  classical
  exact if_pos ⟨x, hx, List.suffix_rfl, h⟩

/-- The locations go together with what is under them. -/
theorem kind_prune_of_not_mem (hclosed : ∀ l, l <:+ x → t.kind x ≠ none → P l → P x) (h : ¬ P x) :
    (t.prune P).kind x = t.kind x := by
  classical
  change (if ∃ l, l ≠ [] ∧ l <:+ x ∧ P l then none else t.kind x) = _
  split
  · rename_i hgone
    obtain ⟨l, -, hsuffix, hl⟩ := hgone
    by_contra hne
    exact h (hclosed l hsuffix (Ne.symm hne) hl)
  · rfl

theorem prune_within (t : ListedTree α) (P : Location α → Prop) : (t.prune P).Within t.toFileTree := by
  classical
  intro x
  change (if ∃ l, l ≠ [] ∧ l <:+ x ∧ P l then none else t.kind x) = none ∨
    (if ∃ l, l ≠ [] ∧ l <:+ x ∧ P l then none else t.kind x) = _
  split
  · exact .inl rfl
  · exact .inr rfl

variable [DecidableEq α]

/-- The tree without what is at a location. Neither the root can go nor what has something under it. -/
def remove (t : ListedTree α) (l : Location α) : ListedTree α :=
  if h : l ≠ [] ∧ t.names l = [] then
    { kind := fun x => if x = l then none else t.kind x
      root := by rw [if_neg h.1.symm, t.root]
      parent := by
        intro x n hkind
        have hx : t.kind (n :: x) ≠ none := by
          split at hkind
          · exact absurd rfl hkind
          · exact hkind
        rw [if_neg, t.parent x n hx]
        rintro rfl
        simpa [h.2] using (t.mem_names x n).mpr hx
      names := fun x => (t.names x).filter fun n => n :: x ≠ l
      mem_names := by
        intro x n
        by_cases heq : n :: x = l <;> simp [heq, t.mem_names]
      sorted := fun x => (t.sorted x).filter _
      finite := by
        obtain ⟨depth, hdepth⟩ := t.finite
        refine ⟨depth, fun x hx => hdepth x ?_⟩
        split at hx
        · exact absurd rfl hx
        · exact hx }
  else t

theorem kind_remove (hl : l ≠ []) (h : t.names l = []) (x : Location α) :
    (t.remove l).kind x = if x = l then none else t.kind x := by
  rw [remove, dif_pos ⟨hl, h⟩]

theorem remove_within (t : ListedTree α) (l : Location α) : (t.remove l).Within t.toFileTree := by
  intro x
  unfold remove
  split
  · dsimp only
    split
    · exact .inl rfl
    · exact .inr rfl
  · exact .inr rfl

end ListedTree

/-! ### Following a path -/

/-- The numbers of the errors. -/
inductive Errno where
  | ENOENT
  | ENOTDIR
  | EACCES
  | ELOOP
  | ENAMETOOLONG
  | EEXIST
  | EISDIR
  | ENOTEMPTY
  | EINVAL
  deriving DecidableEq, Repr

/-- The names that the file system accepts, and the directories that may be walked through. -/
structure Rights (α : Type) where
  accepts : α → Bool
  search : Location α → Bool

/-- All directories may be walked through. -/
def Rights.anywhere {α : Type} (r : Rights α) : Rights α := { r with search := fun _ => true }

namespace FileTree

variable {α : Type} {t t' : FileTree α} {r : Rights α}

/-- One component of a path, with the number of links that may still be followed: where it leads,
and what is to be walked from there because of a link. -/
def advance (t : FileTree α) (r : Rights α) (links : Nat) (l : Location α) (c : Component α) :
    Except Errno (Nat × Location α × List (Component α)) :=
  match t.kind l with
  | none => .error .ENOENT
  | some .dir =>
    if r.search l then
      match c with
      | .here => .ok (links, l, [])
      | .up => .ok (links, l.tail, [])
      | .name n =>
        match t.kind (n :: l) with
        | none => .error (if r.accepts n then .ENOENT else .ENAMETOOLONG)
        | some (.link absolute target) =>
          match links with
          | 0 => .error .ELOOP
          | links + 1 => .ok (links, if absolute then [] else l, target)
        | some _ => .ok (links, n :: l, [])
    else .error .EACCES
  | some _ => .error .ENOTDIR

/-- The components until a link is followed; `next` is the walk with one link less. -/
def walkUntilLink (t : FileTree α) (r : Rights α)
    (next : Location α → List (Component α) → Except Errno (Nat × Location α)) (links : Nat) :
    Location α → List (Component α) → Except Errno (Nat × Location α)
  | l, [] => .ok (links, l)
  | l, c :: cs =>
    match t.advance r links l c with
    | .error e => .error e
    | .ok (links', l', target) =>
      if links' = links then t.walkUntilLink r next links l' cs else next l' (target ++ cs)

/-- Where a path leads, and the number of links that may still be followed. -/
def walk (t : FileTree α) (r : Rights α) : (links : Nat) → Location α → List (Component α) →
    Except Errno (Nat × Location α)
  | 0 => t.walkUntilLink r (fun _ _ => .error .ELOOP) 0
  | links + 1 => t.walkUntilLink r (t.walk r links) (links + 1)

/-- The ways in which a component leads somewhere. -/
inductive Advances (t : FileTree α) (r : Rights α) :
    Nat → Location α → Component α → Nat → Location α → List (Component α) → Prop where
  | here {links : Nat} {l : Location α} (hdir : t.kind l = some .dir) (hsearch : r.search l = true) :
      t.Advances r links l .here links l []
  | up {links : Nat} {l : Location α} (hdir : t.kind l = some .dir) (hsearch : r.search l = true) :
      t.Advances r links l .up links l.tail []
  | entry {links : Nat} {l : Location α} {n : α} {k : Kind α} (hdir : t.kind l = some .dir)
      (hsearch : r.search l = true) (hkind : t.kind (n :: l) = some k)
      (hlink : ∀ absolute target, k ≠ .link absolute target) :
      t.Advances r links l (.name n) links (n :: l) []
  | link {links : Nat} {l : Location α} {n : α} {absolute : Bool} {target : List (Component α)}
      (hdir : t.kind l = some .dir) (hsearch : r.search l = true)
      (hkind : t.kind (n :: l) = some (.link absolute target)) :
      t.Advances r (links + 1) l (.name n) links (if absolute then [] else l) target

section Walk

variable {links links' : Nat} {l l' : Location α} {c : Component α} {cs ds target : List (Component α)}

theorem Advances.eq_ok (h : t.Advances r links l c links' l' target) :
    t.advance r links l c = .ok (links', l', target) := by
  cases h with
  | here hdir hsearch => simp [advance, hdir, hsearch]
  | up hdir hsearch => simp [advance, hdir, hsearch]
  | entry hdir hsearch hkind hlink =>
    rename_i n k
    cases k with
    | dir => simp [advance, hdir, hsearch, hkind]
    | file => simp [advance, hdir, hsearch, hkind]
    | link absolute target => exact absurd rfl (hlink absolute target)
  | link hdir hsearch hkind => simp [advance, hdir, hsearch, hkind]

theorem advance_eq_ok_iff :
    t.advance r links l c = .ok (links', l', target) ↔ t.Advances r links l c links' l' target := by
  refine ⟨fun h => ?_, Advances.eq_ok⟩
  unfold advance at h
  split at h
  · cases h
  · rename_i hdir
    split at h
    · rename_i hsearch
      split at h
      · cases h
        exact .here hdir hsearch
      · cases h
        exact .up hdir hsearch
      · split at h
        · cases h
        · rename_i hkind
          split at h
          · cases h
          · cases h
            exact .link hdir hsearch hkind
        · rename_i k hlink hkind
          cases h
          exact .entry hdir hsearch hkind hlink
    · cases h
  · cases h

/-- Either no link is followed, or one. -/
theorem advance_links (h : t.advance r links l c = .ok (links', l', target)) :
    links' = links ∧ target = [] ∨ links = links' + 1 := by
  rw [advance_eq_ok_iff] at h
  cases h with
  | here => exact .inl ⟨rfl, rfl⟩
  | up => exact .inl ⟨rfl, rfl⟩
  | entry => exact .inl ⟨rfl, rfl⟩
  | link => exact .inr rfl

@[simp]
theorem walk_nil (t : FileTree α) (r : Rights α) (links : Nat) (l : Location α) :
    t.walk r links l [] = .ok (links, l) := by
  cases links <;> rfl

theorem walk_cons (t : FileTree α) (r : Rights α) (links : Nat) (l : Location α) (c : Component α)
    (cs : List (Component α)) :
    t.walk r links l (c :: cs) =
      (t.advance r links l c).bind fun next => t.walk r next.1 next.2.1 (next.2.2 ++ cs) := by
  cases hadvance : t.advance r links l c with
  | error e => cases links <;> simp [walk, walkUntilLink, hadvance, Except.bind]
  | ok next =>
    obtain ⟨links', l', target⟩ := next
    rcases advance_links hadvance with ⟨rfl, rfl⟩ | rfl
    · cases links' <;> simp [walk, walkUntilLink, hadvance, Except.bind]
    · simp [walk, walkUntilLink, hadvance, Except.bind]

/-- To prove something of every walk, one proves it of a component and what is walked then. -/
theorem walk_induct (t : FileTree α) (r : Rights α) {motive : Nat → Location α → List (Component α) → Prop}
    (nil : ∀ links l, motive links l [])
    (cons : ∀ links l c cs, (∀ links' l' target, t.advance r links l c = .ok (links', l', target) →
      motive links' l' (target ++ cs)) → motive links l (c :: cs))
    (links : Nat) (l : Location α) (cs : List (Component α)) : motive links l cs := by
  induction links using Nat.strongRecOn generalizing l cs with
  | ind links ih =>
    induction cs generalizing l with
    | nil => exact nil links l
    | cons c cs ihcs =>
      refine cons links l c cs fun links' l' target hadvance => ?_
      rcases advance_links hadvance with ⟨rfl, rfl⟩ | rfl
      · exact ihcs l'
      · exact ih links' (Nat.lt_succ_self links') l' (target ++ cs)

/-- A walk can be interrupted. -/
theorem walk_append (t : FileTree α) (r : Rights α) (links : Nat) (l : Location α) (cs ds : List (Component α)) :
    t.walk r links l (cs ++ ds) = (t.walk r links l cs).bind fun next => t.walk r next.1 next.2 ds := by
  induction links, l, cs using t.walk_induct r with
  | nil links l => simp [Except.bind]
  | cons links l c cs ih =>
    rw [List.cons_append, walk_cons, walk_cons]
    cases hadvance : t.advance r links l c with
    | error e => rfl
    | ok next =>
      have hnext := ih next.1 next.2.1 next.2.2 hadvance
      rw [List.append_assoc] at hnext
      exact hnext

theorem walk_append_eq_ok_iff {next : Nat × Location α} :
    t.walk r links l (cs ++ ds) = .ok next ↔
      ∃ links' l', t.walk r links l cs = .ok (links', l') ∧ t.walk r links' l' ds = .ok next := by
  rw [walk_append]
  cases t.walk r links l cs with
  | error e => simp [Except.bind]
  | ok next' => exact ⟨fun h => ⟨next'.1, next'.2, rfl, h⟩, fun ⟨_, _, h, hds⟩ => by cases h; exact hds⟩

theorem walk_cons_eq_ok_iff {next : Nat × Location α} :
    t.walk r links l (c :: cs) = .ok next ↔
      ∃ links' l' target, t.Advances r links l c links' l' target ∧ t.walk r links' l' (target ++ cs) = .ok next := by
  rw [walk_cons]
  simp only [← advance_eq_ok_iff]
  cases t.advance r links l c with
  | error e => simp [Except.bind]
  | ok next' =>
    exact ⟨fun h => ⟨next'.1, next'.2.1, next'.2.2, rfl, h⟩, fun ⟨_, _, _, h, hcs⟩ => by cases h; exact hcs⟩

/-- A walk that fails has a first component at which it does. -/
theorem exists_first_error {e : Errno} (h : t.walk r links l cs = .error e) :
    ∃ front c rest, cs = front ++ c :: rest ∧ (∃ links' l', t.walk r links l front = .ok (links', l')) ∧
      t.walk r links l (front ++ [c]) = .error e := by
  induction cs using List.reverseRecOn with
  | nil =>
    rw [walk_nil] at h
    cases h
  | append_singleton cs d ih =>
    cases hfront : t.walk r links l cs with
    | ok next => exact ⟨cs, d, [], rfl, ⟨next.1, next.2, hfront⟩, h⟩
    | error e' =>
      have herror : t.walk r links l (cs ++ [d]) = .error e' := by
        rw [walk_append, hfront]
        rfl
      rw [h] at herror
      cases herror
      obtain ⟨front, c, rest, rfl, hok, hc⟩ := ih hfront
      exact ⟨front, c, rest ++ [d], by simp, hok, hc⟩

theorem walk_append_of_error {e : Errno} (h : t.walk r links l cs = .error e) (ds : List (Component α)) :
    t.walk r links l (cs ++ ds) = .error e := by
  rw [walk_append, h]
  rfl

theorem walk_entry {n : α} (hdir : t.kind l = some .dir) (hsearch : r.search l = true)
    (hentry : t.kind (n :: l) = some .dir) : t.walk r links l [.name n] = .ok (links, n :: l) := by
  rw [walk_cons_eq_ok_iff]
  exact ⟨links, n :: l, [], .entry hdir hsearch hentry (by simp), by simp⟩

/-- Only a directory is walked through. -/
theorem Advances.dir (h : t.Advances r links l c links' l' target) : t.kind l = some .dir ∧ r.search l = true := by
  cases h with
  | here hdir hsearch => exact ⟨hdir, hsearch⟩
  | up hdir hsearch => exact ⟨hdir, hsearch⟩
  | entry hdir hsearch => exact ⟨hdir, hsearch⟩
  | link hdir hsearch => exact ⟨hdir, hsearch⟩

theorem advance_anywhere (h : t.advance r links l c ≠ .error .EACCES) :
    t.advance r.anywhere links l c = t.advance r links l c := by
  unfold advance at h ⊢
  split
  · rfl
  · rename_i hdir
    rw [hdir] at h
    by_cases hsearch : r.search l = true
    · rw [if_pos hsearch]
      rfl
    · exact absurd (if_neg hsearch) h
  · rfl

/-- A component leads where it leads in a smaller tree. -/
theorem Advances.mono (h : t.Within t') (hadvance : t.Advances r links l c links' l' target) :
    t'.Advances r links l c links' l' target := by
  cases hadvance with
  | here hdir hsearch => exact .here (h.kind hdir) hsearch
  | up hdir hsearch => exact .up (h.kind hdir) hsearch
  | entry hdir hsearch hkind hlink => exact .entry (h.kind hdir) hsearch (h.kind hkind) hlink
  | link hdir hsearch hkind => exact .link (h.kind hdir) hsearch (h.kind hkind)

/-- **A walk** leads where it leads in a smaller tree. -/
theorem walk_mono (h : t.Within t') {next : Nat × Location α} (hwalk : t.walk r links l cs = .ok next) :
    t'.walk r links l cs = .ok next := by
  induction links, l, cs using t.walk_induct r generalizing next with
  | nil links l => simpa using hwalk
  | cons links l c cs ih =>
    rw [walk_cons_eq_ok_iff] at hwalk ⊢
    obtain ⟨links', l', target, hadvance, hrest⟩ := hwalk
    exact ⟨links', l', target, hadvance.mono h, ih links' l' target hadvance.eq_ok hrest⟩

theorem walk_anywhere (h : t.walk r links l cs ≠ .error .EACCES) :
    t.walk r.anywhere links l cs = t.walk r links l cs := by
  induction links, l, cs using t.walk_induct r with
  | nil links l => rw [walk_nil, walk_nil]
  | cons links l c cs ih =>
    rw [walk_cons] at h ⊢
    rw [walk_cons]
    have hadvance : t.advance r links l c ≠ .error .EACCES := by
      intro herror
      rw [herror] at h
      exact h rfl
    rw [advance_anywhere hadvance]
    cases hnext : t.advance r links l c with
    | error e => rfl
    | ok next =>
      rw [hnext] at h
      exact ih _ _ _ hnext h

theorem walk_links_le (h : t.walk r links l cs = .ok (links', l')) : links' ≤ links := by
  induction links, l, cs using t.walk_induct r with
  | nil links l =>
    rw [walk_nil] at h
    cases h
    exact Nat.le_refl _
  | cons links l c cs ih =>
    rw [walk_cons_eq_ok_iff] at h
    obtain ⟨_, _, target, hadvance, hrest⟩ := h
    have hle := ih _ _ _ hadvance.eq_ok hrest
    rcases advance_links hadvance.eq_ok with ⟨rfl, -⟩ | rfl
    · exact hle
    · exact Nat.le_succ_of_le hle

/-- How far one can still go down, along links and into directories. -/
def room (depth links : Nat) (l : Location α) : Nat := links * (depth + 1) + (depth - l.length)

/-- An entry leaves less room. -/
theorem room_lt {depth : Nat} (hdepth : ∀ x, t.kind x ≠ none → x.length ≤ depth) {n : α}
    (h : t.walk r links l [.name n] = .ok (links', l')) : room depth links' l' < room depth links l := by
  unfold room
  rw [walk_cons_eq_ok_iff] at h
  obtain ⟨_, _, target, hadvance, hrest⟩ := h
  cases hadvance with
  | entry hdir hsearch hkind hlink =>
    rw [List.append_nil, walk_nil] at hrest
    cases hrest
    have hlength := hdepth (n :: l) (by simp [hkind])
    simp only [List.length_cons] at hlength ⊢
    omega
  | @link links _ _ _ _ hdir hsearch hkind =>
    have hle := Nat.mul_le_mul_right (depth + 1) (walk_links_le hrest)
    rw [Nat.succ_mul]
    omega

end Walk

end FileTree

end Goldfish.Lib
