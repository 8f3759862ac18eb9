import Goldfish.Files.PathParent
import Goldfish.Lib.FileTree
import Goldfish.Lib.Trace

/-!
# Goldfish.Files.SystemCalls

**System calls on paths**, as Linux answers them: what a path is made of, where it leads
(`resolve`), and the directory and the last component that `rmdir`, `unlink` and `mkdir`
work on (`parentOf`). A `Process` makes the calls.

A path with one more name (`join`) leads to an entry of the directory that the path leads
to (`parentOf_join_iff`, `resolve_join_iff`).
-/

namespace Goldfish.Files.SystemCalls

open Goldfish.Lib PathParent

/-! ### Names and paths -/

/-- What an entry of a directory may be called. -/
def IsEntryName (name : Text) : Prop := name ≠ [] ∧ name ≠ dot ∧ name ≠ dotdot ∧ ∀ c ∈ name, ispathsep c = false

instance (name : Text) : Decidable (IsEntryName name) :=
  decidable_of_iff (name ≠ [] ∧ name ≠ dot ∧ name ≠ dotdot ∧ (name.all fun c => !ispathsep c) = true)
    (by simp [IsEntryName])

/-- The name of an entry. -/
structure Name where
  text : Text
  valid : IsEntryName text
  deriving DecidableEq

/-- Names are compared like strings. -/
instance : LT Name := ⟨fun a b => a.text < b.text⟩

instance (a b : Name) : Decidable (a < b) := inferInstanceAs (Decidable (a.text < b.text))

instance : Std.Asymm fun a b : Name => a < b :=
  ⟨fun a b hab hba => Std.Asymm.asymm (r := fun a b : Text => a < b) a.text b.text hab hba⟩

/-- What a piece of a path stands for; an empty one stands for nothing. -/
def component (piece : Text) : Option (Component Name) :=
  if piece = dot then some .here
  else if piece = dotdot then some .up
  else if h : IsEntryName piece then some (.name ⟨piece, h⟩)
  else none

/-- The components of a path. -/
def components (path : Text) : List (Component Name) := (pieces path).filterMap component

/-- The path begins at the root. -/
def absolute (path : Text) : Bool := path.head? = some '/'.toUInt8

/-- Behind such a path no separator is put. -/
def endsWithSlash (path : Text) : Bool := path.getLast? = some '/'.toUInt8

/-- `fs::path`'s operator `/`, with an entry of a directory. -/
def join (path : Text) (name : Name) : Text :=
  path ++ (if path = [] ∨ endsWithSlash path then [] else ['/'.toUInt8]) ++ name.text

@[simp]
theorem components_nil : components [] = [] := by
  simp [components, pieces, component, IsEntryName, dot, dotdot]

section Join

variable {path : Text} {n : Name}

theorem components_append (path rest : Text) :
    components (path ++ '/'.toUInt8 :: rest) = components path ++ components rest := by
  rw [components, pieces, List.splitOnP_append_cons path rest (by decide), List.filterMap_append]
  rfl

theorem components_name (n : Name) : components n.text = [.name n] := by
  have hcomponent : component n.text = some (.name n) := by
    rw [component, if_neg n.valid.2.1, if_neg n.valid.2.2.1, dif_pos n.valid]
  rw [components, pieces, List.splitOnP_eq_singleton n.valid.2.2.2, List.filterMap_cons_some hcomponent,
    List.filterMap_nil]

theorem endsWithSlash_iff : endsWithSlash path = true ↔ ∃ front, path = front ++ ['/'.toUInt8] := by
  rw [endsWithSlash, decide_eq_true_iff, List.getLast?_eq_some_iff]

theorem components_join (path : Text) (n : Name) : components (join path n) = components path ++ [.name n] := by
  unfold join
  by_cases hslash : endsWithSlash path = true
  · obtain ⟨front, rfl⟩ := endsWithSlash_iff.mp hslash
    rw [if_pos (.inr hslash), List.append_nil, List.append_assoc, List.singleton_append, components_append,
      components_append, components_name]
    simp
  · by_cases hnil : path = []
    · rw [if_pos (.inl hnil), hnil]
      exact components_name n
    · rw [if_neg (by simp [hslash, hnil]), List.append_assoc, List.singleton_append, components_append,
        components_name]

theorem absolute_join (hpath : path ≠ []) : absolute (join path n) = absolute path := by
  obtain ⟨c, rest, rfl⟩ := List.exists_cons_of_ne_nil hpath
  rfl

theorem endsWithSlash_join (path : Text) (n : Name) : endsWithSlash (join path n) = false := by
  obtain ⟨front, c, hc⟩ := List.eq_nil_or_concat n.text |>.resolve_left n.valid.1
  have hsep := n.valid.2.2.2 c (by simp [hc])
  rw [endsWithSlash, join, hc, List.concat_eq_append, ← List.append_assoc, List.getLast?_concat]
  simpa [ispathsep] using hsep

theorem length_join_lt (path : Text) (n : Name) : path.length < (join path n).length := by
  have hname := List.length_pos_iff.mpr n.valid.1
  simp only [join, List.length_append]
  omega

end Join

/-! ### The calls -/

/-- A process, with where it is and what it may do. -/
structure Process where
  cwd : Location Name
  rights : Rights Name
  /-- The directories it may read, and what it may remove and create. -/
  lists : Location Name → Bool
  removes : Location Name → Bool
  creates : Location Name → Bool

/-- The limit of Linux, for the links on a path. -/
def MAXSYMLINKS : Nat := 40

/-- The limit of Linux, for a path with its NUL. -/
def PATH_MAX : Nat := 4096

/-- Paths that no call accepts. -/
def refuses (path : Text) : Option Errno :=
  if path = [] then some .ENOENT
  else if PATH_MAX ≤ path.length then some .ENAMETOOLONG
  else none

namespace Process

/-- The process, if it may walk through every directory. -/
def anywhere (p : Process) : Process := { p with rights := p.rights.anywhere }

/-- Where a walk begins. -/
def start (p : Process) (path : Text) : Location Name := if absolute path then [] else p.cwd

/-- Where a path leads, through all links. -/
def resolve (p : Process) (t : FileTree Name) (path : Text) : Except Errno (Nat × Location Name) :=
  match refuses path with
  | some e => .error e
  | none =>
    (t.walk p.rights MAXSYMLINKS (p.start path) (components path)).bind fun next =>
      if endsWithSlash path ∧ t.kind next.2 ≠ some .dir then .error .ENOTDIR else .ok next

/-- A directory that an entry is looked up in. -/
def directoryOf (p : Process) (t : FileTree Name) (start : Location Name) (cs : List (Component Name)) :
    Except Errno (Location Name) :=
  (t.walk p.rights MAXSYMLINKS start cs).bind fun next =>
    match t.kind next.2 with
    | none => .error .ENOENT
    | some .dir => if p.rights.search next.2 then .ok next.2 else .error .EACCES
    | some _ => .error .ENOTDIR

/-- The directory and the last component of a path. -/
def parentOf (p : Process) (t : FileTree Name) (path : Text) :
    Except Errno (Location Name × Option (Component Name)) :=
  match refuses path with
  | some e => .error e
  | none =>
    (p.directoryOf t (p.start path) (components path).dropLast).map fun l => (l, (components path).getLast?)

/-- The errno for a name that is not there. -/
def absent (p : Process) (n : Name) : Errno := if p.rights.accepts n then .ENOENT else .ENAMETOOLONG

/-- `lstat`: what a path names, be it a link. -/
def lstat (p : Process) (t : FileTree Name) (path : Text) : Except Errno (Location Name) :=
  match (components path).getLast? with
  | some (.name n) =>
    if endsWithSlash path then (p.resolve t path).map Prod.snd
    else
      (p.parentOf t path).bind fun last =>
        if t.kind (n :: last.1) = none then .error (p.absent n) else .ok (n :: last.1)
  | _ => (p.resolve t path).map Prod.snd

/-- `stat`, as far as it is asked for a directory. -/
def isDirectory (p : Process) (t : FileTree Name) (path : Text) : Bool :=
  match p.resolve t path with
  | .ok next => t.kind next.2 = some .dir
  | .error _ => false

/-- `opendir` and `readdir`, without `.` and `..`. -/
def readdir (p : Process) (t : ListedTree Name) (path : Text) : List Name :=
  match p.resolve t.toFileTree path with
  | .ok next => if t.kind next.2 = some .dir ∧ p.lists next.2 then t.names next.2 else []
  | .error _ => []

/-- `unlink`, which does not follow a link. -/
def unlink (p : Process) (t : ListedTree Name) (path : Text) : Except Errno (ListedTree Name) :=
  (p.parentOf t.toFileTree path).bind fun last =>
    match last with
    | (l, some (.name n)) =>
      match t.kind (n :: l) with
      | none => .error (p.absent n)
      | some .dir => .error .EISDIR
      | some _ =>
        if endsWithSlash path then .error .ENOTDIR
        else if p.removes (n :: l) then .ok (t.remove (n :: l))
        else .error .EACCES
    | _ => .error .EISDIR

/-- `rmdir`, of an empty directory. -/
def rmdir (p : Process) (t : ListedTree Name) (path : Text) : Except Errno (ListedTree Name) :=
  (p.parentOf t.toFileTree path).bind fun last =>
    match last with
    | (l, some (.name n)) =>
      match t.kind (n :: l) with
      | none => .error (p.absent n)
      | some .dir =>
        if t.names (n :: l) ≠ [] then .error .ENOTEMPTY
        else if p.removes (n :: l) then .ok (t.remove (n :: l))
        else .error .EACCES
      | some _ => .error .ENOTDIR
    | (_, some .up) => .error .ENOTEMPTY
    | _ => .error .EINVAL

/-- What `mkdir` does with the last component. -/
def makeEntry (p : Process) (t : FileTree Name) (l : Location Name) :
    Option (Component Name) → Except Errno (FileTree Name)
  | some (.name n) =>
    match t.kind (n :: l) with
    | some _ => .error .EEXIST
    | none =>
      if p.rights.accepts n then
        if p.creates (n :: l) then .ok (t.mkdir l n) else .error .EACCES
      else .error .ENAMETOOLONG
  | _ => .error .EEXIST

/-- `mkdir`. -/
def mkdir (p : Process) (t : FileTree Name) (path : Text) : Except Errno (FileTree Name) :=
  (p.parentOf t path).bind fun last => p.makeEntry t last.1 last.2

/-! ### Where they lead -/

section Lead

variable {p : Process} {t t' : FileTree Name} {path : Text} {next : Nat × Location Name} {l : Location Name}
  {n : Name} {last : Option (Component Name)}

theorem resolve_eq_ok_iff :
    p.resolve t path = .ok next ↔
      refuses path = none ∧ t.walk p.rights MAXSYMLINKS (p.start path) (components path) = .ok next ∧
        (endsWithSlash path = true → t.kind next.2 = some .dir) := by
  unfold resolve
  cases refuses path with
  | some e => simp
  | none =>
    cases t.walk p.rights MAXSYMLINKS (p.start path) (components path) with
    | error e => simp [Except.bind]
    | ok next' =>
      by_cases hslash : endsWithSlash path = true ∧ t.kind next'.2 ≠ some .dir
      · simp only [Except.bind, if_pos hslash]
        refine iff_of_false (fun h => by cases h) ?_
        rintro ⟨-, h, hdir⟩
        cases h
        exact hslash.2 (hdir hslash.1)
      · simp only [Except.bind, if_neg hslash]
        refine ⟨fun h => ?_, fun h => h.2.1⟩
        cases h
        exact ⟨trivial, rfl, fun h => by_contra fun hdir => hslash ⟨h, hdir⟩⟩

theorem directoryOf_eq_ok_iff {start : Location Name} {cs : List (Component Name)} :
    p.directoryOf t start cs = .ok l ↔
      t.kind l = some .dir ∧ p.rights.search l = true ∧
        ∃ links, t.walk p.rights MAXSYMLINKS start cs = .ok (links, l) := by
  unfold directoryOf
  cases t.walk p.rights MAXSYMLINKS start cs with
  | error e => simp [Except.bind]
  | ok next =>
    obtain ⟨links, l'⟩ := next
    simp only [Except.bind]
    constructor
    · intro h
      split at h
      · cases h
      · rename_i hdir
        split at h
        · rename_i hsearch
          cases h
          exact ⟨hdir, hsearch, links, rfl⟩
        · cases h
      · cases h
    · rintro ⟨hdir, hsearch, links', h⟩
      cases h
      simp [hdir, hsearch]

theorem parentOf_eq_ok_iff :
    p.parentOf t path = .ok (l, last) ↔
      refuses path = none ∧ last = (components path).getLast? ∧ t.kind l = some .dir ∧ p.rights.search l = true ∧
        ∃ links, t.walk p.rights MAXSYMLINKS (p.start path) (components path).dropLast = .ok (links, l) := by
  rw [← directoryOf_eq_ok_iff]
  unfold parentOf
  cases refuses path with
  | some e => simp
  | none =>
    cases p.directoryOf t (p.start path) (components path).dropLast with
    | error e => simp [Except.map]
    | ok l' => simp [Except.map, and_comm, eq_comm]

theorem resolve_mono (h : t.Within t') (hresolve : p.resolve t path = .ok next) : p.resolve t' path = .ok next := by
  obtain ⟨hpath, hwalk, hslash⟩ := resolve_eq_ok_iff.mp hresolve
  exact resolve_eq_ok_iff.mpr ⟨hpath, FileTree.walk_mono h hwalk, fun hs => h.kind (hslash hs)⟩

theorem parentOf_mono (h : t.Within t') (hparent : p.parentOf t path = .ok (l, last)) :
    p.parentOf t' path = .ok (l, last) := by
  obtain ⟨hpath, hlast, hdir, hsearch, links, hwalk⟩ := parentOf_eq_ok_iff.mp hparent
  exact parentOf_eq_ok_iff.mpr ⟨hpath, hlast, h.kind hdir, hsearch, links, FileTree.walk_mono h hwalk⟩

theorem isDirectory_iff :
    p.isDirectory t path = true ↔ ∃ links l, p.resolve t path = .ok (links, l) ∧ t.kind l = some .dir := by
  unfold isDirectory
  cases p.resolve t path with
  | error e => simp
  | ok next => exact decide_eq_true_iff.trans ⟨fun h => ⟨_, _, rfl, h⟩, fun ⟨_, _, h, hdir⟩ => by cases h; exact hdir⟩

theorem refuses_eq_none_iff : refuses path = none ↔ path ≠ [] ∧ path.length < PATH_MAX := by
  unfold refuses
  split
  · rename_i hnil
    simp [hnil]
  · rename_i hnil
    split
    · rename_i hlong
      simp [hlong]
    · rename_i hlong
      exact iff_of_true rfl ⟨hnil, not_le.mp hlong⟩

/-- One more name leads to an entry of the directory. -/
theorem parentOf_join_iff (hpath : path ≠ []) :
    p.parentOf t (join path n) = .ok (l, last) ↔
      last = some (.name n) ∧ (join path n).length < PATH_MAX ∧ t.kind l = some .dir ∧ p.rights.search l = true ∧
        ∃ links, p.resolve t path = .ok (links, l) := by
  have hstart : p.start (join path n) = p.start path := by rw [start, start, absolute_join hpath]
  have hlength := length_join_lt path n
  rw [parentOf_eq_ok_iff, refuses_eq_none_iff, components_join, List.getLast?_concat, List.dropLast_concat, hstart]
  constructor
  · rintro ⟨⟨-, hlong⟩, rfl, hdir, hsearch, links, hwalk⟩
    refine ⟨rfl, hlong, hdir, hsearch, links, resolve_eq_ok_iff.mpr ⟨?_, hwalk, fun _ => hdir⟩⟩
    exact refuses_eq_none_iff.mpr ⟨hpath, hlength.trans hlong⟩
  · rintro ⟨rfl, hlong, hdir, hsearch, links, hresolve⟩
    obtain ⟨-, hwalk, -⟩ := resolve_eq_ok_iff.mp hresolve
    exact ⟨⟨List.ne_nil_of_length_pos (by omega), hlong⟩, rfl, hdir, hsearch, links, hwalk⟩

theorem resolve_join_iff (hpath : path ≠ []) :
    p.resolve t (join path n) = .ok next ↔
      (join path n).length < PATH_MAX ∧
        ∃ links l, p.resolve t path = .ok (links, l) ∧ t.walk p.rights links l [.name n] = .ok next := by
  have hstart : p.start (join path n) = p.start path := by rw [start, start, absolute_join hpath]
  have hlength := length_join_lt path n
  rw [resolve_eq_ok_iff, refuses_eq_none_iff, components_join, endsWithSlash_join, hstart,
    FileTree.walk_append_eq_ok_iff]
  constructor
  · rintro ⟨⟨-, hlong⟩, ⟨links, l, hfront, hlast⟩, -⟩
    obtain ⟨_, _, _, hadvance, -⟩ := FileTree.walk_cons_eq_ok_iff.mp hlast
    refine ⟨hlong, links, l, resolve_eq_ok_iff.mpr ⟨?_, hfront, fun _ => hadvance.dir.1⟩, hlast⟩
    exact refuses_eq_none_iff.mpr ⟨hpath, hlength.trans hlong⟩
  · rintro ⟨hlong, links, l, hresolve, hlast⟩
    obtain ⟨-, hwalk, -⟩ := resolve_eq_ok_iff.mp hresolve
    exact ⟨⟨List.ne_nil_of_length_pos (by omega), hlong⟩, ⟨links, l, hwalk, hlast⟩, fun h => by cases h⟩

/-- A path that does not end in a link leads to the entry. -/
theorem resolve_of_parentOf (h : p.parentOf t path = .ok (l, some (.name n))) (hdir : t.kind (n :: l) = some .dir) :
    ∃ links, p.resolve t path = .ok (links, n :: l) := by
  obtain ⟨hpath, hlast, hl, hsearch, links, hwalk⟩ := parentOf_eq_ok_iff.mp h
  have hcomponents : components path = (components path).dropLast ++ [.name n] :=
    (List.dropLast_append_getLast? _ hlast.symm).symm
  refine ⟨links, resolve_eq_ok_iff.mpr ⟨hpath, ?_, fun _ => hdir⟩⟩
  rw [hcomponents]
  exact FileTree.walk_append_eq_ok_iff.mpr ⟨links, l, hwalk, FileTree.walk_entry hl hsearch hdir⟩

/-- A directory that a path names is where the path leads. -/
theorem resolve_of_lstat (h : p.lstat t path = .ok l) (hdir : t.kind l = some .dir) :
    ∃ links, p.resolve t path = .ok (links, l) := by
  have hmap : (p.resolve t path).map Prod.snd = .ok l → ∃ links, p.resolve t path = .ok (links, l) := by
    cases p.resolve t path with
    | error e => exact fun h => by cases h
    | ok next =>
      intro h
      cases h
      exact ⟨next.1, rfl⟩
  unfold lstat at h
  split at h
  · rename_i n hlast
    split at h
    · exact hmap h
    · obtain ⟨⟨l', last⟩, hparent, h⟩ := bind_eq_ok.mp h
      split at h
      · cases h
      · cases h
        obtain ⟨-, rfl, -⟩ := parentOf_eq_ok_iff.mp hparent
        rw [hlast] at hparent
        exact resolve_of_parentOf hparent hdir
  · exact hmap h

theorem lstat_of_parentOf (h : p.parentOf t path = .ok (l, some (.name n))) (hdir : t.kind (n :: l) = some .dir) :
    p.lstat t path = .ok (n :: l) := by
  obtain ⟨links, hresolve⟩ := resolve_of_parentOf h hdir
  obtain ⟨-, hlast, -⟩ := parentOf_eq_ok_iff.mp h
  unfold lstat
  rw [← hlast]
  simp [h, hresolve, hdir, Except.bind, Except.map]

theorem makeEntry_eq_ok_iff :
    p.makeEntry t l last = .ok t' ↔
      ∃ n, last = some (.name n) ∧ t.kind (n :: l) = none ∧ p.rights.accepts n = true ∧ p.creates (n :: l) = true ∧
        t' = t.mkdir l n := by
  constructor
  · intro h
    unfold makeEntry at h
    split at h
    · rename_i n
      split at h
      · cases h
      · rename_i hkind
        split at h
        · rename_i haccepts
          split at h
          · rename_i hcreates
            cases h
            exact ⟨n, rfl, hkind, haccepts, hcreates, rfl⟩
          · cases h
        · cases h
    · cases h
  · rintro ⟨n, rfl, hkind, haccepts, hcreates, rfl⟩
    simp [makeEntry, hkind, haccepts, hcreates]

theorem readdir_eq_of_resolve {t : ListedTree Name} {links : Nat} (h : p.resolve t.toFileTree path = .ok (links, l))
    (hdir : t.kind l = some .dir) : p.readdir t path = if p.lists l = true then t.names l else [] := by
  simp [readdir, h, hdir]

theorem readdir_eq_nil {t : ListedTree Name} (h : p.isDirectory t.toFileTree path = false) :
    p.readdir t path = [] := by
  unfold isDirectory at h
  unfold readdir
  cases hresolve : p.resolve t.toFileTree path with
  | error e => rfl
  | ok next =>
    rw [hresolve] at h
    exact if_neg fun hdir => of_decide_eq_false h hdir.1

theorem unlink_eq_ok_iff {t t' : ListedTree Name} :
    p.unlink t path = .ok t' ↔
      ∃ l n k, p.parentOf t.toFileTree path = .ok (l, some (.name n)) ∧ t.kind (n :: l) = some k ∧ k ≠ .dir ∧
        endsWithSlash path = false ∧ p.removes (n :: l) = true ∧ t' = t.remove (n :: l) := by
  constructor
  · intro h
    obtain ⟨last, hparent, h⟩ := bind_eq_ok.mp h
    split at h
    · rename_i l n
      split at h
      · cases h
      · cases h
      · rename_i k hdir hkind
        split at h
        · cases h
        · rename_i hslash
          split at h
          · rename_i hremoves
            cases h
            exact ⟨l, n, k, hparent, hkind, hdir, by simpa using hslash, hremoves, rfl⟩
          · cases h
    · cases h
  · rintro ⟨l, n, k, hparent, hkind, hdir, hslash, hremoves, rfl⟩
    cases k with
    | dir => exact absurd rfl hdir
    | file => simp [unlink, hparent, Except.bind, hkind, hslash, hremoves]
    | link absolute target => simp [unlink, hparent, Except.bind, hkind, hslash, hremoves]

theorem rmdir_eq_ok_iff {t t' : ListedTree Name} :
    p.rmdir t path = .ok t' ↔
      ∃ l n, p.parentOf t.toFileTree path = .ok (l, some (.name n)) ∧ t.kind (n :: l) = some .dir ∧
        t.names (n :: l) = [] ∧ p.removes (n :: l) = true ∧ t' = t.remove (n :: l) := by
  constructor
  · intro h
    obtain ⟨last, hparent, h⟩ := bind_eq_ok.mp h
    split at h
    · rename_i l n
      split at h
      · cases h
      · rename_i hkind
        split at h
        · cases h
        · rename_i hnames
          split at h
          · rename_i hremoves
            cases h
            exact ⟨l, n, hparent, hkind, not_not.mp hnames, hremoves, rfl⟩
          · cases h
      · cases h
    · cases h
    · cases h
  · rintro ⟨l, n, hparent, hkind, hnames, hremoves, rfl⟩
    simp [rmdir, hparent, Except.bind, hkind, hnames, hremoves]

end Lead

end Process

end Goldfish.Files.SystemCalls
