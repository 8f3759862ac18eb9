import Goldfish.Files.Mkdir

/-!
# Goldfish.Files.MkdirIfNeeded

**Whether a directory is there afterwards** (`path_mkdir_if_needed`).

The recursion makes one directory after another, from the first component on that leads
nowhere (`makeAll_eq`). Nothing but what was missing of the path is made
(`makeFrom_frame`). Behind a directory that has just been made only names can be made, so
it ends at a `.` or `..` (`Fresh.makeFrom`).

What is no directory counts as one that exists, and a path that goes on with `.` or `..`
behind a missing directory counts as failed. Otherwise 0 is returned exactly if the path
names a directory afterwards (`makes_directory_iff`).
-/

namespace Goldfish.Files.Mkdir

open Goldfish.Lib PathParent SystemCalls

/-! ### One component after another -/

section Steps

variable (p : Process) (start : Location Name)

/-- A directory is made for a component. -/
def makeAt (t : FileTree Name) (front : List (Component Name)) (c : Component Name) : Made :=
  match (p.directoryOf t start front).bind fun l => p.makeEntry t l (some c) with
  | .ok t' => (t', none)
  | .error e => (t, some e)

/-- Directories for the components behind `front`, until one fails. -/
def makeFrom : FileTree Name → List (Component Name) → List (Component Name) → Made
  | t, _, [] => (t, none)
  | t, front, c :: rest =>
    match makeAt p start t front c with
    | (t', some e) => (t', some e)
    | (t', none) => makeFrom t' (front ++ [c]) rest

end Steps

section Recursion

variable {p : Process} {start : Location Name} {t t' : FileTree Name} {path : Text}
  {front rest : List (Component Name)} {c d : Component Name} {ret : Option Errno} {l : Location Name} {n : Name}

theorem makeFrom_singleton (p : Process) (start : Location Name) (t : FileTree Name) (front : List (Component Name))
    (c : Component Name) : makeFrom p start t front [c] = makeAt p start t front c := by
  simp only [makeFrom]
  rcases makeAt p start t front c with ⟨t', _ | e⟩ <;> rfl

theorem makeFrom_concat (p : Process) (start : Location Name) (t : FileTree Name) (front rest : List (Component Name))
    (d : Component Name) :
    makeFrom p start t front (rest ++ [d]) =
      match makeFrom p start t front rest with
      | (t', some e) => (t', some e)
      | (t', none) => makeAt p start t' (front ++ rest) d := by
  induction rest generalizing t front with
  | nil =>
    rw [List.nil_append, makeFrom_singleton, makeFrom, List.append_nil]
  | cons c rest ih =>
    simp only [List.cons_append, makeFrom]
    rcases makeAt p start t front c with ⟨t', _ | e⟩
    · simpa using ih t' (front ++ [c])
    · rfl

theorem path_android_mkdir_eq (hpath : refuses path = none) (hcs : components path = front ++ [c]) :
    path_android_mkdir p path t = makeAt p (p.start path) t front c := by
  unfold path_android_mkdir makeAt Process.mkdir Process.parentOf
  rw [hpath, hcs, List.dropLast_concat, List.getLast?_concat]
  cases p.directoryOf t (p.start path) front with
  | error e => rfl
  | ok l => rfl

/-- A path exists unless it is followed to a missing entry. -/
theorem path_exists_eq_false_iff (hpath : refuses path = none) :
    path_exists p t path = false ↔
      t.walk p.rights MAXSYMLINKS (p.start path) (components path) = .error .ENOENT := by
  unfold path_exists Process.resolve
  rw [if_neg (Process.refuses_eq_none_iff.mp hpath).1, hpath]
  cases t.walk p.rights MAXSYMLINKS (p.start path) (components path) with
  | error e => simp [Except.bind]
  | ok next =>
    simp only [Except.bind]
    split
    · rename_i heq
      split at heq
      · cases heq
      · simp
    · rename_i e heq
      split at heq
      · cases heq
        simp
      · cases heq

theorem start_of_prefix (p : Process) {front : Text} (h : front <+: path) (hne : front ≠ []) :
    p.start front = p.start path := by
  rw [Process.start, Process.start, absolute_of_prefix h hne]

/-- A round of the recursion. -/
theorem makeAll_step (hpath : path.length < PATH_MAX) (hcs : components path = front ++ [c]) :
    ∃ parent, components parent = front ∧ parent.length < PATH_MAX ∧
      (front ≠ [] → p.start parent = p.start path) ∧
      makeAll p path t =
        match
          if t.walk p.rights MAXSYMLINKS (p.start path) front = .error .ENOENT then makeAll p parent t else (t, none)
        with
        | (t', some e) => (t', some e)
        | (t', none) => makeAt p (p.start path) t' front c := by
  have htrim : trim path ≠ [] := by
    intro hnil
    have hcomponents := components_trim path
    rw [hnil, components_nil, hcs] at hcomponents
    simp at hcomponents
  have hstarts := (parentPart_starts (trim path)).trans (trim_starts path)
  have hshort := length_parentPart_lt htrim
  obtain ⟨c', hc'⟩ := components_parentPart htrim
  obtain ⟨rfl, hc⟩ := List.append_inj' (hcs.symm.trans hc') rfl
  cases hc
  have hlast : ∀ t', path_android_mkdir p (trim path) t' =
      makeAt p (p.start path) t' (components (parentPart (trim path))) c := by
    intro t'
    have hlength := (trim_starts path).length_le
    rw [← start_of_prefix p (trim_starts path) htrim]
    exact path_android_mkdir_eq (Process.refuses_eq_none_iff.mpr ⟨htrim, by omega⟩) ((components_trim path).trans hcs)
  refine ⟨_, rfl, hshort.trans hpath, fun hne => start_of_prefix p hstarts ?_, ?_⟩
  · intro hnil
    rw [hnil, components_nil] at hne
    exact hne rfl
  rw [makeAll]
  simp only [dif_neg htrim, hlast]
  have hcond : (if parentPart (trim path) = [] ∨ path_exists p t (parentPart (trim path)) = true then (t, none)
        else makeAll p (parentPart (trim path)) t) =
      if t.walk p.rights MAXSYMLINKS (p.start path) (components (parentPart (trim path))) = .error .ENOENT then
        makeAll p (parentPart (trim path)) t
      else (t, none) := by
    by_cases hnil : parentPart (trim path) = []
    · rw [if_pos (.inl hnil), hnil, components_nil, FileTree.walk_nil, if_neg (by simp)]
    · have hrefuses : refuses (parentPart (trim path)) = none :=
        Process.refuses_eq_none_iff.mpr ⟨hnil, hshort.trans hpath⟩
      rw [← start_of_prefix p hstarts hnil]
      by_cases hexists : path_exists p t (parentPart (trim path)) = true
      · rw [if_pos (.inr hexists), if_neg]
        intro hwalk
        rw [(path_exists_eq_false_iff hrefuses).mpr hwalk] at hexists
        cases hexists
      · rw [if_neg (by simp [hnil, hexists]),
          if_pos ((path_exists_eq_false_iff hrefuses).mp (Bool.eq_false_iff.mpr hexists))]
  rw [hcond]
  rfl

/-- **The recursion** goes back to what exists, and makes one directory after another from there. -/
theorem makeAll_eq (hpath : path.length < PATH_MAX) (hcs : components path = front ++ c :: rest)
    (hfront : ∃ links l, t.walk p.rights MAXSYMLINKS (p.start path) front = .ok (links, l))
    (hc : t.walk p.rights MAXSYMLINKS (p.start path) (front ++ [c]) = .error .ENOENT) :
    makeAll p path t = makeFrom p (p.start path) t front (c :: rest) := by
  induction rest using List.reverseRecOn generalizing path with
  | nil =>
    obtain ⟨links, l, hfront⟩ := hfront
    obtain ⟨parent, -, -, -, hstep⟩ := makeAll_step (p := p) (t := t) hpath hcs
    rw [hstep, hfront, if_neg (by simp), makeFrom_singleton]
  | append_singleton rest d ih =>
    obtain ⟨parent, hparent, hshort, hstart, hstep⟩ :=
      makeAll_step (p := p) (t := t) hpath (hcs.trans (List.append_assoc front (c :: rest) [d]).symm)
    have hmissing : t.walk p.rights MAXSYMLINKS (p.start path) (front ++ c :: rest) = .error .ENOENT := by
      have h := FileTree.walk_append_of_error hc rest
      rwa [List.append_assoc, List.singleton_append] at h
    have hstart := hstart (by simp)
    rw [hstep, if_pos hmissing, ih hshort hparent (by rw [hstart]; exact hfront) (by rw [hstart]; exact hc), hstart,
      ← List.cons_append, makeFrom_concat]

theorem makeAt_cases (h : makeAt p start t front c = (t', ret)) :
    (∃ e, ret = some e ∧ t' = t) ∨
      ret = none ∧ ∃ l n, c = .name n ∧ p.directoryOf t start front = .ok l ∧ t.kind (n :: l) = none ∧
        p.rights.accepts n = true ∧ p.creates (n :: l) = true ∧ t' = t.mkdir l n := by
  unfold makeAt at h
  cases hdirectory : p.directoryOf t start front with
  | error e =>
    rw [hdirectory] at h
    cases h
    exact .inl ⟨e, rfl, rfl⟩
  | ok l =>
    rw [hdirectory] at h
    cases hentry : p.makeEntry t l (some c) with
    | error e =>
      simp only [Except.bind, hentry] at h
      cases h
      exact .inl ⟨e, rfl, rfl⟩
    | ok t'' =>
      simp only [Except.bind, hentry] at h
      cases h
      obtain ⟨n, hname, hkind, haccepts, hcreates, rfl⟩ := Process.makeEntry_eq_ok_iff.mp hentry
      cases hname
      exact .inr ⟨rfl, l, n, rfl, rfl, hkind, haccepts, hcreates, rfl⟩

/-- Where the path is missing, its directories are made from the first component on that leads nowhere. -/
theorem makeIfNeeded_eq (hpath : refuses path = none) (hcs : components path = front ++ c :: rest)
    (hfront : ∃ links l, t.walk p.rights MAXSYMLINKS (p.start path) front = .ok (links, l))
    (hc : t.walk p.rights MAXSYMLINKS (p.start path) (front ++ [c]) = .error .ENOENT) :
    makeIfNeeded p path t = makeFrom p (p.start path) t front (c :: rest) := by
  have hmissing : t.walk p.rights MAXSYMLINKS (p.start path) (components path) = .error .ENOENT := by
    rw [hcs, ← List.singleton_append, ← List.append_assoc]
    exact FileTree.walk_append_of_error hc rest
  have hall := makeAll_eq (Process.refuses_eq_none_iff.mp hpath).2 hcs hfront hc
  obtain ⟨cs, d, hlast⟩ : ∃ cs d, front ++ c :: rest = cs ++ [d] :=
    (List.eq_nil_or_concat' (front ++ c :: rest)).resolve_left (by simp)
  unfold makeIfNeeded
  rw [(path_exists_eq_false_iff hpath).mpr hmissing, path_android_mkdir_eq hpath (hcs.trans hlast), ← hall]
  simp only [Bool.false_eq_true, if_false]
  cases hmade : makeAt p (p.start path) t cs d with
  | mk t' ret =>
    split
    · rename_i hret
      rcases makeAt_cases hmade with ⟨e, -, rfl⟩ | ⟨hnone, -⟩
      · rfl
      · rw [hnone] at hret
        cases hret
    · rename_i hret
      rcases List.eq_nil_or_concat rest with rfl | ⟨rest, d', rfl⟩
      · obtain ⟨rfl, hd⟩ := List.append_inj' hlast rfl
        cases hd
        rw [hall, makeFrom_singleton, hmade]
      · -- the parent is missing
        rw [List.concat_eq_append, ← List.cons_append, ← List.append_assoc] at hlast
        obtain ⟨rfl, -⟩ := List.append_inj' hlast rfl
        have hparent : p.directoryOf t (p.start path) (front ++ c :: rest) = .error .ENOENT := by
          rw [← List.singleton_append, ← List.append_assoc, Process.directoryOf, FileTree.walk_append_of_error hc rest]
          rfl
        rw [makeAt, hparent] at hmade
        cases hmade
        exact absurd rfl hret

/-- A directory that is made can be walked to. -/
theorem walk_mkdir (hfront : p.directoryOf t start front = .ok l) (hkind : t.kind (n :: l) = none) :
    ∃ links, (t.mkdir l n).walk p.rights MAXSYMLINKS start (front ++ [.name n]) = .ok (links, n :: l) := by
  obtain ⟨hdir, hsearch, links, hwalk⟩ := Process.directoryOf_eq_ok_iff.mp hfront
  have hwithin := FileTree.within_mkdir hkind
  have hentry : (t.mkdir l n).kind (n :: l) = some .dir := by rw [FileTree.kind_mkdir hdir, if_pos rfl]
  exact ⟨links, FileTree.walk_append_eq_ok_iff.mpr
    ⟨links, l, FileTree.walk_mono hwithin hwalk, FileTree.walk_entry (hwithin.kind hdir) hsearch hentry⟩⟩

/-- **Only directories that were missing are made**, for the path and what is before it. -/
theorem makeFrom_frame (h : makeFrom p start t front rest = (t', ret)) :
    t.Within t' ∧ ∀ x, t'.kind x ≠ t.kind x → t.kind x = none ∧ t'.kind x = some .dir ∧
      ∃ cs links, cs <+: front ++ rest ∧ t'.walk p.rights MAXSYMLINKS start cs = .ok (links, x) := by
  induction rest generalizing t front with
  | nil =>
    cases h
    exact ⟨.refl _, fun x hx => absurd rfl hx⟩
  | cons c rest ih =>
    rw [makeFrom] at h
    cases hmade : makeAt p start t front c with
    | mk t₁ ret₁ =>
      rw [hmade] at h
      rcases makeAt_cases hmade with ⟨e, rfl, rfl⟩ | ⟨rfl, l, n, rfl, hfront, hkind, -, -, rfl⟩
      · cases h
        exact ⟨.refl _, fun x hx => absurd rfl hx⟩
      · obtain ⟨hwithin, hchanges⟩ := ih h
        have hdir := (Process.directoryOf_eq_ok_iff.mp hfront).1
        refine ⟨(FileTree.within_mkdir hkind).trans hwithin, fun x hx => ?_⟩
        have hmkdir := FileTree.kind_mkdir hdir n x
        by_cases heq : x = n :: l
        · subst heq
          rw [if_pos rfl] at hmkdir
          obtain ⟨links, hwalk⟩ := walk_mkdir hfront hkind
          exact ⟨hkind, hwithin.kind hmkdir, front ++ [.name n], links, by simp, FileTree.walk_mono hwithin hwalk⟩
        · rw [if_neg heq] at hmkdir
          have hchange := hchanges x (by rwa [hmkdir])
          rw [hmkdir, List.append_assoc, List.singleton_append] at hchange
          exact hchange

end Recursion

/-! ### In a new directory -/

/-- The process can make the directories one in the other. -/
def Makeable (p : Process) : Location Name → List Name → Prop
  | _, [] => True
  | l, n :: names =>
    p.rights.search l = true ∧ p.rights.accepts n = true ∧ p.creates (n :: l) = true ∧ Makeable p (n :: l) names

/-- A walk has reached a directory with nothing in it. -/
structure Fresh (p : Process) (start : Location Name) (t : FileTree Name) (front : List (Component Name))
    (x : Location Name) : Prop where
  walk : ∃ links, t.walk p.rights MAXSYMLINKS start front = .ok (links, x)
  dir : t.kind x = some .dir
  empty : ∀ n, t.kind (n :: x) = none

section Fresh

variable {p : Process} {start : Location Name} {t t' : FileTree Name} {front rest : List (Component Name)}
  {c : Component Name} {ret : Option Errno} {x l : Location Name} {n : Name} {names : List Name}

/-- A directory that has just been made. -/
theorem fresh_mkdir (hfront : p.directoryOf t start front = .ok l) (hkind : t.kind (n :: l) = none) :
    Fresh p start (t.mkdir l n) (front ++ [.name n]) (n :: l) := by
  have hdir := (Process.directoryOf_eq_ok_iff.mp hfront).1
  refine ⟨walk_mkdir hfront hkind, by rw [FileTree.kind_mkdir hdir, if_pos rfl], fun m => ?_⟩
  rw [FileTree.kind_mkdir hdir, if_neg (by simp)]
  by_contra hpresent
  have hparent := t.parent (n :: l) m hpresent
  rw [hkind] at hparent
  cases hparent

theorem Fresh.directoryOf (h : Fresh p start t front x) (hsearch : p.rights.search x = true) :
    p.directoryOf t start front = .ok x :=
  Process.directoryOf_eq_ok_iff.mpr ⟨h.dir, hsearch, h.walk⟩

/-- Behind a new directory no name leads anywhere. -/
theorem Fresh.not_walk (h : Fresh p start t front x) (n : Name) (rest : List (Component Name))
    (next : Nat × Location Name) :
    t.walk p.rights.anywhere MAXSYMLINKS start (front ++ .name n :: rest) ≠ .ok next := by
  obtain ⟨links, hwalk⟩ := h.walk
  intro hok
  obtain ⟨links', l, hfront, hrest⟩ := FileTree.walk_append_eq_ok_iff.mp hok
  rw [FileTree.walk_anywhere (by simp [hwalk]), hwalk] at hfront
  cases hfront
  obtain ⟨_, _, _, hadvance, -⟩ := FileTree.walk_cons_eq_ok_iff.mp hrest
  cases hadvance with
  | entry _ _ hkind =>
    rw [h.empty] at hkind
    cases hkind
  | link _ _ hkind =>
    rw [h.empty] at hkind
    cases hkind

/-- For `.` and `..` no directory can be made. -/
theorem makeAt_dot (p : Process) (start : Location Name) (t : FileTree Name) (front : List (Component Name))
    (hc : ∀ n, c ≠ .name n) : ∃ e, makeAt p start t front c = (t, some e) := by
  cases hmade : makeAt p start t front c with
  | mk t' ret =>
    rcases makeAt_cases hmade with ⟨e, rfl, rfl⟩ | ⟨-, l, n, hname, -⟩
    · exact ⟨e, rfl⟩
    · exact absurd hname (hc n)

/-- **In a new directory** all is made, or it ends at a `.` or `..`, or the path leads nowhere. -/
theorem Fresh.makeFrom (hfresh : Fresh p start t front x) (h : makeFrom p start t front rest = (t', ret)) :
    (ret = none ∧ ∃ links l, t'.walk p.rights MAXSYMLINKS start (front ++ rest) = .ok (links, l) ∧
        t'.kind l = some .dir) ∨
      (∃ e, ret = some e) ∧
        ((∃ names c rest', rest = names.map .name ++ c :: rest' ∧ (∀ n, c ≠ .name n) ∧ Makeable p x names ∧
            t' = t.mkdirs x names) ∨
          ∀ next, t'.walk p.rights.anywhere MAXSYMLINKS start (front ++ rest) ≠ .ok next) := by
  induction rest generalizing t front x with
  | nil =>
    cases h
    obtain ⟨links, hwalk⟩ := hfresh.walk
    rw [List.append_nil]
    exact .inl ⟨rfl, links, x, hwalk, hfresh.dir⟩
  | cons c rest ih =>
    rw [Mkdir.makeFrom] at h
    by_cases hdot : ∀ n, c ≠ .name n
    · obtain ⟨e, hmade⟩ := makeAt_dot p start t front hdot
      rw [hmade] at h
      cases h
      exact .inr ⟨⟨e, rfl⟩, .inl ⟨[], c, rest, rfl, hdot, trivial, rfl⟩⟩
    · obtain ⟨n, rfl⟩ := not_forall_not.mp hdot
      cases hmade : makeAt p start t front (.name n) with
      | mk t₁ ret₁ =>
        rw [hmade] at h
        rcases makeAt_cases hmade with ⟨e, rfl, rfl⟩ | ⟨rfl, l, m, hname, hfront, hkind, haccepts, hcreates, rfl⟩
        · cases h
          exact .inr ⟨⟨e, rfl⟩, .inr (hfresh.not_walk n rest)⟩
        · cases hname
          obtain ⟨-, hsearch, links, hwalk⟩ := Process.directoryOf_eq_ok_iff.mp hfront
          obtain ⟨links', hwalk'⟩ := hfresh.walk
          rw [hwalk] at hwalk'
          cases hwalk'
          have hnext := ih (fresh_mkdir hfront hkind) h
          rw [List.append_assoc, List.singleton_append] at hnext
          refine hnext.imp_right (And.imp_right (Or.imp_left ?_))
          rintro ⟨names, c, rest', rfl, hc, hmakeable, rfl⟩
          exact ⟨n :: names, c, rest', rfl, hc, ⟨hsearch, haccepts, hcreates, hmakeable⟩, rfl⟩

/-- At a `.` or `..` it ends. -/
theorem Fresh.makeFrom_dot (hfresh : Fresh p start t front x) (hmakeable : Makeable p x names)
    (hc : ∀ n, c ≠ .name n) (rest : List (Component Name)) :
    ∃ e, Mkdir.makeFrom p start t front (names.map .name ++ c :: rest) = (t.mkdirs x names, some e) := by
  induction names generalizing t front x with
  | nil =>
    obtain ⟨e, hmade⟩ := makeAt_dot p start t front hc
    exact ⟨e, by simp [Mkdir.makeFrom, hmade, FileTree.mkdirs]⟩
  | cons n names ih =>
    obtain ⟨hsearch, haccepts, hcreates, hmakeable⟩ := hmakeable
    have hfront := hfresh.directoryOf hsearch
    have hentry := Process.makeEntry_eq_ok_iff.mpr ⟨n, rfl, hfresh.empty n, haccepts, hcreates, rfl⟩
    obtain ⟨e, he⟩ := ih (fresh_mkdir hfront (hfresh.empty n)) hmakeable
    refine ⟨e, ?_⟩
    rw [List.map_cons, List.cons_append, Mkdir.makeFrom, makeAt, hfront, Except.bind, hentry]
    exact he

end Fresh

/-! ### What is to happen, and when it does not -/

section Claims

variable (p : Process) (temp : Uninitialised) (path : Text) (t : FileTree Name)

/-- 0 is returned exactly if the path names a directory afterwards; only what was missing of it is made;
nothing changes where it was a directory; and the buffer of the recursion is left as it was. -/
def MakesDirectory : Prop :=
  (∃ t' ret, path_mkdir_if_needed p temp path t = .ok (t', ret) ∧
    (ret = none ↔ p.anywhere.isDirectory t' path = true) ∧
    (∀ x, t'.kind x ≠ t.kind x → t.kind x = none ∧ t'.kind x = some .dir ∧
      ∃ cs links, cs <+: components path ∧
        t'.walk p.rights MAXSYMLINKS (p.start path) cs = .ok (links, x)) ∧
    (p.anywhere.isDirectory t path = true → t' = t)) ∧
  ∀ buffer len, len < buffer.length → 0 ∉ buffer.take len →
    ∃ made, path_mkdir_recursive p buffer len t = .ok (buffer, made)

/-- Behind directories that are missing and can be made there is a `.` or `..`, and with them the path
names a directory. -/
def Detour : Prop :=
  ∃ front n names c rest links l,
    components path = front ++ .name n :: (names.map .name ++ c :: rest) ∧ (∀ m, c ≠ .name m) ∧
      t.walk p.rights MAXSYMLINKS (p.start path) front = .ok (links, l) ∧ t.kind l = some .dir ∧
      t.kind (n :: l) = none ∧ Makeable p l (n :: names) ∧
      p.anywhere.isDirectory (t.mkdirs l (n :: names)) path = true

end Claims

section Judgement

variable {p : Process} {temp : Uninitialised} {path : Text} {t t' : FileTree Name} {ret : Option Errno}

theorem isDirectory_anywhere_iff (hpath : refuses path = none) :
    p.anywhere.isDirectory t path = true ↔
      ∃ links l, t.walk p.rights.anywhere MAXSYMLINKS (p.start path) (components path) = .ok (links, l) ∧
        t.kind l = some .dir := by
  rw [Process.isDirectory_iff]
  refine exists_congr fun links => exists_congr fun l => and_congr_left fun hdir => ?_
  exact Process.resolve_eq_ok_iff.trans ⟨fun h => h.2.1, fun h => ⟨hpath, h, fun _ => hdir⟩⟩

/-- Where an entry is missing, nobody is led to a directory. -/
theorem isDirectory_eq_false (hpath : refuses path = none)
    (hmissing : t.walk p.rights MAXSYMLINKS (p.start path) (components path) = .error .ENOENT) :
    p.anywhere.isDirectory t path = false := by
  refine Bool.eq_false_iff.mpr fun hdir => ?_
  obtain ⟨links, l, hwalk, -⟩ := (isDirectory_anywhere_iff hpath).mp hdir
  rw [FileTree.walk_anywhere (by simp [hmissing]), hmissing] at hwalk
  cases hwalk

/-- **What is made of a path that does not exist.** -/
theorem makeIfNeeded_of_missing (hpath : refuses path = none) (hexists : path_exists p t path = false)
    (h : makeIfNeeded p path t = (t', ret)) :
    (∃ front c rest, components path = front ++ c :: rest ∧
        makeFrom p (p.start path) t front (c :: rest) = (t', ret)) ∧
      (ret = none → p.anywhere.isDirectory t' path = true) ∧
      (ret ≠ none → p.anywhere.isDirectory t' path = true → Detour p path t) := by
  have hmissing := (path_exists_eq_false_iff hpath).mp hexists
  obtain ⟨front, c, rest, hcs, hfront, hc⟩ := FileTree.exists_first_error hmissing
  rw [makeIfNeeded_eq hpath hcs hfront hc] at h
  refine ⟨⟨front, c, rest, hcs, h⟩, ?_⟩
  rw [makeFrom] at h
  cases hmade : makeAt p (p.start path) t front c with
  | mk t₁ ret₁ =>
    rw [hmade] at h
    rcases makeAt_cases hmade with ⟨e, rfl, rfl⟩ | ⟨rfl, l, n, rfl, hdirectory, hkind, haccepts, hcreates, rfl⟩
    · cases h
      refine ⟨fun hnone => absurd hnone (by simp), fun _ hdir => ?_⟩
      rw [isDirectory_eq_false hpath hmissing] at hdir
      cases hdir
    · obtain ⟨hdir, hsearch, links, hwalk⟩ := Process.directoryOf_eq_ok_iff.mp hdirectory
      have hrun := (fresh_mkdir hdirectory hkind).makeFrom h
      rw [List.append_assoc, List.singleton_append, ← hcs] at hrun
      rcases hrun with ⟨rfl, links', l', hwalk', hdir'⟩ |
        ⟨⟨e, rfl⟩, ⟨names, c, rest', rfl, hdot, hmakeable, rfl⟩ | hnot⟩
      · refine ⟨fun _ => ?_, fun hsome => absurd rfl hsome⟩
        refine (isDirectory_anywhere_iff hpath).mpr ⟨links', l', ?_, hdir'⟩
        rw [FileTree.walk_anywhere (by simp [hwalk']), hwalk']
      · refine ⟨fun hnone => absurd hnone (by simp), fun _ hdirectory => ?_⟩
        exact ⟨front, n, names, c, rest', links, l, hcs, hdot, hwalk, hdir, hkind,
          ⟨hsearch, haccepts, hcreates, hmakeable⟩, hdirectory⟩
      · refine ⟨fun hnone => absurd hnone (by simp), fun _ hdirectory => ?_⟩
        obtain ⟨links', l', hwalk', -⟩ := (isDirectory_anywhere_iff hpath).mp hdirectory
        exact absurd hwalk' (hnot _)

/-- There is no detour without a `.` or `..`. -/
theorem not_detour_of_names {names : List Name} (hnames : components path = names.map .name) : ¬ Detour p path t := by
  rintro ⟨front, n, between, c, rest, links, l, hcomponents, hc, -⟩
  have hmem : c ∈ names.map .name := by
    rw [← hnames, hcomponents]
    simp
  obtain ⟨m, -, hm⟩ := List.mem_map.mp hmem
  exact hc m hm.symm

/-- **On a detour** −1 is returned, and there is a directory. -/
theorem Detour.makeIfNeeded (h : Detour p path t) (hpath : refuses path = none) :
    path_exists p t path = false ∧
      ∃ t' e, makeIfNeeded p path t = (t', some e) ∧ p.anywhere.isDirectory t' path = true := by
  obtain ⟨front, n, names, c, rest, links, l, hcs, hdot, hwalk, hdir, hkind, hmakeable, hdirectory⟩ := h
  obtain ⟨hsearch, haccepts, hcreates, hmakeable⟩ := hmakeable
  have hc : t.walk p.rights MAXSYMLINKS (p.start path) (front ++ [.name n]) = .error .ENOENT := by
    rw [FileTree.walk_append, hwalk]
    simp [Except.bind, FileTree.walk_cons, FileTree.advance, hdir, hsearch, hkind, haccepts]
  have hmissing : t.walk p.rights MAXSYMLINKS (p.start path) (components path) = .error .ENOENT := by
    rw [hcs, ← List.singleton_append, ← List.append_assoc]
    exact FileTree.walk_append_of_error hc _
  have hfront : p.directoryOf t (p.start path) front = .ok l :=
    Process.directoryOf_eq_ok_iff.mpr ⟨hdir, hsearch, links, hwalk⟩
  have hentry := Process.makeEntry_eq_ok_iff.mpr ⟨n, rfl, hkind, haccepts, hcreates, rfl⟩
  obtain ⟨e, he⟩ := (fresh_mkdir hfront hkind).makeFrom_dot hmakeable hdot rest
  refine ⟨(path_exists_eq_false_iff hpath).mpr hmissing, t.mkdirs l (n :: names), e, ?_, hdirectory⟩
  rw [makeIfNeeded_eq hpath hcs ⟨links, l, hwalk⟩ hc, makeFrom, makeAt, hfront, Except.bind, hentry]
  exact he

theorem makeIfNeeded_nil (p : Process) (t : FileTree Name) : makeIfNeeded p [] t = (t, some .ENOENT) := by
  have hexists : path_exists p t [] = false := rfl
  have hmade : path_android_mkdir p [] t = (t, some .ENOENT) := rfl
  have hall : makeAll p [] t = (t, some .ENOENT) := by
    rw [makeAll]
    simp [trim]
  rw [makeIfNeeded, hexists, hmade]
  exact hall

/-- What changes. -/
theorem makeIfNeeded_frame (hpath : refuses path = none) (h : makeIfNeeded p path t = (t', ret)) :
    (∀ x, t'.kind x ≠ t.kind x → t.kind x = none ∧ t'.kind x = some .dir ∧
      ∃ cs links, cs <+: components path ∧ t'.walk p.rights MAXSYMLINKS (p.start path) cs = .ok (links, x)) ∧
      (p.anywhere.isDirectory t path = true → t' = t) := by
  by_cases hexists : path_exists p t path = true
  · rw [makeIfNeeded, if_pos hexists] at h
    cases h
    exact ⟨fun x hx => absurd rfl hx, fun _ => rfl⟩
  · have hexists := Bool.eq_false_iff.mpr hexists
    obtain ⟨⟨front, c, rest, hcs, hrun⟩, -⟩ := makeIfNeeded_of_missing hpath hexists h
    rw [hcs]
    refine ⟨(makeFrom_frame hrun).2, fun hdir => ?_⟩
    rw [isDirectory_eq_false hpath ((path_exists_eq_false_iff hpath).mp hexists)] at hdir
    cases hdir

/-- **Directory creation** goes right exactly if what exists is a directory and there is no detour. -/
theorem makes_directory_iff (p : Process) (temp : Uninitialised) (t : FileTree Name) (hz : 0 ∉ path)
    (hpath : path.length < MAX_PATH) :
    MakesDirectory p temp path t ↔
      (path_exists p t path = true → p.anywhere.isDirectory t path = true) ∧ ¬ Detour p path t := by
  have hrun := path_mkdir_if_needed_eq (p := p) (t := t) temp hz hpath
  have hbuffer : ∀ buffer len, len < buffer.length → 0 ∉ buffer.take len →
      ∃ made, path_mkdir_recursive p buffer len t = .ok (buffer, made) :=
    fun buffer len hlen hz => ⟨_, path_mkdir_recursive_eq hlen hz⟩
  cases hmade : makeIfNeeded p path t with
  | mk t' ret =>
  rw [hmade] at hrun
  by_cases hnil : path = []
  · subst hnil
    rw [makeIfNeeded_nil] at hmade
    cases hmade
    have hnot : ∀ t, p.anywhere.isDirectory t [] = false := fun t => rfl
    refine iff_of_true ⟨⟨t, some .ENOENT, hrun, ?_, fun x hx => absurd rfl hx, fun _ => rfl⟩, hbuffer⟩ ⟨?_, ?_⟩
    · simp [hnot]
    · simp [path_exists]
    · rintro ⟨front, n, names, c, rest, links, l, hcs, -⟩
      simp at hcs
  · have hrefuses := Process.refuses_eq_none_iff.mpr ⟨hnil, hpath⟩
    obtain ⟨hframe, hsame⟩ := makeIfNeeded_frame hrefuses hmade
    have hiff : MakesDirectory p temp path t ↔ (ret = none ↔ p.anywhere.isDirectory t' path = true) := by
      constructor
      · rintro ⟨⟨t'', ret', hrun', hret, -⟩, -⟩
        rw [hrun] at hrun'
        cases hrun'
        exact hret
      · exact fun hret => ⟨⟨t', ret, hrun, hret, hframe, hsame⟩, hbuffer⟩
    rw [hiff]
    by_cases hexists : path_exists p t path = true
    · rw [makeIfNeeded, if_pos hexists] at hmade
      cases hmade
      have hdetour : ¬ Detour p path t := by
        intro h
        rw [(h.makeIfNeeded hrefuses).1] at hexists
        cases hexists
      simp [hexists, hdetour]
    · have hexists := Bool.eq_false_iff.mpr hexists
      obtain ⟨-, hnone, hsome⟩ := makeIfNeeded_of_missing hrefuses hexists hmade
      rw [hexists]
      constructor
      · refine fun hret => ⟨fun h => absurd h (by simp), fun h => ?_⟩
        obtain ⟨-, t'', e, hmade', hdir⟩ := h.makeIfNeeded hrefuses
        rw [hmade] at hmade'
        cases hmade'
        exact absurd (hret.mpr hdir) (by simp)
      · exact fun h => ⟨hnone, fun hdir => by_contra fun hne => h.2 (hsome hne hdir)⟩

end Judgement

/-! ### A file in the way, and a detour -/

/-- A name. -/
def nameA : Name := ⟨['a'.toUInt8], by decide⟩

/-- Another name. -/
def nameB : Name := ⟨['b'.toUInt8], by decide⟩

/-- A file `/a` and nothing else. -/
def oneFile : FileTree Name where
  kind
    | [] => some .dir
    | [n] => if n = nameA then some .file else none
    | _ => none
  root := rfl
  parent := by
    intro l n h
    match l, h with
    | [], _ => rfl
    | _ :: _, h => simp at h

/-- An empty file system. -/
def nothing : FileTree Name where
  kind l := if l = [] then some .dir else none
  root := rfl
  parent := by
    intro l n h
    simp at h

/-- A process that may do everything. -/
def everything : Process where
  cwd := []
  rights := ⟨fun _ => true, fun _ => true⟩
  lists := fun _ => true
  removes := fun _ => true
  creates := fun _ => true

/-- A buffer that happens to be full of NULs. -/
def zeros : Uninitialised := ⟨List.replicate MAX_PATH 0, List.length_replicate⟩

/-- `/a/b` in an empty file system. -/
theorem makes_new_directory :
    MakesDirectory everything zeros ['/'.toUInt8, 'a'.toUInt8, '/'.toUInt8, 'b'.toUInt8] nothing := by
  have hmissing : path_exists everything nothing ['/'.toUInt8, 'a'.toUInt8, '/'.toUInt8, 'b'.toUInt8] = false := by
    decide +kernel
  have hnames : components ['/'.toUInt8, 'a'.toUInt8, '/'.toUInt8, 'b'.toUInt8] = [nameA, nameB].map .name := by
    decide +kernel
  refine (makes_directory_iff everything zeros nothing (by decide) (by decide)).mpr ⟨fun hexists => ?_,
    not_detour_of_names hnames⟩
  rw [hmissing] at hexists
  cases hexists

/-- The file `/a` counts as a directory that exists; `/a/.` is made but counts as failed. -/
theorem file_and_dot :
    ¬ MakesDirectory everything zeros ['/'.toUInt8, 'a'.toUInt8] oneFile ∧
      ¬ MakesDirectory everything zeros ['/'.toUInt8, 'a'.toUInt8, '/'.toUInt8, '.'.toUInt8] nothing := by
  constructor
  · rintro ⟨⟨t', ret, hrun, hret, -⟩, -⟩
    have hexists : path_exists everything oneFile ['/'.toUInt8, 'a'.toUInt8] = true := by decide +kernel
    rw [path_mkdir_if_needed, if_pos hexists] at hrun
    cases hrun
    have hdir : everything.anywhere.isDirectory oneFile ['/'.toUInt8, 'a'.toUInt8] = false := by decide +kernel
    rw [hret.mp rfl] at hdir
    cases hdir
  · rintro ⟨⟨t', ret, hrun, hret, -⟩, -⟩
    have hdetour : Detour everything ['/'.toUInt8, 'a'.toUInt8, '/'.toUInt8, '.'.toUInt8] nothing := by
      refine ⟨[], nameA, [], .here, [], MAXSYMLINKS,
        [], by decide +kernel, by simp, rfl, rfl, rfl, ?_, by decide +kernel⟩
      exact ⟨rfl, rfl, rfl, trivial⟩
    obtain ⟨-, t'', e, hmade, hdir⟩ := hdetour.makeIfNeeded (by decide)
    rw [path_mkdir_if_needed_eq zeros (by decide) (by decide), hmade] at hrun
    cases hrun
    exact absurd (hret.mpr hdir) (by simp)

end Goldfish.Files.Mkdir
