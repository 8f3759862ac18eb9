import Goldfish.Files.CopyFile

/-!
# Goldfish.Files.CopyDir

**Copying a directory tree** (`path_copy_dir`). A `Listing` is what is in a directory of the
source, with what the calls of the copy answer at every file and directory of the tree.
A directory that cannot be opened or read to its end is listed without some of its
entries; nothing tells the scanner's caller.

A copy that returns 0 has copied every regular file exactly if no write was cut short and
nothing with a regular file in it was left out of a listing (`path_copy_dir_iff`).
-/

namespace Goldfish.Files

open Goldfish.Lib

/-- A path below the directory, by the names on it. -/
abbrev Path := List Text

/-- The entries of a directory. One that is `listed` is found by the scanner. -/
inductive Listing where
  | nil
  | file (name : Text) (listed regular : Bool) (f : FileCopy) (rest : Listing)
  | dir (name : Text) (listed : Bool) (path_is_same : Sameness) (mkdir : Bool) (entries rest : Listing)

/-- What a copy returns, and the files of the destination. -/
structure CopiedDir where
  status : Int
  dest : List (Path × Text)
  deriving DecidableEq, Repr

namespace Listing

/-- Files in a directory. -/
def under (name : Text) (files : List (Path × Text)) : List (Path × Text) :=
  files.map fun x => (name :: x.1, x.2)

/-- A file in the destination. -/
def one (name : Text) (dest : Option Text) : List (Path × Text) :=
  dest.toList.map fun content => ([name], content)

/-- The regular files of the source. -/
def files : Listing → List (Path × Text)
  | .nil => []
  | .file name _ regular f rest => (if regular then one name (some f.content) else []) ++ rest.files
  | .dir name _ _ _ entries rest => under name entries.files ++ rest.files

/-- `path_copy_dir`, with the loop over the entries. The scanner is never null. -/
def copyWith (path_is_same : Sameness) (mkdir : Bool) (source : List (Path × Text))
    (entries : (fuel : Nat) → Option CopiedDir) (fuel : Nat) : Option CopiedDir :=
  match path_is_same with
  | .fails => some ⟨-1, []⟩
  | .same => some ⟨0, source⟩
  | .different => if mkdir = true then entries fuel else some ⟨-1, []⟩

/-- An entry has been copied: the loop goes on unless this failed. -/
def goOn (status : Int) (dest : List (Path × Text)) (rest : (fuel : Nat) → Option CopiedDir) (fuel : Nat) :
    Option CopiedDir :=
  if status < 0 then some ⟨-1, dest⟩ else (rest fuel).map fun r => ⟨r.status, dest ++ r.dest⟩

/-- The loop over the entries. -/
def copyEntries : Listing → (fuel : Nat) → Option CopiedDir
  | .nil, _ => some ⟨0, []⟩
  | .file name listed _ f rest, fuel =>
    if listed then (f.path_copy_file fuel).bind fun r => goOn r.status (one name r.dest) rest.copyEntries fuel
    else rest.copyEntries fuel
  | .dir name listed path_is_same mkdir entries rest, fuel =>
    if listed then
      (copyWith path_is_same mkdir entries.files entries.copyEntries fuel).bind fun r =>
        goOn r.status (under name r.dest) rest.copyEntries fuel
    else rest.copyEntries fuel

/-- `path_copy_dir`. Nothing stands for a copy that does not end. -/
def path_copy_dir (path_is_same : Sameness) (mkdir : Bool) (src : Listing) (fuel : Nat) : Option CopiedDir :=
  copyWith path_is_same mkdir src.files src.copyEntries fuel

/-! ### What decides -/

/-- The names in the directory. -/
def names : Listing → List Text
  | .nil => []
  | .file name _ _ _ rest => name :: rest.names
  | .dir name _ _ _ _ rest => name :: rest.names

/-- The entries of a directory have names of their own. -/
def Distinct : Listing → Prop
  | .nil => True
  | .file name _ _ _ rest => name ∉ rest.names ∧ rest.Distinct
  | .dir name _ _ _ entries rest => name ∉ rest.names ∧ entries.Distinct ∧ rest.Distinct

/-- No step that is reported fails, and every copy ends. -/
def Succeeds : Listing → Prop
  | .nil => True
  | .file _ listed _ f rest => (listed = true → f.Succeeds) ∧ rest.Succeeds
  | .dir _ listed path_is_same mkdir entries rest =>
    (listed = true → path_is_same = .same ∨ path_is_same = .different ∧ mkdir = true ∧ entries.Succeeds) ∧
      rest.Succeeds

/-- The regular files are listed, and no write of theirs is cut short. -/
def Complete : Listing → Prop
  | .nil => True
  | .file _ listed regular f rest => (regular = true → listed = true ∧ f.Whole) ∧ rest.Complete
  | .dir _ listed path_is_same _ entries rest =>
    (if listed then path_is_same = .different → entries.Complete else entries.files = []) ∧ rest.Complete

/-! ### Paths -/

/-- The paths begin with these names. -/
def In (names : List Text) (files : List (Path × Text)) : Prop :=
  ∀ x ∈ files, ∃ name ∈ names, x.1.head? = some name

section Paths

variable {name : Text} {names : List Text} {a a' b b' : List (Path × Text)}

theorem In.append (ha : In [name] a) (hb : In names b) : In (name :: names) (a ++ b) := by
  intro x hx
  rcases List.mem_append.mp hx with hx | hx
  · obtain ⟨n, hn, hhead⟩ := ha x hx
    exact ⟨n, List.mem_cons.mpr (.inl (List.mem_singleton.mp hn)), hhead⟩
  · obtain ⟨n, hn, hhead⟩ := hb x hx
    exact ⟨n, List.mem_cons_of_mem name hn, hhead⟩

theorem in_one (name : Text) (dest : Option Text) : In [name] (one name dest) := by
  intro x hx
  obtain ⟨content, -, rfl⟩ := List.mem_map.mp hx
  exact ⟨name, List.mem_singleton_self name, rfl⟩

theorem in_under (name : Text) (files : List (Path × Text)) : In [name] (under name files) := by
  intro x hx
  obtain ⟨y, -, rfl⟩ := List.mem_map.mp hx
  exact ⟨name, List.mem_singleton_self name, rfl⟩

theorem In.not_mem (ha : In [name] a) (hb : In names b) (hname : name ∉ names) {x : Path × Text} (hxa : x ∈ a) :
    x ∉ b := by
  intro hxb
  obtain ⟨n, hn, hhead⟩ := ha x hxa
  obtain ⟨m, hm, hhead'⟩ := hb x hxb
  obtain rfl := Option.some.inj (hhead.symm.trans hhead')
  exact hname (List.mem_singleton.mp hn ▸ hm)

/-- What is at one name and what is at the others do not mix. -/
theorem subset_append_iff (ha : In [name] a) (ha' : In [name] a') (hb : In names b) (hb' : In names b')
    (hname : name ∉ names) :
    (∀ x ∈ a ++ b, x ∈ a' ++ b') ↔ (∀ x ∈ a, x ∈ a') ∧ ∀ x ∈ b, x ∈ b' := by
  constructor
  · intro h
    refine ⟨fun x hx => ?_, fun x hx => ?_⟩
    · exact (List.mem_append.mp (h x (List.mem_append_left b hx))).resolve_right (ha.not_mem hb' hname hx)
    · refine (List.mem_append.mp (h x (List.mem_append_right a hx))).resolve_left fun hx' => ?_
      exact ha'.not_mem hb hname hx' hx
  · rintro ⟨h, h'⟩ x hx
    rcases List.mem_append.mp hx with hx | hx
    · exact List.mem_append_left b' (h x hx)
    · exact List.mem_append_right a' (h' x hx)

theorem subset_under_iff : (∀ x ∈ under name a, x ∈ under name b) ↔ ∀ x ∈ a, x ∈ b := by
  have hinj : ∀ x y : Path × Text, (name :: x.1, x.2) = (name :: y.1, y.2) → x = y := by
    rintro ⟨p, c⟩ ⟨q, d⟩ h
    simpa using h
  constructor
  · intro h x hx
    obtain ⟨y, hy, heq⟩ := List.mem_map.mp (h _ (List.mem_map_of_mem hx))
    exact hinj y x heq ▸ hy
  · intro h x hx
    obtain ⟨y, hy, rfl⟩ := List.mem_map.mp hx
    exact List.mem_map_of_mem (h y hy)

theorem subset_one_iff {content : Text} {dest : Option Text} :
    (∀ x ∈ one name (some content), x ∈ one name dest) ↔ dest = some content := by
  cases dest with
  | none => simp [one]
  | some d => simp [one, eq_comm]

end Paths

theorem files_in (l : Listing) : In l.names l.files := by
  induction l with
  | nil =>
    intro x hx
    cases hx
  | file name listed regular f rest ih =>
    rw [files]
    refine In.append ?_ ih
    split
    · exact in_one name _
    · intro x hx
      cases hx
  | dir name listed path_is_same mkdir entries rest _ ih => exact (in_under name _).append ih

/-! ### What a copy returns -/

theorem copyEntries_file (name : Text) (regular : Bool) (f : FileCopy) (rest : Listing) :
    (Listing.file name true regular f rest).copyEntries =
      fun fuel => (f.path_copy_file fuel).bind fun r => goOn r.status (one name r.dest) rest.copyEntries fuel :=
  rfl

theorem copyEntries_dir (name : Text) (path_is_same : Sameness) (mkdir : Bool) (entries rest : Listing) :
    (Listing.dir name true path_is_same mkdir entries rest).copyEntries =
      fun fuel => (copyWith path_is_same mkdir entries.files entries.copyEntries fuel).bind fun r =>
        goOn r.status (under name r.dest) rest.copyEntries fuel :=
  rfl

theorem goOn_zero (dest : List (Path × Text)) (rest : (fuel : Nat) → Option CopiedDir) :
    goOn 0 dest rest = fun fuel => (rest fuel).map fun r => ⟨r.status, dest ++ r.dest⟩ := rfl

theorem goOn_error (dest : List (Path × Text)) (rest : (fuel : Nat) → Option CopiedDir) :
    goOn (-1) dest rest = fun _ => some ⟨-1, dest⟩ := rfl

theorem stable_goOn (status : Int) (dest : List (Path × Text)) {rest : (fuel : Nat) → Option CopiedDir}
    (h : Stable rest) : Stable (goOn status dest rest) := by
  unfold goOn
  split
  · exact stable_some _
  · exact h.map _

theorem stable_copyWith (path_is_same : Sameness) (mkdir : Bool) (source : List (Path × Text))
    {entries : (fuel : Nat) → Option CopiedDir} (h : Stable entries) :
    Stable (copyWith path_is_same mkdir source entries) := by
  unfold copyWith
  cases path_is_same with
  | fails => exact stable_some _
  | same => exact stable_some _
  | different =>
    dsimp only
    split
    · exact h
    · exact stable_some _

theorem stable_copyEntries (l : Listing) : Stable l.copyEntries := by
  induction l with
  | nil => exact stable_some _
  | file name listed regular f rest ih =>
    cases listed with
    | false => exact ih
    | true => exact f.stable_path_copy_file.bind fun r => stable_goOn r.status _ ih
  | dir name listed path_is_same mkdir entries rest ih ih' =>
    cases listed with
    | false => exact ih'
    | true => exact (stable_copyWith path_is_same mkdir _ ih).bind fun r => stable_goOn r.status _ ih'

/-- What is known of a copy that has returned: whether it succeeds, and what it has copied then. -/
def Judged (ok whole : Prop) (source : List (Path × Text)) (status : Int) (dest : List (Path × Text)) : Prop :=
  status = 0 ∧ ok ∧ ((∀ x ∈ source, x ∈ dest) ↔ whole) ∨ status = -1 ∧ ¬ ok

section Judged

variable {ok ok' whole whole' : Prop} {name : Text} {names : List Text} {a a' b b' : List (Path × Text)}
  {status : Int} {r : CopiedDir}

theorem Judged.congr (h : Judged ok whole a status a') (hok : ok ↔ ok') (hwhole : whole ↔ whole') :
    Judged ok' whole' a status a' := by
  unfold Judged
  rwa [← hok, ← hwhole]

/-- Behind an entry that was copied. -/
theorem Judged.after (h : Judged ok' whole' b status b') (hok : ok) (hwhole : (∀ x ∈ a, x ∈ a') ↔ whole)
    (ha : In [name] a) (ha' : In [name] a') (hb : In names b) (hb' : In names b') (hname : name ∉ names) :
    Judged (ok ∧ ok') (whole ∧ whole') (a ++ b) status (a' ++ b') := by
  rcases h with ⟨hstatus, hok', hwhole'⟩ | ⟨hstatus, hnot⟩
  · exact .inl ⟨hstatus, ⟨hok, hok'⟩, (subset_append_iff ha ha' hb hb' hname).trans (and_congr hwhole hwhole')⟩
  · exact .inr ⟨hstatus, fun h => hnot h.2⟩

/-- An entry is copied, and then the others. -/
theorem Judged.goOn {rest : (fuel : Nat) → Option CopiedDir} (h : Judged ok whole a status a')
    (hr : Returns (goOn status a' rest) r) (ha : In [name] a) (ha' : In [name] a') (hb : In names b)
    (hname : name ∉ names) (hrest : ∀ r, Returns rest r → Judged ok' whole' b r.status r.dest ∧ In names r.dest) :
    Judged (ok ∧ ok') (whole ∧ whole') (a ++ b) r.status r.dest ∧ In (name :: names) r.dest := by
  rcases h with ⟨rfl, hok, hwhole⟩ | ⟨rfl, hnot⟩
  · rw [goOn_zero, returns_map] at hr
    obtain ⟨r', hr', rfl⟩ := hr
    obtain ⟨hjudged, hin⟩ := hrest r' hr'
    exact ⟨hjudged.after hok hwhole ha ha' hb hin hname, ha'.append hin⟩
  · rw [goOn_error] at hr
    obtain rfl := returns_some.mp hr
    refine ⟨.inr ⟨rfl, fun h => hnot h.1⟩, ?_⟩
    intro x hx
    obtain ⟨n, hn, hhead⟩ := ha' x hx
    exact ⟨n, List.mem_cons.mpr (.inl (List.mem_singleton.mp hn)), hhead⟩

/-- An entry that is not listed. -/
theorem Judged.skip (h : Judged ok' whole' b status b') (hin : In names b') (ha : In [name] a) (hb : In names b)
    (hname : name ∉ names) :
    Judged ok' (a = [] ∧ whole') (a ++ b) status b' ∧ In (name :: names) b' := by
  have hnothing : (∀ x ∈ a, x ∈ ([] : List (Path × Text))) ↔ a = [] := by
    simp [List.eq_nil_iff_forall_not_mem]
  have hnil : In [name] ([] : List (Path × Text)) := fun x hx => by cases hx
  refine ⟨(h.after trivial hnothing ha hnil hb hin hname).congr (by simp) Iff.rfl, fun x hx => ?_⟩
  obtain ⟨n, hn, hhead⟩ := hin x hx
  exact ⟨n, List.mem_cons_of_mem name hn, hhead⟩

/-- A directory that may be the same, or cannot be made. -/
theorem judged_copyWith {path_is_same : Sameness} {mkdir : Bool} {entries : (fuel : Nat) → Option CopiedDir}
    (hr : Returns (copyWith path_is_same mkdir a entries) r)
    (hentries : ∀ r, Returns entries r → Judged ok whole a r.status r.dest) :
    Judged (path_is_same = .same ∨ path_is_same = .different ∧ mkdir = true ∧ ok)
      (path_is_same = .different → whole) a r.status r.dest := by
  unfold copyWith at hr
  cases path_is_same with
  | fails =>
    obtain rfl := returns_some.mp hr
    exact .inr ⟨rfl, by simp⟩
  | same =>
    obtain rfl := returns_some.mp hr
    exact .inl ⟨rfl, .inl rfl, iff_of_true (fun x hx => hx) fun h => by cases h⟩
  | different =>
    cases mkdir with
    | false =>
      obtain rfl := returns_some.mp hr
      exact .inr ⟨rfl, by simp⟩
    | true => exact (hentries r hr).congr (by simp) (by simp)

end Judged

/-- **What the loop over the entries returns.** -/
theorem judged_copyEntries {l : Listing} (hdistinct : l.Distinct) {r : CopiedDir} (hr : Returns l.copyEntries r) :
    Judged l.Succeeds l.Complete l.files r.status r.dest ∧ In l.names r.dest := by
  induction l generalizing r with
  | nil =>
    obtain rfl := returns_some.mp hr
    refine ⟨.inl ⟨rfl, trivial, iff_of_true (fun x hx => by cases hx) trivial⟩, fun x hx => by cases hx⟩
  | file name listed regular f rest ih =>
    obtain ⟨hname, hdistinct⟩ := hdistinct
    have ha : In [name] (if regular then one name (some f.content) else []) := by
      split
      · exact in_one name _
      · exact fun x hx => by cases hx
    cases listed with
    | false =>
      obtain ⟨hjudged, hin⟩ := ih hdistinct hr
      obtain ⟨hjudged, hin⟩ := hjudged.skip hin ha rest.files_in hname
      refine ⟨hjudged.congr (by simp [Succeeds]) ?_, hin⟩
      cases regular <;> simp [Complete, one]
    | true =>
      rw [copyEntries_file, returns_bind f.stable_path_copy_file fun r =>
        stable_goOn r.status _ rest.stable_copyEntries] at hr
      obtain ⟨r₁, hr₁, hr⟩ := hr
      have hfile : Judged f.Succeeds (regular = true → f.Whole) (if regular then one name (some f.content) else [])
          r₁.status (one name r₁.dest) := by
        rcases FileCopy.path_copy_file_cases hr₁ with ⟨hstatus, hok, hwhole⟩ | hfails
        · refine .inl ⟨hstatus, hok, ?_⟩
          cases regular with
          | false => exact iff_of_true (fun x hx => by cases hx) fun h => by cases h
          | true => exact (subset_one_iff.trans hwhole).trans ⟨fun h _ => h, fun h => h rfl⟩
        · exact .inr hfails
      obtain ⟨hjudged, hin⟩ := hfile.goOn hr ha (in_one name _) rest.files_in hname fun r hr => ih hdistinct hr
      exact ⟨hjudged.congr (by simp [Succeeds]) (by simp [Complete]), hin⟩
  | dir name listed path_is_same mkdir entries rest ih ih' =>
    obtain ⟨hname, hentries, hdistinct⟩ := hdistinct
    cases listed with
    | false =>
      obtain ⟨hjudged, hin⟩ := ih' hdistinct hr
      obtain ⟨hjudged, hin⟩ := hjudged.skip hin (in_under name entries.files) rest.files_in hname
      exact ⟨hjudged.congr (by simp [Succeeds]) (by simp [Complete, under]), hin⟩
    | true =>
      rw [copyEntries_dir, returns_bind (stable_copyWith _ _ _ entries.stable_copyEntries) fun r =>
        stable_goOn r.status _ rest.stable_copyEntries] at hr
      obtain ⟨r₁, hr₁, hr⟩ := hr
      have hdir := judged_copyWith hr₁ fun r hr => (ih hentries hr).1
      have hunder : Judged (path_is_same = .same ∨ path_is_same = .different ∧ mkdir = true ∧ entries.Succeeds)
          (path_is_same = .different → entries.Complete) (under name entries.files) r₁.status
          (under name r₁.dest) := by
        rcases hdir with ⟨hstatus, hok, hwhole⟩ | hfails
        · exact .inl ⟨hstatus, hok, subset_under_iff.trans hwhole⟩
        · exact .inr hfails
      obtain ⟨hjudged, hin⟩ :=
        hunder.goOn hr (in_under name _) (in_under name _) rest.files_in hname fun r hr => ih' hdistinct hr
      exact ⟨hjudged.congr (by simp [Succeeds]) (by simp [Complete]), hin⟩

theorem returns_goOn {status : Int} (hstatus : status = 0) (dest : List (Path × Text))
    {rest : (fuel : Nat) → Option CopiedDir} (h : ∃ r, Returns rest r ∧ r.status = 0) :
    ∃ r, Returns (goOn status dest rest) r ∧ r.status = 0 := by
  obtain ⟨r, hr, hzero⟩ := h
  rw [hstatus, goOn_zero]
  exact ⟨⟨r.status, dest ++ r.dest⟩, returns_map.mpr ⟨r, hr, rfl⟩, hzero⟩

theorem returns_copyWith (source : List (Path × Text)) {path_is_same : Sameness} {mkdir : Bool}
    {entries : (fuel : Nat) → Option CopiedDir}
    (h : path_is_same = .same ∨ path_is_same = .different ∧ mkdir = true ∧ ∃ r, Returns entries r ∧ r.status = 0) :
    ∃ r, Returns (copyWith path_is_same mkdir source entries) r ∧ r.status = 0 := by
  rcases h with rfl | ⟨rfl, rfl, r, hr, hstatus⟩
  · exact ⟨⟨0, source⟩, returns_some.mpr rfl, rfl⟩
  · exact ⟨r, hr, hstatus⟩

/-- **A copy returns 0** if no step that is reported fails and every copy ends. -/
theorem Succeeds.returns {l : Listing} (h : l.Succeeds) : ∃ r, Returns l.copyEntries r ∧ r.status = 0 := by
  induction l with
  | nil => exact ⟨⟨0, []⟩, returns_some.mpr rfl, rfl⟩
  | file name listed regular f rest ih =>
    cases listed with
    | false => exact ih h.2
    | true =>
      obtain ⟨r₁, hr₁⟩ := (h.1 rfl).returns
      rcases FileCopy.path_copy_file_cases hr₁ with ⟨hstatus, -⟩ | ⟨-, hnot⟩
      · obtain ⟨r, hr, hzero⟩ := returns_goOn hstatus (one name r₁.dest) (ih h.2)
        refine ⟨r, ?_, hzero⟩
        rw [copyEntries_file, returns_bind f.stable_path_copy_file fun r =>
          stable_goOn r.status _ rest.stable_copyEntries]
        exact ⟨r₁, hr₁, hr⟩
      · exact absurd (h.1 rfl) hnot
  | dir name listed path_is_same mkdir entries rest ih ih' =>
    cases listed with
    | false => exact ih' h.2
    | true =>
      obtain ⟨r₁, hr₁, hstatus⟩ := returns_copyWith entries.files
        ((h.1 rfl).imp_right fun hdifferent => ⟨hdifferent.1, hdifferent.2.1, ih hdifferent.2.2⟩)
      obtain ⟨r, hr, hzero⟩ := returns_goOn hstatus (under name r₁.dest) (ih' h.2)
      refine ⟨r, ?_, hzero⟩
      rw [copyEntries_dir, returns_bind (stable_copyWith _ _ _ entries.stable_copyEntries) fun r =>
        stable_goOn r.status _ rest.stable_copyEntries]
      exact ⟨r₁, hr₁, hr⟩

/-- A copy that returns 0 has copied all regular files. -/
def Faithful (copy : (fuel : Nat) → Option CopiedDir) (src : Listing) : Prop :=
  ∀ r, Returns copy r → r.status = 0 → ∀ x ∈ src.files, x ∈ r.dest

/-- **`path_copy_dir`** is faithful exactly if a step that is reported fails, or everything is complete. -/
theorem path_copy_dir_iff (path_is_same : Sameness) (mkdir : Bool) {src : Listing} (hdistinct : src.Distinct) :
    Faithful (path_copy_dir path_is_same mkdir src) src ↔
      (path_is_same = .different → mkdir = true → src.Succeeds → src.Complete) := by
  have hjudged : ∀ r, Returns (path_copy_dir path_is_same mkdir src) r →
      Judged (path_is_same = .same ∨ path_is_same = .different ∧ mkdir = true ∧ src.Succeeds)
        (path_is_same = .different → src.Complete) src.files r.status r.dest :=
    fun r hr => judged_copyWith hr fun r hr => (judged_copyEntries hdistinct hr).1
  constructor
  · rintro h rfl rfl hsucceeds
    obtain ⟨r, hr, hzero⟩ := hsucceeds.returns
    rcases hjudged r hr with ⟨-, -, hwhole⟩ | ⟨-, hnot⟩
    · exact hwhole.mp (h r hr hzero) rfl
    · exact absurd (.inr ⟨rfl, rfl, hsucceeds⟩) hnot
  · intro h r hr hstatus
    rcases hjudged r hr with ⟨-, hok, hwhole⟩ | ⟨hfails, -⟩
    · refine hwhole.mpr fun hdifferent => ?_
      rcases hok with hsame | ⟨-, hmkdir, hsucceeds⟩
      · rw [hsame] at hdifferent
        cases hdifferent
      · exact h hdifferent hmkdir hsucceeds
    · rw [hfails] at hstatus
      cases hstatus

/-- **Faithful copies.** The functions are faithful exactly under these conditions. -/
theorem copies_faithful_iff (f : FileCopy) (path_is_same : Sameness) (mkdir : Bool) (src : Listing)
    (hdistinct : src.Distinct) :
    (f.Faithful f.path_copy_file ↔
        (f.path_is_same = .different → f.readable = true → f.opens = true → f.creates = true →
          f.Undisturbed 65536)) ∧
      (f.Faithful f.path_copy_file_safe ↔
        (f.path_is_same = .different → f.opens = true → f.creates = true → f.Undisturbed 1024)) ∧
      (Faithful (path_copy_dir path_is_same mkdir src) src ↔
        (path_is_same = .different → mkdir = true → src.Succeeds → src.Complete)) :=
  ⟨f.path_copy_file_iff, f.path_copy_file_safe_iff, path_copy_dir_iff path_is_same mkdir hdistinct⟩

/-- A file of three bytes, with a destination that can take so many bytes in a write. -/
def threeBytes (room : Nat) : FileCopy where
  content := [1, 2, 3]
  path_is_same := .different
  readable := true
  existing := true
  creates := true
  opens := true
  reads := fun _ => some 2
  writes := fun _ => some room

theorem threeBytes_undisturbed (BufferSize : Nat) : (threeBytes 9).Undisturbed BufferSize := by
  rintro call ⟨n, hread, hcut⟩
  have hwrites : ((threeBytes 9).writes call).getD 0 = 9 := rfl
  have hn : n ≤ 2 := by
    obtain ⟨k, hk, rfl⟩ := Option.map_eq_some_iff.mp hread
    cases hk
    exact Nat.min_le_left _ _
  omega

/-- A directory with a file in a subdirectory, which can be read or not. -/
def subdirectory (listed : Bool) : Listing :=
  .dir ['d'.toUInt8] true .different true (.file ['f'.toUInt8] listed true (threeBytes 9) .nil) .nil

theorem copies_of_three_bytes :
    (threeBytes 9).Faithful (threeBytes 9).path_copy_file ∧
    (threeBytes 9).Faithful (threeBytes 9).path_copy_file_safe ∧
      Faithful (path_copy_dir .different true (subdirectory true)) (subdirectory true) := by
  obtain ⟨hfile, hsafe, hdir⟩ :=
    copies_faithful_iff (threeBytes 9) .different true (subdirectory true) (by simp [subdirectory, Distinct, names])
  refine ⟨hfile.mpr fun _ _ _ _ => threeBytes_undisturbed _, hsafe.mpr fun _ _ _ => threeBytes_undisturbed _,
    hdir.mpr ?_⟩
  exact fun _ _ _ => ⟨fun _ => ⟨fun _ => ⟨rfl, fun _ => threeBytes_undisturbed _⟩, trivial⟩, trivial⟩

/-- A full disk, and a directory that cannot be opened: both copies return 0. -/
theorem unfaithful_copies :
    ¬ (threeBytes 1).Faithful (threeBytes 1).path_copy_file ∧
      ¬ (threeBytes 1).Faithful (threeBytes 1).path_copy_file_safe ∧
      ¬ Faithful (path_copy_dir .different true (subdirectory false)) (subdirectory false) := by
  refine ⟨fun h => ?_, fun h => ?_, fun h => ?_⟩
  · have hdest := h ⟨0, some [1]⟩ ⟨1, by decide⟩ rfl
    cases hdest
  · have hdest := h ⟨0, some [1]⟩ ⟨1, by decide⟩ rfl
    cases hdest
  · have hmem := h ⟨0, []⟩ ⟨0, by decide⟩ rfl ([['d'.toUInt8], ['f'.toUInt8]], [1, 2, 3]) (by decide)
    cases hmem

end Listing

end Goldfish.Files
