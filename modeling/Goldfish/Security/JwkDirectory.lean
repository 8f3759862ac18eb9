import Goldfish.Security.JwkObserver
import Mathlib.Data.List.Dedup

/-!
# Goldfish.Security.JwkDirectory

The observer of JSON web keys on a directory of its own. `Directory.system` answers every
question by what is in the directory at the moment, which changes only by what the
observer removes; what the host does in between belongs to `JwkMirror`.

For each program there is one lemma (`runs_…`) that says what it makes of the directory
and of the loader. A scan makes the loader `Complete`, whatever was loaded before; the
handler of one event changes the keys of its path alone.
-/

namespace Goldfish.Security

open Goldfish.Lib Goldfish.Lib.Prog

variable {jwks : JwkSets}

/-! ### The directory -/

/-- A regular file. -/
structure File where
  canRead : Bool
  stream : Stream

/-- What is in the directory; `names` are the paths that were ever used. -/
structure Directory where
  files : Path → Option File
  names : List Path
  mem_names : ∀ path, (files path).isSome → path ∈ names

namespace Directory

/-- A file is created, changed or removed. -/
def set (dir : Directory) (path : Path) (file : Option File) : Directory where
  files := Function.update dir.files path file
  names := path :: dir.names
  mem_names := by
    intro other hother
    by_cases h : other = path
    · exact h ▸ List.mem_cons_self
    · rw [Function.update_of_ne h] at hother
      exact List.mem_cons_of_mem _ (dir.mem_names other hother)

/-- What a removal takes away. -/
def effect (dir : Directory) : Event jwks → Directory
  | .remove path true => dir.set path none
  | _ => dir

/-- The directory after these events. -/
def after (dir : Directory) (log : List (Event jwks)) : Directory := log.foldl effect dir

/-- The system of this directory. A removal may fail. -/
def system (dir : Directory) (removes : List (Event jwks) → Path → Bool) : System jwks where
  scanDirEntries log := ((dir.after log).names.filter fun path => ((dir.after log).files path).isSome).dedup
  pathIsFile log path := ((dir.after log).files path).isSome
  pathCanRead log path := ((dir.after log).files path).any (·.canRead)
  ifstream log path := ((dir.after log).files path).elim .failed (·.stream)
  remove := removes
  watcherStart _ := true

/-- The keys of a file with valid contents. -/
def validKeys (jwks : JwkSets) (dir : Directory) (path : Path) : Option (List jwks.Jwk) := do
  let file ← dir.files path
  if !file.canRead then none
  else
    let text ← (file.stream.read path).toOption
    (loadKeys jwks path text).toOption

theorem after_concat (dir : Directory) (log : List (Event jwks)) (e : Event jwks) :
    dir.after (log ++ [e]) = (dir.after log).effect e := by
  simp [after]

@[simp] theorem set_files_self (dir : Directory) (path : Path) (file : Option File) :
    (dir.set path file).files path = file := Function.update_self ..

theorem set_files_of_ne (dir : Directory) {path other : Path} (h : other ≠ path) (file : Option File) :
    (dir.set path file).files other = dir.files other := Function.update_of_ne h ..

theorem validKeys_none {dir : Directory} {path : Path} (h : dir.files path = none) :
    dir.validKeys jwks path = none := by
  simp [validKeys, h]

theorem validKeys_set_of_ne (dir : Directory) {path other : Path} (h : other ≠ path) (file : Option File) :
    (dir.set path file).validKeys jwks other = dir.validKeys jwks other := by
  simp [validKeys, set_files_of_ne dir h]

end Directory

/-! ### The loader -/

namespace JwkKeyLoader

/-- The keys that are loaded from a path. -/
def keysOf (loader : JwkKeyLoader jwks) (path : Path) : Option (List jwks.Jwk) :=
  (loader.mPublicKeys.find? (·.1 == path)).map (·.2)

/-- A path has its keys once. -/
def Distinct (loader : JwkKeyLoader jwks) : Prop := (loader.mPublicKeys.map Prod.fst).Nodup

variable {loader : JwkKeyLoader jwks} {path other : Path}

@[simp] theorem keysOf_clear : loader.clear.keysOf path = none := rfl

theorem keysOf_erase_self : (loader.erase path).keysOf path = none := by
  simp [keysOf, erase, List.find?_eq_none]

theorem keysOf_erase_of_ne (h : other ≠ path) : (loader.erase path).keysOf other = loader.keysOf other := by
  rw [keysOf, keysOf, erase, List.find?_filter]
  congr 2
  funext entry
  by_cases heq : entry.1 = other
  · simp [heq, h]
  · simp [heq]

theorem keysOf_assign_self {keys : List jwks.Jwk} : (loader.assign path keys).keysOf path = some keys := by
  simp [keysOf, assign]

theorem keysOf_assign_of_ne {keys : List jwks.Jwk} (h : other ≠ path) :
    (loader.assign path keys).keysOf other = loader.keysOf other := by
  refine Eq.trans ?_ (keysOf_erase_of_ne h)
  rw [keysOf, assign, List.find?_cons_of_neg (by simpa using Ne.symm h), keysOf]

theorem any_iff : loader.mPublicKeys.any (·.1 == path) = (loader.keysOf path).isSome := by
  rw [keysOf, Option.isSome_map, Bool.eq_iff_iff, List.any_eq_true, List.find?_isSome]

theorem Distinct.erase (h : loader.Distinct) (path : Path) : (loader.erase path).Distinct :=
  h.sublist (List.filter_sublist.map _)

theorem Distinct.assign (h : loader.Distinct) (path : Path) (keys : List jwks.Jwk) :
    (loader.assign path keys).Distinct := by
  refine List.nodup_cons.mpr ⟨fun hmem => ?_, h.erase path⟩
  obtain ⟨entry, hentry, heq⟩ := List.mem_map.mp hmem
  have := List.of_mem_filter hentry
  simp [heq] at this

/-- The active keys are the keys of all paths. -/
theorem mem_activeKeys (h : loader.Distinct) {key : jwks.Jwk} :
    key ∈ loader.activeKeys ↔ ∃ path keys, loader.keysOf path = some keys ∧ key ∈ keys := by
  rw [activeKeys, List.mem_flatMap]
  constructor
  · rintro ⟨⟨path, keys⟩, hentry, hkey⟩
    refine ⟨path, keys, ?_, hkey⟩
    cases hfound : loader.mPublicKeys.find? (·.1 == path) with
    | none => exact absurd (List.find?_eq_none.mp hfound _ hentry) (by simp)
    | some entry =>
      have hpath : entry.1 = path := by simpa using List.find?_some hfound
      have hsame := List.inj_on_of_nodup_map h (List.mem_of_find?_eq_some hfound) hentry hpath
      rw [keysOf, hfound, hsame]
      rfl
  · rintro ⟨path, keys, hkeys, hkey⟩
    obtain ⟨entry, hfound, rfl⟩ := Option.map_eq_some_iff.mp hkeys
    exact ⟨entry, List.mem_of_find?_eq_some hfound, hkey⟩

end JwkKeyLoader

/-! ### The programs on a directory -/

section Programs

variable {dir : Directory} {removes : List (Event jwks) → Path → Bool} {log : List (Event jwks)} {path : Path}
  {loader : JwkKeyLoader jwks}

/-- What a program does, on the directory of this system. -/
abbrev Runs {α : Type} (m : Watching jwks α) (log : List (Event jwks)) (Q : α → List (Event jwks) → Prop) : Prop :=
  Safe (fun _ _ => True) m log Q

/-- A call that changes no file. -/
theorem runs_unchanged (dir : Directory) {α : Type} {answer : List (Event jwks) → α} {event : α → Event jwks}
    (h : ∀ a, (dir.after log).effect (event a) = dir.after log) :
    Runs (.ask answer event) log fun _ log' => dir.after log' = dir.after log :=
  safe_ask (fun _ => trivial) fun a => (Directory.after_concat ..).trans (h a)

theorem Status.ok_of_failure (failure : Failure) : failure.val.ok = false := by
  simpa [Status.ok] using failure.property

/-- The text of a file, if there is a file to be read. -/
def Directory.text? (dir : Directory) (path : Path) : Option String := do
  let file ← dir.files path
  if !file.canRead then none else (file.stream.read path).toOption

theorem Directory.validKeys_eq (dir : Directory) (path : Path) :
    dir.validKeys jwks path = (dir.text? path).bind fun text => (loadKeys jwks path text).toOption := by
  unfold Directory.validKeys Directory.text?
  cases dir.files path with
  | none => rfl
  | some file => cases hread : file.canRead <;> simp [hread]

theorem runs_readFile : Runs (readFile (dir.system removes) path) log fun read log' =>
    dir.after log' = dir.after log ∧ read.toOption = (dir.after log).text? path := by
  refine safe_bind (safe_answer trivial
    (Q := fun answer log' => dir.after log' = dir.after log ∧ answer = ((dir.after log).files path).isSome)
    ⟨Directory.after_concat .., rfl⟩) fun isFile log₁ hpost => ?_
  obtain ⟨hlog₁, hfile⟩ := hpost
  cases hfound : (dir.after log).files path with
  | none =>
    rw [hfile, hfound]
    exact safe_pure ⟨hlog₁, by simp [Directory.text?, hfound, Except.toOption]⟩
  | some file =>
    rw [hfile, hfound]
    refine safe_bind (safe_answer trivial
      (Q := fun answer log' => dir.after log' = dir.after log ∧ answer = file.canRead)
      ⟨(Directory.after_concat ..).trans hlog₁, ?_⟩) fun canRead log₂ hpost => ?_
    · show ((dir.after log₁).files path).any (·.canRead) = _
      rw [hlog₁, hfound]
      rfl
    · obtain ⟨hlog₂, hread⟩ := hpost
      cases hcan : file.canRead with
      | false =>
        rw [hread, hcan]
        exact safe_pure ⟨hlog₂, by simp [Directory.text?, hfound, hcan, Except.toOption]⟩
      | true =>
        rw [hread, hcan]
        refine safe_bind (safe_answer trivial
          (Q := fun answer log' => dir.after log' = dir.after log ∧ answer = file.stream)
          ⟨(Directory.after_concat ..).trans hlog₂, ?_⟩) fun stream log₃ hpost => safe_pure ?_
        · show ((dir.after log₂).files path).elim .failed (·.stream) = _
          rw [hlog₂, hfound]
          rfl
        · obtain ⟨hlog₃, hstream⟩ := hpost
          exact ⟨hlog₃, by simp [Directory.text?, hfound, hcan, hstream]⟩

/-- What `add` makes of the directory as it is. -/
def Added (loader : JwkKeyLoader jwks) (dir : Directory) (path : Path) (added : Status × JwkKeyLoader jwks) :
    Prop :=
  (∃ keys, dir.validKeys jwks path = some keys ∧ added = (OkStatus, loader.assign path keys)) ∨
    dir.validKeys jwks path = none ∧ added.1.ok = false ∧ added.2 = loader

theorem runs_add : Runs (loader.add (dir.system removes) path) log fun added log' =>
    dir.after log' = dir.after log ∧ Added loader (dir.after log) path added := by
  refine safe_bind runs_readFile fun read log₁ ⟨hlog₁, hread⟩ => ?_
  have hkeys : (dir.after log).validKeys jwks path =
      read.toOption.bind fun text => (loadKeys jwks path text).toOption := by
    rw [Directory.validKeys_eq, hread]
  cases read with
  | error failure => exact safe_pure ⟨hlog₁, .inr ⟨hkeys, Status.ok_of_failure failure, rfl⟩⟩
  | ok text =>
    dsimp only
    cases hload : loadKeys jwks path text with
    | error failure =>
      exact safe_pure ⟨hlog₁, .inr ⟨by rw [hkeys]; simp [Except.toOption, hload],
        Status.ok_of_failure failure, rfl⟩⟩
    | ok keys =>
      refine safe_bind (runs_unchanged dir fun _ => rfl) fun _ log₂ hlog₂ =>
        safe_pure ⟨hlog₂.trans hlog₁, .inl ⟨keys, ?_, rfl⟩⟩
      rw [hkeys]
      simp [Except.toOption, hload]

theorem runs_addWithRetryForEmpty (retries : Nat) :
    Runs (loader.addWithRetryForEmpty (dir.system removes) path retries) log fun added log' =>
      dir.after log' = dir.after log ∧ Added loader (dir.after log) path added := by
  induction retries generalizing loader log with
  | zero => exact runs_add
  | succ retries ih =>
    refine safe_bind runs_add fun added log₁ ⟨hlog₁, hadded⟩ => ?_
    refine safe_ite (fun hagain => ?_) fun _ => safe_pure ⟨hlog₁, hadded⟩
    rcases hadded with ⟨keys, -, rfl⟩ | ⟨hnone, -, hloader⟩
    · exact absurd hagain.1 (by simp [OkStatus])
    · -- nothing has changed in between, so nothing changes
      refine ih.mono fun again log₂ ⟨hlog₂, hagain⟩ => ⟨hlog₂.trans hlog₁, ?_⟩
      rw [hlog₁, hloader] at hagain
      exact hagain

/-- A path without keys is removed, or stays. -/
theorem runs_deleteFile (hnone : (dir.after log).validKeys jwks path = none) :
    Runs ((dir.system removes).deleteFile path) log fun _ log' =>
      ∀ other, (dir.after log').validKeys jwks other = (dir.after log).validKeys jwks other := by
  refine safe_bind (runs_unchanged dir fun _ => rfl) fun isFile log₁ hlog₁ => ?_
  refine safe_ite (fun _ => safe_pure fun other => by rw [hlog₁]) fun _ => safe_answer trivial fun other => ?_
  rw [Directory.after_concat, hlog₁]
  show ((dir.after log).effect (.remove path (removes log₁ path))).validKeys jwks other = _
  cases removes log₁ path with
  | false => rfl
  | true =>
    show ((dir.after log).set path none).validKeys jwks other = _
    by_cases h : other = path
    · rw [h, hnone, Directory.validKeys_none (Directory.set_files_self ..)]
    · exact Directory.validKeys_set_of_ne _ h none

/-- The loader has the keys of the valid files of the directory. -/
def Complete (loader : JwkKeyLoader jwks) (dir : Directory) : Prop :=
  ∀ path, loader.keysOf path = dir.validKeys jwks path

/-- The same files are valid, with the same keys. -/
def SameKeys (jwks : JwkSets) (dir' dir : Directory) : Prop :=
  ∀ path, dir'.validKeys jwks path = dir.validKeys jwks path

theorem runs_scanEntry (hdistinct : loader.Distinct) :
    Runs (scanEntry (dir.system removes) loader path) log fun loader' log' =>
      SameKeys jwks (dir.after log') (dir.after log) ∧ loader'.Distinct ∧
        loader'.keysOf path = ((dir.after log).validKeys jwks path).or (loader.keysOf path) ∧
        ∀ other, other ≠ path → loader'.keysOf other = loader.keysOf other := by
  refine safe_bind runs_add fun added log₁ ⟨hlog₁, hadded⟩ => ?_
  rcases hadded with ⟨keys, hkeys, rfl⟩ | ⟨hnone, hfailed, hloader⟩
  · refine safe_ite (fun h => absurd h (by simp [Status.ok, OkStatus])) fun _ => safe_pure ?_
    refine ⟨fun other => by rw [hlog₁], hdistinct.assign path keys, ?_, fun other h => ?_⟩
    · rw [hkeys]
      exact JwkKeyLoader.keysOf_assign_self
    · exact JwkKeyLoader.keysOf_assign_of_ne h
  · refine safe_ite (fun _ => ?_) fun h => absurd hfailed (by simpa using h)
    refine safe_bind (runs_deleteFile (by rw [hlog₁]; exact hnone)) fun _ log₂ hlog₂ => safe_pure ?_
    refine ⟨fun other => by rw [hlog₂, hlog₁], hloader ▸ hdistinct, ?_, fun _ _ => by rw [hloader]⟩
    rw [hloader, hnone, Option.none_or]

theorem runs_scanEntries (entries : List Path) (hdistinct : loader.Distinct) :
    Runs (entries.foldlM (scanEntry (dir.system removes)) loader) log fun loader' log' =>
      SameKeys jwks (dir.after log') (dir.after log) ∧ loader'.Distinct ∧ ∀ other, loader'.keysOf other =
        if other ∈ entries then ((dir.after log).validKeys jwks other).or (loader.keysOf other)
        else loader.keysOf other := by
  induction entries generalizing loader log with
  | nil => exact safe_pure ⟨fun _ => rfl, hdistinct, fun _ => by simp⟩
  | cons path entries ih =>
    rw [List.foldlM_cons]
    refine safe_bind (runs_scanEntry hdistinct) fun loader₁ log₁ ⟨hsame₁, hdistinct₁, hself, hothers⟩ => ?_
    refine (ih hdistinct₁).mono fun loader₂ log₂ ⟨hsame₂, hdistinct₂, hkeys⟩ => ?_
    refine ⟨fun other => (hsame₂ other).trans (hsame₁ other), hdistinct₂, fun other => ?_⟩
    rw [hkeys, hsame₁]
    by_cases hpath : other = path
    · subst hpath
      rw [hself]
      cases (dir.after log).validKeys jwks other <;> simp
    · simp [hothers other hpath, hpath]

theorem runs_scanJwkPath : Runs (scanJwkPath (dir.system removes) loader) log fun loader' log' =>
    SameKeys jwks (dir.after log') (dir.after log) ∧ loader'.Distinct ∧ Complete loader' (dir.after log') := by
  refine safe_bind (safe_answer trivial (Q := fun entries log' => dir.after log' = dir.after log ∧
    ∀ path, path ∈ entries ↔ ((dir.after log).files path).isSome) ⟨Directory.after_concat .., fun path => ?_⟩)
    fun entries log₁ ⟨hlog₁, hentries⟩ => ?_
  · show path ∈ ((dir.after log).names.filter _).dedup ↔ _
    rw [List.mem_dedup, List.mem_filter]
    exact ⟨And.right, fun h => ⟨(dir.after log).mem_names path h, h⟩⟩
  · refine (runs_scanEntries entries (show loader.clear.Distinct from List.nodup_nil)).mono
      fun loader' log₂ ⟨hsame, hdistinct, hkeys⟩ => ?_
    rw [hlog₁] at hsame hkeys
    refine ⟨hsame, hdistinct, fun path => ?_⟩
    rw [hkeys, hsame]
    simp only [hentries, JwkKeyLoader.keysOf_clear, Option.or_none]
    cases hfile : (dir.after log).files path with
    | none => simp [Directory.validKeys_none hfile]
    | some file => simp

theorem runs_notify (dir : Directory) : Runs (notify loader) log fun _ log' => dir.after log' = dir.after log := by
  refine safe_ite (fun _ => ?_) fun _ => ?_
  · exact safe_bind (runs_unchanged dir fun _ => rfl) fun _ _ hlog => safe_pure hlog
  · cases loader.activeKeySet with
    | error failure => exact safe_pure rfl
    | ok keyset =>
      exact safe_bind (runs_unchanged dir fun _ => rfl) fun _ _ hlog => safe_pure hlog

theorem runs_notifyKeysetUpdated (hdistinct : loader.Distinct) :
    Runs (notifyKeysetUpdated (dir.system removes) loader) log fun loader' log' =>
      SameKeys jwks (dir.after log') (dir.after log) ∧ loader'.Distinct ∧
        (loader' = loader ∨ Complete loader' (dir.after log')) := by
  refine safe_bind (runs_notify dir) fun notified log₁ hlog₁ => ?_
  refine safe_ite (fun _ => ?_) fun _ => safe_pure ⟨fun _ => by rw [hlog₁], hdistinct, .inl rfl⟩
  refine safe_bind runs_scanJwkPath fun rescanned log₂ ⟨hsame, hdistinct', hcomplete⟩ => ?_
  refine safe_bind (runs_notify dir) fun _ log₃ hlog₃ => safe_pure ?_
  refine ⟨fun path => by rw [hlog₃, hsame, hlog₁], hdistinct', .inr fun path => by rw [hlog₃, hcomplete]⟩

/-- What the handler of an accepted file does: the keys of the path are those of the file, or it has
rescanned; but a file that is refused leaves the keys of its path where they are, and there is no rescan. -/
theorem runs_fileChangeHandler {mPathFilter : Path → Bool} (hpath : mPathFilter path = true)
    (hdistinct : loader.Distinct) (change : WatcherChangeType)
    (hreported : change = .Deleted ↔ (dir.after log).files path = none) :
    Runs (fileChangeHandler (dir.system removes) mPathFilter loader change path) log fun loader' log' =>
      SameKeys jwks (dir.after log') (dir.after log) ∧ loader'.Distinct ∧
        (((dir.after log).validKeys jwks path = none → change = .Deleted) ∧ Complete loader' (dir.after log') ∨
          (∀ other, other ≠ path → loader'.keysOf other = loader.keysOf other) ∧
            loader'.keysOf path = if change = .Deleted then none
              else ((dir.after log).validKeys jwks path).or (loader.keysOf path)) := by
  have hadd : ∀ {change : WatcherChangeType}, change ≠ .Deleted →
      Runs (fileAdded (dir.system removes) loader path >>= fun changed =>
        if !changed.1.ok then return changed.2
        else notifyKeysetUpdated (dir.system removes) changed.2) log fun loader' log' =>
      SameKeys jwks (dir.after log') (dir.after log) ∧ loader'.Distinct ∧
        (((dir.after log).validKeys jwks path = none → change = .Deleted) ∧ Complete loader' (dir.after log') ∨
          (∀ other, other ≠ path → loader'.keysOf other = loader.keysOf other) ∧
            loader'.keysOf path = if change = .Deleted then none
              else ((dir.after log).validKeys jwks path).or (loader.keysOf path)) := by
    intro change hchange
    refine safe_bind (Q := fun added log' => SameKeys jwks (dir.after log') (dir.after log) ∧
      Added loader (dir.after log) path added) ?_ fun added log₁ ⟨hsame, hadded⟩ => ?_
    · refine safe_bind (runs_addWithRetryForEmpty 8) fun added log₁ ⟨hlog₁, hadded⟩ => ?_
      refine safe_ite (fun hfailed => ?_) fun _ => safe_pure ⟨fun _ => by rw [hlog₁], hadded⟩
      have hnone : (dir.after log).validKeys jwks path = none := by
        rcases hadded with ⟨keys, -, rfl⟩ | ⟨hnone, -⟩
        · exact absurd hfailed (by simp [Status.ok, OkStatus])
        · exact hnone
      refine safe_bind (runs_deleteFile (by rw [hlog₁]; exact hnone)) fun _ log₂ hlog₂ => safe_pure ?_
      exact ⟨fun other => by rw [hlog₂, hlog₁], hadded⟩
    · rcases hadded with ⟨keys, hkeys, rfl⟩ | ⟨hnone, hfailed, hloader⟩
      · refine safe_ite (fun h => absurd h (by simp [Status.ok, OkStatus])) fun _ => ?_
        refine (runs_notifyKeysetUpdated (hdistinct.assign path keys)).mono
          fun loader' log₂ ⟨hsame', hdistinct', hresult⟩ => ?_
        refine ⟨fun other => (hsame' other).trans (hsame other), hdistinct', ?_⟩
        rcases hresult with rfl | hcomplete
        · refine .inr ⟨fun other h => JwkKeyLoader.keysOf_assign_of_ne h, ?_⟩
          rw [JwkKeyLoader.keysOf_assign_self, if_neg hchange, hkeys, Option.some_or]
        · exact .inl ⟨fun hnone => by simp [hkeys] at hnone, hcomplete⟩
      · refine safe_ite (fun _ => safe_pure ?_) fun h => absurd hfailed (by simpa using h)
        refine ⟨hsame, hloader ▸ hdistinct, .inr ⟨fun _ _ => by rw [hloader], ?_⟩⟩
        rw [hloader, if_neg hchange, hnone, Option.none_or]
  rw [fileChangeHandler, hpath]
  cases change with
  | Created => exact hadd (by simp)
  | Changed => exact hadd (by simp)
  | Deleted =>
    refine safe_bind (safe_pure (Q := fun changed log' => changed = loader.remove path ∧ log' = log)
      ⟨rfl, rfl⟩) fun changed log₁ ⟨hchanged, hlog₁⟩ => ?_
    subst hlog₁
    cases hany : loader.mPublicKeys.any (·.1 == path) with
    | false =>
      obtain rfl : changed = (⟨.NOT_FOUND, "Public key with path " ++ path ++ ", does not exist"⟩, loader) := by
        rw [hchanged, JwkKeyLoader.remove, hany]
        rfl
      refine safe_ite (fun _ => safe_pure ?_) fun h => absurd h (by simp [Status.ok])
      refine ⟨fun _ => rfl, hdistinct, .inr ⟨fun _ _ => rfl, ?_⟩⟩
      rw [JwkKeyLoader.any_iff] at hany
      simpa using hany
    | true =>
      obtain rfl : changed = (OkStatus, loader.erase path) := by
        rw [hchanged, JwkKeyLoader.remove, hany]
        rfl
      refine safe_ite (fun h => absurd h (by simp [Status.ok, OkStatus])) fun _ => ?_
      refine (runs_notifyKeysetUpdated (hdistinct.erase path)).mono
        fun loader' log₂ ⟨hsame, hdistinct', hresult⟩ => ⟨hsame, hdistinct', ?_⟩
      rcases hresult with rfl | hcomplete
      · exact .inr ⟨fun other h => JwkKeyLoader.keysOf_erase_of_ne h, JwkKeyLoader.keysOf_erase_self⟩
      · exact .inl ⟨fun _ => rfl, hcomplete⟩

end Programs

end Goldfish.Security
