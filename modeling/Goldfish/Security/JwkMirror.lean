import Goldfish.Security.JwkDirectory

/-!
# Goldfish.Security.JwkMirror

**When the active keys mirror the directory.** The host changes files, and the observer
handles events; an event is handled when its file is there or is gone, as the event says.
A path is settled when it was not changed since its last event.

The observer keeps the keys of a file whose new contents it refuses: it deletes the file
and returns in front of everything that would take the keys back. So the loaded keys of
the settled paths are those of their files exactly as long as no file is refused whose
keys are loaded (`active_keys_mirror_iff`).
-/

namespace Goldfish.Security

open Goldfish.Lib Goldfish.Lib.Prog

variable {jwks : JwkSets}

/-- The loader beside the directory, and the files for which all events have come. -/
structure Mirror (jwks : JwkSets) where
  loader : JwkKeyLoader jwks
  dir : Directory
  settled : Path → Bool

/-- A change of the directory, or an event. -/
inductive MirrorStep where
  /-- The host creates, changes or removes a file. -/
  | change (path : Path) (file : Option File)
  | event (change : WatcherChangeType) (path : Path)

/-- The file is not yet as the event says. -/
inductive NotYet where
  | notYet
deriving DecidableEq

namespace Mirror

section Steps

variable (removes : List (Event jwks) → Path → Bool) (mPathFilter : Path → Bool)

/-- A program of the observer, on the directory as it is. -/
def runOn (dir : Directory) (program : System jwks → Watching jwks (JwkKeyLoader jwks)) :
    JwkKeyLoader jwks × Directory :=
  match program (dir.system removes) [] with
  | (.ok loader, log) => (loader, dir.after log)

/-- The observer is started on a directory. -/
def start (dir : Directory) : Mirror jwks :=
  let started := runOn removes dir fun system => do
    let started ← JwkDirectoryObserver.initial.start system
    return started.2.mLoadedKeys
  ⟨started.1, started.2, fun _ => true⟩

/-- An event of an accepted file is handled after the file has reached the reported state. -/
def step (w : Mirror jwks) : MirrorStep → Except NotYet (Mirror jwks)
  | .change path file => .ok { w with dir := w.dir.set path file, settled := Function.update w.settled path false }
  | .event change path =>
    if mPathFilter path = true ∧ (change = .Deleted ↔ w.dir.files path = none) then
      let handled := runOn removes w.dir fun system =>
        fileChangeHandler system mPathFilter w.loader change path
      .ok ⟨handled.1, handled.2, Function.update w.settled path true⟩
    else .error .notYet

/-- The loader has the keys of the files; when every path is settled, the active keys are those of the
files that are there with valid contents. -/
structure Exact (w : Mirror jwks) : Prop where
  files : ∀ path, w.settled path = true → w.loader.keysOf path = w.dir.validKeys jwks path
  union : (∀ path, w.settled path = true) → ∀ key, key ∈ w.loader.activeKeys ↔
    ∃ path keys, w.dir.validKeys jwks path = some keys ∧ key ∈ keys

/-- The step leaves the active keys exact. -/
def LeavesExact (w : Mirror jwks) (a : MirrorStep) : Prop :=
  ∀ w', w.step removes mPathFilter a = .ok w' → w'.Exact

/-- No file is refused whose keys are loaded. -/
def Revokes (w : Mirror jwks) : MirrorStep → Prop
  | .event .Created path | .event .Changed path => mPathFilter path = true → (w.dir.files path).isSome →
    w.dir.validKeys jwks path = none → w.loader.keysOf path = none
  | _ => True

end Steps

/-! ### One step -/

/-- What holds of the loader in every run. -/
structure Inv (w : Mirror jwks) : Prop where
  distinct : w.loader.Distinct
  files : ∀ path, w.settled path = true → w.loader.keysOf path = w.dir.validKeys jwks path

theorem Inv.exact {w : Mirror jwks} (h : w.Inv) : w.Exact := by
  refine ⟨h.files, fun hsettled key => ?_⟩
  rw [JwkKeyLoader.mem_activeKeys h.distinct]
  simp only [h.files _ (hsettled _)]

section Runs

variable {removes : List (Event jwks) → Path → Bool} {mPathFilter : Path → Bool}

theorem runOn_spec (removes : List (Event jwks) → Path → Bool) (dir : Directory)
    (program : System jwks → Watching jwks (JwkKeyLoader jwks))
    {P : JwkKeyLoader jwks → Directory → Prop}
    (h : Runs (program (dir.system removes)) [] fun loader log => P loader (dir.after log)) :
    P (runOn removes dir program).1 (runOn removes dir program).2 := by
  unfold runOn
  split
  next loader log hrun =>
    have hpost := h.2
    rw [hrun] at hpost
    exact hpost loader rfl

theorem inv_start (dir : Directory) : (start removes dir).Inv := by
  have hstart := runOn_spec removes dir
    (fun system => do
      let started ← JwkDirectoryObserver.initial.start system
      return started.2.mLoadedKeys)
    (P := fun loader dir' => loader.Distinct ∧ Complete loader dir') ?_
  · exact ⟨hstart.1, fun path _ => hstart.2 path⟩
  · refine safe_bind (Q := fun started log => started.2.mLoadedKeys.Distinct ∧
      Complete started.2.mLoadedKeys (dir.after log)) ?_ fun started log h => safe_pure h
    refine safe_ite (fun h => absurd h (by simp [JwkDirectoryObserver.initial])) fun _ => ?_
    refine safe_bind runs_scanJwkPath fun scanned log₁ ⟨_, hdistinct, hcomplete⟩ => ?_
    refine safe_bind (runs_notifyKeysetUpdated hdistinct) fun loaded log₂ ⟨hsame, hdistinct', hresult⟩ => ?_
    refine safe_bind (runs_unchanged dir fun _ => rfl) fun _ log₃ hlog₃ => safe_pure ⟨hdistinct', ?_⟩
    rw [hlog₃]
    rcases hresult with rfl | hrescanned
    · exact fun path => (hcomplete path).trans (hsame path).symm
    · exact hrescanned

/-- What handling an event leaves. -/
theorem step_event {w w' : Mirror jwks} {change : WatcherChangeType} {path : Path} (h : w.Inv)
    (hstep : w.step removes mPathFilter (.event change path) = .ok w') :
    mPathFilter path = true ∧ (change = .Deleted ↔ w.dir.files path = none) ∧
      w'.settled = Function.update w.settled path true ∧ w'.loader.Distinct ∧
      SameKeys jwks w'.dir w.dir ∧
      ((w.dir.validKeys jwks path = none → change = .Deleted) ∧ Complete w'.loader w'.dir ∨
        (∀ other, other ≠ path → w'.loader.keysOf other = w.loader.keysOf other) ∧
          w'.loader.keysOf path = if change = .Deleted then none
            else (w.dir.validKeys jwks path).or (w.loader.keysOf path)) := by
  rw [step] at hstep
  split at hstep
  · next hguard =>
    cases hstep
    have hhandled := runOn_spec removes w.dir
      (fun system => fileChangeHandler system mPathFilter w.loader change path)
      (P := fun loader dir' => SameKeys jwks dir' w.dir ∧ loader.Distinct ∧
        ((w.dir.validKeys jwks path = none → change = .Deleted) ∧ Complete loader dir' ∨
          (∀ other, other ≠ path → loader.keysOf other = w.loader.keysOf other) ∧
            loader.keysOf path = if change = .Deleted then none
              else (w.dir.validKeys jwks path).or (w.loader.keysOf path)))
      (runs_fileChangeHandler hguard.1 h.distinct change hguard.2)
    exact ⟨hguard.1, hguard.2, rfl, hhandled.2.1, hhandled.1, hhandled.2.2⟩
  · cases hstep

/-- The keys of a path after its event are those of its file, unless it is refused. -/
theorem Inv.step {w w' : Mirror jwks} {a : MirrorStep} (h : w.Inv) (hrevokes : w.Revokes mPathFilter a)
    (hstep : w.step removes mPathFilter a = .ok w') : w'.Inv := by
  cases a with
  | change path file =>
    cases hstep
    refine ⟨h.distinct, fun other hother => ?_⟩
    by_cases heq : other = path
    · simp [heq] at hother
    · rw [Directory.validKeys_set_of_ne _ heq]
      exact h.files other (by simpa [heq] using hother)
  | event change path =>
    obtain ⟨hpath, hreported, hsettled, hdistinct, hsame, hkeys⟩ := step_event h hstep
    refine ⟨hdistinct, fun other hother => ?_⟩
    rcases hkeys with ⟨-, hcomplete⟩ | ⟨hothers, hself⟩
    · exact hcomplete other
    · rw [hsame]
      by_cases heq : other = path
      · subst heq
        rw [hself]
        by_cases hdeleted : change = .Deleted
        · rw [if_pos hdeleted, Directory.validKeys_none (hreported.mp hdeleted)]
        · rw [if_neg hdeleted]
          cases hvalid : w.dir.validKeys jwks other with
          | some keys => rfl
          | none =>
            have hsome : (w.dir.files other).isSome :=
              Option.isSome_iff_ne_none.mpr fun hnone => hdeleted (hreported.mpr hnone)
            rw [Option.none_or]
            cases change with
            | Created => exact hrevokes hpath hsome hvalid
            | Changed => exact hrevokes hpath hsome hvalid
            | Deleted => exact absurd rfl hdeleted
      · rw [hothers other heq]
        refine h.files other ?_
        rw [hsettled, Function.update_of_ne heq] at hother
        exact hother

theorem Inv.leavesExact_iff {w : Mirror jwks} (h : w.Inv) (a : MirrorStep) :
    w.LeavesExact removes mPathFilter a ↔ w.Revokes mPathFilter a := by
  constructor
  · intro hexact
    have hevent : ∀ change path, change ≠ .Deleted → w.LeavesExact removes mPathFilter (.event change path) →
        mPathFilter path = true → (w.dir.files path).isSome → w.dir.validKeys jwks path = none →
        w.loader.keysOf path = none := by
      intro change path hchange hexact hpath hsome hnone
      have hguard : change = .Deleted ↔ w.dir.files path = none :=
        iff_of_false hchange (Option.isSome_iff_ne_none.mp hsome)
      obtain ⟨w', hstep⟩ : ∃ w', w.step removes mPathFilter (.event change path) = .ok w' := by
        rw [Mirror.step, if_pos ⟨hpath, hguard⟩]
        exact ⟨_, rfl⟩
      obtain ⟨-, -, hsettled, -, hsame, hkeys⟩ := step_event h hstep
      have hfile := (hexact w' hstep).files path (by rw [hsettled, Function.update_self])
      rcases hkeys with ⟨hdeleted, -⟩ | ⟨-, hself⟩
      · exact absurd (hdeleted hnone) hchange
      · rwa [hself, if_neg hchange, hsame, hnone, Option.none_or] at hfile
    cases a with
    | change path file => trivial
    | event change path =>
      cases change with
      | Created => exact hevent .Created path (by simp) hexact
      | Changed => exact hevent .Changed path (by simp) hexact
      | Deleted => trivial
  · intro hrevokes w' hstep
    exact (h.step hrevokes hstep).exact

end Runs

end Mirror

/-! ### Every run -/

/-- **The active keys and the directory.** They agree when the observer has started; and every step of a run
leaves them in agreement if and only if no event finds a file that has to be refused while keys of it are
loaded. -/
theorem active_keys_mirror_iff (removes : List (Event jwks) → Path → Bool) (mPathFilter : Path → Bool)
    (dir : Directory) (steps : List MirrorStep) :
    (Mirror.start removes dir).Exact ∧
      (Along (Mirror.step removes mPathFilter) (Mirror.LeavesExact removes mPathFilter)
          (Mirror.start removes dir) steps ↔
        Along (Mirror.step removes mPathFilter) (Mirror.Revokes mPathFilter) (Mirror.start removes dir) steps) :=
  ⟨(Mirror.inv_start dir).exact, along_iff_along (I := Mirror.Inv) (fun _ a h => h.leavesExact_iff a)
    (fun _ _ _ h hrevokes hstep => h.step hrevokes hstep) (Mirror.inv_start dir)⟩

/-- Texts that are keys, but for one. -/
def oneBadText : JwkSets where
  Jwk := String
  KeysetHandle := String
  accept _ := true
  toPublicKeysetHandle text := if text = "bad" then .error (InternalError text) else .ok text
  fromPublicKeysetHandle := .ok
  keys text := [text]
  dump _ := ""

/-- A key stays active when its file is replaced by one that is none, and the file is gone. -/
theorem refused_file_keeps_its_keys :
    ∃ w : Mirror oneBadText,
      [.change "a.jwk" (some ⟨true, .opened 3 (.ok "key")⟩), .event .Created "a.jwk",
        .change "a.jwk" (some ⟨true, .opened 3 (.ok "bad")⟩), .event .Changed "a.jwk"].foldlM
          (Mirror.step (fun _ _ => true) fun _ => true)
          (Mirror.start (fun _ _ => true) ⟨fun _ => none, [], nofun⟩) = .ok w ∧
        w.loader.activeKeys = ["key"] ∧ w.dir.files "a.jwk" = none ∧ ¬ w.Exact := by
  refine ⟨_, rfl, rfl, rfl, fun h => ?_⟩
  have hfile : some ["key"] = none := h.files "a.jwk" rfl
  cases hfile

end Goldfish.Security
