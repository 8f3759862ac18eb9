import Goldfish.Security.JwkObserver

/-!
# Goldfish.Security.JwkFilter

**Which files provide keys.** The filter is asked when the watcher reports a change, but
not in a scan of the directory: there every regular file is loaded or, if it is not a
key, deleted (`rejected_files_are_processed`). Where the scans find no other regular files
than those the filter accepts, only these are loaded or deleted, and every key that is
handed to the callback is from one of them (`only_accepted_files`).

`Traced` holds of every run: a file that is touched was accepted or found by a scan, and
the keys of a keyset are those of loaded files. The condition on the scans is used in
the last step only.
-/

namespace Goldfish.Security

open Goldfish.Lib Goldfish.Lib.Prog

variable {jwks : JwkSets}

/-! ### Where events come from -/

/-- The filter accepts the path, or a scan found it. -/
def Known (mPathFilter : Path → Bool) (log : List (Event jwks)) (path : Path) : Prop :=
  mPathFilter path = true ∨ ∃ entries, .scanDirEntries entries ∈ log ∧ path ∈ entries

/-- The path is known, and was seen to be a regular file. -/
def Touched (mPathFilter : Path → Bool) (log : List (Event jwks)) (path : Path) : Prop :=
  Known mPathFilter log path ∧ .pathIsFile path true ∈ log

/-- The keys are those in the text of the file. -/
def ReadFrom (log : List (Event jwks)) (path : Path) (keys : List jwks.Jwk) : Prop :=
  ∃ fileSize text, .ifstream path (.opened fileSize (.ok text)) ∈ log ∧ loadKeys jwks path text = .ok keys

/-- What holds of the events of every run. -/
def Traced (mPathFilter : Path → Bool) (log : List (Event jwks)) : Event jwks → Prop
  | .publicKeys path keys => Touched mPathFilter log path ∧ ReadFrom log path keys
  | .remove path _ => Touched mPathFilter log path
  | .callback (some keyset) => ∃ keys, jwks.toPublicKeysetHandle (jwks.dump keys) = .ok keyset ∧
      ∀ key ∈ keys, ∃ path keys', .publicKeys path keys' ∈ log ∧ key ∈ keys'
  | _ => True

/-- The loader has what was loaded in the run. -/
def Loaded (loader : JwkKeyLoader jwks) (log : List (Event jwks)) : Prop :=
  ∀ entry ∈ loader.mPublicKeys, .publicKeys entry.1 entry.2 ∈ log

section Histories

variable {mPathFilter : Path → Bool} {log log' : List (Event jwks)} {path : Path} {loader : JwkKeyLoader jwks}

theorem Known.mono (h : Known mPathFilter log path) (hlog : log <+: log') : Known mPathFilter log' path := by
  refine h.imp_right fun ⟨entries, hscan, hpath⟩ => ?_
  exact ⟨entries, hlog.subset hscan, hpath⟩

theorem Loaded.mono (h : Loaded loader log) (hlog : log <+: log') : Loaded loader log' :=
  fun entry hentry => hlog.subset (h entry hentry)

theorem loaded_clear (loader : JwkKeyLoader jwks) : Loaded loader.clear log :=
  fun _ hentry => absurd hentry List.not_mem_nil

theorem Loaded.erase (h : Loaded loader log) (path : Path) : Loaded (loader.erase path) log :=
  fun entry hentry => h entry (List.mem_of_mem_filter hentry)

theorem Loaded.assign (h : Loaded loader log) {keys : List jwks.Jwk} (hkeys : .publicKeys path keys ∈ log) :
    Loaded (loader.assign path keys) log := by
  intro entry hentry
  rcases List.mem_cons.mp hentry with rfl | hentry
  · exact hkeys
  · exact h.erase path entry hentry

theorem Loaded.remove (h : Loaded loader log) (path : Path) : Loaded (loader.remove path).2 log := by
  unfold JwkKeyLoader.remove
  split
  · exact h.erase path
  · exact h

end Histories

/-! ### The programs -/

section Programs

variable {mPathFilter : Path → Bool} {log : List (Event jwks)} {path : Path} {loader : JwkKeyLoader jwks}
  {system : System jwks}

/-- A question touches no file. -/
theorem safe_call {α : Type} {answer : List (Event jwks) → α} {event : α → Event jwks}
    (h : ∀ a, Traced mPathFilter log (event a)) :
    Safe (Traced mPathFilter) (.ask answer event : Watching jwks α) log fun a log' => event a ∈ log' :=
  safe_ask h fun _ => by simp

theorem safe_pathIsFile : Safe (Traced mPathFilter) (system.callPathIsFile path) log fun answer log' =>
    .pathIsFile path answer ∈ log' :=
  safe_call fun _ => trivial

theorem safe_pathCanRead : Safe (Traced mPathFilter) (system.callPathCanRead path) log fun _ _ => True :=
  safe_ask (fun _ => trivial) fun _ => trivial

theorem safe_ifstream : Safe (Traced mPathFilter) (system.callIfstream path) log fun answer log' =>
    .ifstream path answer ∈ log' :=
  safe_call fun _ => trivial

theorem safe_tell {event : Event jwks} (h : Traced mPathFilter log event) :
    Safe (Traced mPathFilter) (tell event) log fun _ log' => event ∈ log' :=
  safe_call fun _ => h

theorem safe_deleteFile (hpath : Known mPathFilter log path) :
    Safe (Traced mPathFilter) (system.deleteFile path) log fun _ _ => True := by
  refine safe_bind safe_pathIsFile.grows fun isFile log' ⟨hfile, hlog⟩ => ?_
  refine safe_ite (fun _ => safe_pure trivial) fun h => ?_
  obtain rfl : isFile = true := by simpa using h
  exact safe_ask (fun _ => ⟨hpath.mono hlog, hfile⟩) fun _ => trivial

/-- What a stream gives is what can be read from it. -/
theorem Stream.opened_of_read {stream : Stream} {text : String} (h : stream.read path = .ok text) :
    ∃ fileSize, stream = .opened fileSize (.ok text) := by
  unfold Stream.read at h
  split at h
  · cases h
  · split at h
    · cases h
    · split at h
      · cases h
      · split at h
        · cases h
        · cases h
          exact ⟨_, rfl⟩

theorem safe_readFile : Safe (Traced mPathFilter) (readFile system path) log fun read log' =>
    ∀ text, read = .ok text → .pathIsFile path true ∈ log' ∧
      ∃ fileSize, .ifstream path (.opened fileSize (.ok text)) ∈ log' := by
  refine safe_bind safe_pathIsFile fun isFile log₁ hfile => ?_
  refine safe_ite (fun _ => safe_pure nofun) fun h => ?_
  obtain rfl : isFile = true := by simpa using h
  refine safe_bind safe_pathCanRead.grows fun _ log₂ ⟨_, hlog₂⟩ => ?_
  refine safe_ite (fun _ => safe_pure nofun) fun _ => ?_
  refine safe_bind safe_ifstream.grows fun stream log₃ ⟨hstream, hlog₃⟩ => safe_pure ?_
  intro text htext
  obtain ⟨fileSize, rfl⟩ := Stream.opened_of_read htext
  exact ⟨hlog₃.subset (hlog₂.subset hfile), fileSize, hstream⟩

theorem safe_add (hpath : Known mPathFilter log path) (hloaded : Loaded loader log) :
    Safe (Traced mPathFilter) (loader.add system path) log fun added log' => Loaded added.2 log' := by
  refine safe_bind safe_readFile.grows fun read log₁ ⟨hread, hlog₁⟩ => ?_
  replace hloaded := hloaded.mono hlog₁
  cases read with
  | error failure => exact safe_pure hloaded
  | ok text =>
    obtain ⟨hfile, fileSize, htext⟩ := hread text rfl
    dsimp only
    cases hkeys : loadKeys jwks path text with
    | error failure => exact safe_pure hloaded
    | ok keys =>
      have htraced : Traced mPathFilter log₁ (.publicKeys path keys) :=
        ⟨⟨hpath.mono hlog₁, hfile⟩, fileSize, text, htext, hkeys⟩
      refine safe_bind (safe_tell htraced).grows fun _ log₂ ⟨hmem, hlog₂⟩ => safe_pure ?_
      exact (hloaded.mono hlog₂).assign hmem

theorem safe_addWithRetryForEmpty (hpath : Known mPathFilter log path) (hloaded : Loaded loader log)
    (retries : Nat) :
    Safe (Traced mPathFilter) (loader.addWithRetryForEmpty system path retries) log fun added log' =>
      Loaded added.2 log' := by
  induction retries generalizing loader log with
  | zero => exact safe_add hpath hloaded
  | succ retries ih =>
    refine safe_bind (safe_add hpath hloaded).grows fun added log₁ ⟨hadded, hlog₁⟩ => ?_
    exact safe_ite (fun _ => ih (hpath.mono hlog₁) hadded) fun _ => safe_pure hadded

/-- A path that was not loaded is deleted. -/
theorem safe_orDelete {added : Status × JwkKeyLoader jwks} {α : Type} {result : α}
    {Q : α → List (Event jwks) → Prop} (hpath : Known mPathFilter log path)
    (hQ : ∀ log', log <+: log' → Q result log') :
    Safe (Traced mPathFilter)
      (if !added.1.ok then do
        let _ ← system.deleteFile path
        return result
      else return result : Watching jwks α) log Q := by
  refine safe_ite (fun _ => ?_) fun _ => safe_pure (hQ log (List.prefix_refl log))
  exact safe_bind (safe_deleteFile hpath).grows fun _ log' h => safe_pure (hQ log' h.2)

theorem safe_scanJwkPath : Safe (Traced mPathFilter) (scanJwkPath system loader) log Loaded := by
  refine safe_bind (safe_call fun _ => trivial) fun entries log₁ hscan => ?_
  -- the invariant of the loop keeps the scan, which is why its paths are known
  refine (safe_foldlM (Q := fun loader log' => Loaded loader log' ∧ .scanDirEntries entries ∈ log')
    ⟨loaded_clear loader, hscan⟩ fun path hpath loader log₂ ⟨hloaded, hscan⟩ => ?_).mono fun _ _ h => h.1
  have hknown : Known mPathFilter log₂ path := .inr ⟨entries, hscan, hpath⟩
  refine safe_bind (safe_add hknown hloaded).grows fun added log₃ ⟨hadded, hlog₃⟩ => ?_
  exact safe_orDelete (hknown.mono hlog₃) fun log' hlog' =>
    ⟨hadded.mono hlog', hlog'.subset (hlog₃.subset hscan)⟩

/-- The keyset is made of the keys that were loaded. -/
theorem safe_notify (hloaded : Loaded loader log) :
    Safe (Traced mPathFilter) (notify loader) log fun _ _ => True := by
  refine safe_ite (fun _ => ?_) fun _ => ?_
  · exact safe_bind (safe_tell trivial) fun _ _ _ => safe_pure trivial
  · unfold JwkKeyLoader.activeKeySet
    cases hkeyset : jwks.toPublicKeysetHandle (jwks.dump loader.activeKeys) with
    | error failure => exact safe_pure trivial
    | ok keyset =>
      have htraced : Traced mPathFilter log (.callback (some keyset)) := by
        refine ⟨loader.activeKeys, hkeyset, fun key hkey => ?_⟩
        obtain ⟨entry, hentry, hkey⟩ := List.mem_flatMap.mp hkey
        exact ⟨entry.1, entry.2, hloaded entry hentry, hkey⟩
      exact safe_bind (safe_tell htraced) fun _ _ _ => safe_pure trivial

theorem safe_notifyKeysetUpdated (hloaded : Loaded loader log) :
    Safe (Traced mPathFilter) (notifyKeysetUpdated system loader) log Loaded := by
  refine safe_bind (safe_notify hloaded).grows fun notified log₁ ⟨_, hlog₁⟩ => ?_
  refine safe_ite (fun _ => ?_) fun _ => safe_pure (hloaded.mono hlog₁)
  refine safe_bind safe_scanJwkPath fun rescanned log₂ hrescanned => ?_
  exact safe_bind (safe_notify hrescanned).grows fun _ _ h => safe_pure (hrescanned.mono h.2)

theorem safe_fileAdded (hpath : mPathFilter path = true) (hloaded : Loaded loader log) :
    Safe (Traced mPathFilter) (fileAdded system loader path) log fun added log' => Loaded added.2 log' := by
  refine safe_bind (safe_addWithRetryForEmpty (.inl hpath) hloaded 8) fun added log₁ hadded => ?_
  exact safe_orDelete (.inl hpath) fun _ hlog => hadded.mono hlog

theorem safe_fileChangeHandler (hloaded : Loaded loader log) (change : WatcherChangeType) :
    Safe (Traced mPathFilter) (fileChangeHandler system mPathFilter loader change path) log Loaded := by
  refine safe_ite (fun _ => safe_pure hloaded) fun hpath => ?_
  have hpath : mPathFilter path = true := by simpa using hpath
  refine safe_bind (Q := fun changed log' => Loaded changed.2 log') ?_ fun changed log₁ hchanged => ?_
  · cases change with
    | Created => exact safe_fileAdded hpath hloaded
    | Changed => exact safe_fileAdded hpath hloaded
    | Deleted => exact safe_pure (hloaded.remove path)
  · exact safe_ite (fun _ => safe_pure hchanged) fun _ => safe_notifyKeysetUpdated hchanged

end Programs

/-! ### Every life of an observer -/

namespace JwkDirectoryObserver

variable {mPathFilter : Path → Bool} {log : List (Event jwks)} {system : System jwks}

theorem safe_step {observer : JwkDirectoryObserver jwks} (hloaded : Loaded observer.mLoadedKeys log)
    (action : Action) :
    Safe (Traced mPathFilter) (step system mPathFilter observer action) log fun observer' log' =>
      Loaded observer'.mLoadedKeys log' := by
  cases action with
  | start =>
    refine safe_bind (Q := fun started log' => Loaded started.2.mLoadedKeys log') ?_ fun _ _ h => safe_pure h
    refine safe_ite (fun _ => safe_pure hloaded) fun _ => ?_
    refine safe_bind safe_scanJwkPath fun scanned log₁ hscanned => ?_
    refine safe_bind (safe_notifyKeysetUpdated hscanned) fun loaded log₂ hloaded => ?_
    have hstart : Safe (Traced mPathFilter) (.ask system.watcherStart .watcherStart : Watching jwks Bool) log₂
        fun _ _ => True := safe_ask (fun _ => trivial) fun _ => trivial
    exact safe_bind hstart.grows fun _ log₃ h => safe_pure (hloaded.mono h.2)
  | stop =>
    refine safe_ite (fun _ => safe_pure (loaded_clear observer.mLoadedKeys)) fun _ => ?_
    exact safe_bind (safe_tell trivial) fun _ _ _ => safe_pure (loaded_clear observer.mLoadedKeys)
  | fileChange change path =>
    exact safe_bind (safe_fileChangeHandler hloaded change) fun _ _ h => safe_pure h

/-- Every event of every run is traced. -/
theorem run_traced (system : System jwks) (mPathFilter : Path → Bool) (actions : List Action) :
    Hist (Traced mPathFilter) (run system mPathFilter actions []).2 := by
  have hinitial : Loaded (initial : JwkDirectoryObserver jwks).mLoadedKeys [] := nofun
  exact (safe_foldlM (Q := fun observer log => Loaded observer.mLoadedKeys log) hinitial
    fun action _ _ _ hloaded => safe_step hloaded action).1

end JwkDirectoryObserver

/-! ### What the filter is for -/

/-- The key is from a file that the filter accepts. -/
def FromAccepted (mPathFilter : Path → Bool) (log : List (Event jwks)) (key : jwks.Jwk) : Prop :=
  ∃ path keys, mPathFilter path = true ∧ ReadFrom log path keys ∧ key ∈ keys

/-- Only accepted files are loaded or deleted, and all keys of a keyset are from accepted files. -/
def OnlyAccepted (mPathFilter : Path → Bool) (log : List (Event jwks)) : Event jwks → Prop
  | .publicKeys path _ => mPathFilter path = true
  | .remove path deleted => deleted = true → mPathFilter path = true
  | .callback (some keyset) => ∃ keys, jwks.toPublicKeysetHandle (jwks.dump keys) = .ok keyset ∧
      ∀ key ∈ keys, FromAccepted mPathFilter log key
  | _ => True

/-- The filter accepts every regular file that a scan of the directory finds. -/
def ScansAccepted (mPathFilter : Path → Bool) (log : List (Event jwks)) : Prop :=
  ∀ entries, .scanDirEntries entries ∈ log → ∀ path ∈ entries, .pathIsFile path true ∈ log →
    mPathFilter path = true

section Accepted

variable {mPathFilter : Path → Bool} {log pre : List (Event jwks)} {path : Path}

theorem Touched.accepted (h : Touched mPathFilter pre path) (hpre : pre <+: log)
    (hscans : ScansAccepted mPathFilter log) : mPathFilter path = true := by
  obtain ⟨haccepted | ⟨entries, hscan, hpath⟩, hfile⟩ := h
  · exact haccepted
  · exact hscans entries (hpre.subset hscan) path hpath (hpre.subset hfile)

theorem ReadFrom.mono {log' : List (Event jwks)} {keys : List jwks.Jwk} (h : ReadFrom log path keys)
    (hlog : log <+: log') : ReadFrom log' path keys := by
  obtain ⟨fileSize, text, htext, hkeys⟩ := h
  exact ⟨fileSize, text, hlog.subset htext, hkeys⟩

/-- What was loaded before is from the file it is listed under. -/
theorem readFrom_of_traced (htraced : Hist (Traced mPathFilter) pre) {keys : List jwks.Jwk}
    (hkeys : .publicKeys path keys ∈ pre) :
    ∃ before, before <+: pre ∧ Touched mPathFilter before path ∧ ReadFrom pre path keys := by
  obtain ⟨before, after, rfl⟩ := List.append_of_mem hkeys
  obtain ⟨htouched, hread⟩ := htraced before _ after rfl
  exact ⟨before, List.prefix_append .., htouched, hread.mono (List.prefix_append ..)⟩

theorem onlyAccepted_of_traced (htraced : Hist (Traced mPathFilter) log)
    (hscans : ScansAccepted mPathFilter log) : Hist (OnlyAccepted mPathFilter) log := by
  intro pre e post hlog
  have hpre : pre <+: log := ⟨e :: post, hlog.symm⟩
  have he := htraced pre e post hlog
  cases e with
  | publicKeys path keys => exact he.1.accepted hpre hscans
  | remove path deleted => exact fun _ => Touched.accepted he hpre hscans
  | callback keyset =>
    cases keyset with
    | none => trivial
    | some keyset =>
      obtain ⟨keys, hkeyset, hkeys⟩ := he
      refine ⟨keys, hkeyset, fun key hkey => ?_⟩
      obtain ⟨path, keys', hloaded, hkey⟩ := hkeys key hkey
      have hpast : Hist (Traced mPathFilter) pre := (hist_append.mp (hlog ▸ htraced)).1
      obtain ⟨before, hbefore, htouched, hread⟩ := readFrom_of_traced hpast hloaded
      exact ⟨path, keys', htouched.accepted (hbefore.trans hpre) hscans, hread, hkey⟩
  | _ => trivial

end Accepted

/-- **Only accepted files provide keys**, in every life of an observer in which the filter accepts every
regular file that a scan finds: the scan at the start, and those after a keyset could not be built. -/
theorem only_accepted_files (system : System jwks) (mPathFilter : Path → Bool) (actions : List Action)
    (hscans : ScansAccepted mPathFilter (JwkDirectoryObserver.run system mPathFilter actions []).2) :
    Hist (OnlyAccepted mPathFilter) (JwkDirectoryObserver.run system mPathFilter actions []).2 :=
  onlyAccepted_of_traced (JwkDirectoryObserver.run_traced system mPathFilter actions) hscans

/-- A keyset of one key. -/
def ES256_snippet : String :=
  "\x7b\"keys\":[\x7b\"crv\":\"P-256\",\"alg\":\"ES256\",\"kty\":\"EC\"," ++
  "\"x\":\"_EHh-Pq84GXDlrIbkcYUGAraDE7SLWvRZJZOgARK4II\"," ++
  "\"y\":\"vz3xxWFNDPyC-ePlmPF7cVqBsGqkQ2grL5K9ZzzrU2E\",\"kid\":\"DEF\"\x7d]\x7d"

/-- What the converters make of this keyset, whose key and handle go by its name, or of a text that is no JSON. -/
def oneKey (isJson : Bool) : JwkSets where
  Jwk := String
  KeysetHandle := String
  accept _ := isJson
  toPublicKeysetHandle _ := .ok "DEF"
  fromPublicKeysetHandle _ := .ok ES256_snippet
  keys _ := ["DEF"]
  dump _ := ES256_snippet

/-- A directory that nobody else changes, with files of one text. -/
def quiet (isJson : Bool) (entries : List Path) (isFile : Path → Bool) (fileSize : Nat) (text : String) :
    System (oneKey isJson) where
  scanDirEntries _ := entries
  pathIsFile _ := isFile
  pathCanRead _ _ := true
  ifstream _ _ := .opened fileSize (.ok text)
  remove _ _ := true
  watcherStart _ := true

/-- A key, and a subdirectory that the filter rejects. -/
def keyAndDirectory : System (oneKey true) :=
  quiet true ["jwks/a.jwk", "jwks/old"] (· == "jwks/a.jwk") 163 ES256_snippet

theorem accepted_key_is_loaded :
    Hist (OnlyAccepted acceptJwkExtOnly) (JwkDirectoryObserver.run keyAndDirectory acceptJwkExtOnly
      [.start, .fileChange .Deleted "jwks/a.jwk"] []).2 := by
  refine only_accepted_files _ _ _ fun entries _ path _ hfile => ?_
  have hlog : (JwkDirectoryObserver.run keyAndDirectory acceptJwkExtOnly
      [.start, .fileChange .Deleted "jwks/a.jwk"] []).2 =
    [.scanDirEntries ["jwks/a.jwk", "jwks/old"], .pathIsFile "jwks/a.jwk" true, .pathCanRead "jwks/a.jwk" true,
      .ifstream "jwks/a.jwk" (.opened 163 (.ok ES256_snippet)),
      .publicKeys "jwks/a.jwk" ["DEF"], .pathIsFile "jwks/old" false, .pathIsFile "jwks/old" false,
      .callback (some "DEF"), .watcherStart true, .callback none] := rfl
  rw [hlog] at hfile
  obtain rfl : path = "jwks/a.jwk" := by simpa using hfile
  decide

/-- The filter rejects both files; the one is deleted when the observer starts, the other is loaded. -/
theorem rejected_files_are_processed :
    ¬ Hist (OnlyAccepted acceptJwkExtOnly) (JwkDirectoryObserver.run
        (quiet false ["jwks/notes.txt"] (fun _ => true) 5 "hello") acceptJwkExtOnly [.start] []).2 ∧
      ¬ Hist (OnlyAccepted acceptJwkExtOnly) (JwkDirectoryObserver.run
        (quiet true ["jwks/keys.txt"] (fun _ => true) 163 ES256_snippet) acceptJwkExtOnly [.start] []).2 := by
  constructor
  · intro h
    have hremove := h [.scanDirEntries ["jwks/notes.txt"], .pathIsFile "jwks/notes.txt" true,
      .pathCanRead "jwks/notes.txt" true, .ifstream "jwks/notes.txt" (.opened 5 (.ok "hello")),
      .pathIsFile "jwks/notes.txt" true] (.remove "jwks/notes.txt" true) [.callback none, .watcherStart true] rfl
    exact absurd (hremove rfl) (by decide)
  · intro h
    have hloaded : acceptJwkExtOnly "jwks/keys.txt" = true := h [.scanDirEntries ["jwks/keys.txt"],
      .pathIsFile "jwks/keys.txt" true, .pathCanRead "jwks/keys.txt" true,
      .ifstream "jwks/keys.txt" (.opened 163 (.ok ES256_snippet))] (.publicKeys "jwks/keys.txt" ["DEF"])
      [.callback (some "DEF"), .watcherStart true] rfl
    exact absurd hloaded (by decide)

end Goldfish.Security
