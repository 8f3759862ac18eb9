import Goldfish.Lib.Effects
import Goldfish.Security.TokenAuth

/-!
# Goldfish.Security.JwkObserver

The directory of JSON web keys (`JwkDirectoryObserver.cpp`, `JwkKeyLoader.cpp`): it is
scanned at the start and whenever a keyset cannot be built, and followed through the
events of a `FileSystemWatcher` in between. What is loaded is handed to a callback as
one keyset.

The observer calls on a `System`, whose answers are arbitrary: each is a function of
everything that has happened in the run so far, so files may come, change and go at any
time. `Event` records the calls with their answers, the callback included. The JSON
library and Tink's converters are a parameter of the model (`JwkSets`).
-/

namespace Goldfish.Security

open Goldfish.Lib

/-- The path of a file. -/
abbrev Path : Type := String

/-- JSON texts and keysets. `keys` are those of a text that Tink has written, and `dump` is the text of the
JSON object that has only these keys. -/
structure JwkSets where
  Jwk : Type
  KeysetHandle : Type
  accept : String → Bool
  toPublicKeysetHandle : String → StatusOr KeysetHandle
  fromPublicKeysetHandle : KeysetHandle → StatusOr String
  keys : String → List Jwk
  dump : List Jwk → String

/-- A file that is opened at its end: what `tellg` says, and what can be read, or why it cannot. -/
inductive Stream where
  | failed
  | opened (fileSize : Nat) (contents : Except String String)

/-- A call of `System` or of the watcher with its answer, a change of the loaded keys, a callback. -/
inductive Event (jwks : JwkSets) where
  | scanDirEntries (answer : List Path)
  | pathIsFile (path : Path) (answer : Bool)
  | pathCanRead (path : Path) (answer : Bool)
  | ifstream (path : Path) (answer : Stream)
  | remove (path : Path) (answer : Bool)
  | watcherStart (answer : Bool)
  | watcherStop
  | publicKeys (path : Path) (keys : List jwks.Jwk)
  | callback (keyset : Option jwks.KeysetHandle)

/-- Any behaviour of the host: the answers, each after what happened before. -/
structure System (jwks : JwkSets) where
  scanDirEntries : List (Event jwks) → List Path
  pathIsFile : List (Event jwks) → Path → Bool
  pathCanRead : List (Event jwks) → Path → Bool
  ifstream : List (Event jwks) → Path → Stream
  remove : List (Event jwks) → Path → Bool
  /-- False also if there is no watcher. -/
  watcherStart : List (Event jwks) → Bool

/-- A program of the observer; none of them fails. -/
abbrev Watching (jwks : JwkSets) := Prog (Event jwks) Empty

variable {jwks : JwkSets}

/-! ### Calls -/

namespace System

/-- `scanDirEntries`, which is logged. -/
def callScanDirEntries (system : System jwks) : Watching jwks (List Path) :=
  .ask system.scanDirEntries .scanDirEntries

/-- `pathIsFile`, which is logged. -/
def callPathIsFile (system : System jwks) (path : Path) : Watching jwks Bool :=
  .ask (system.pathIsFile · path) (.pathIsFile path)

/-- `pathCanRead`, which is logged. -/
def callPathCanRead (system : System jwks) (path : Path) : Watching jwks Bool :=
  .ask (system.pathCanRead · path) (.pathCanRead path)

/-- The constructor of `std::ifstream`, which is logged. -/
def callIfstream (system : System jwks) (path : Path) : Watching jwks Stream :=
  .ask (system.ifstream · path) (.ifstream path)

/-- `deleteFile`: only a regular file is removed. -/
def deleteFile (system : System jwks) (path : Path) : Watching jwks Bool := do
  if !(← system.callPathIsFile path) then
    return false
  else
    .ask (system.remove · path) (.remove path)

end System

/-- Something happens that is not answered. -/
def tell (event : Event jwks) : Watching jwks Unit := .ask (fun _ => ()) fun _ => event

/-! ### Files -/

/-- `absl::NotFoundError`. -/
def NotFoundError (message : String) : Failure := ⟨⟨.NOT_FOUND, message⟩, nofun⟩

/-- `absl::UnavailableError`. -/
def UnavailableError (message : String) : Failure := ⟨⟨.UNAVAILABLE, message⟩, nofun⟩

/-- `absl::PermissionDeniedError`. -/
def RefusedError (message : String) : Failure := ⟨PermissionDeniedError message, nofun⟩

/-- `absl::InternalError`. -/
def InternalError (message : String) : Failure := ⟨⟨.INTERNAL, message⟩, nofun⟩

/-- Larger files are refused. -/
def MAX_JWK_SIZE : Nat := 8 * 1024

/-- What is read from the stream. -/
def Stream.read (fname : Path) : Stream → StatusOr String
  | failed => .error (UnavailableError (fname ++ " failed to open."))
  | opened fileSize contents =>
    if fileSize = 0 then
      .error (UnavailableError (fname ++ " is empty"))
    else if fileSize > MAX_JWK_SIZE then
      .error (RefusedError ("Refusing to read " ++ fname ++ " of size " ++ toString fileSize ++
        ", which is over our max of " ++ toString MAX_JWK_SIZE ++ "."))
    else
      match contents with
      | .error errno => .error (InternalError ("Failure reading " ++ fname ++ " due to: " ++ errno))
      | .ok contents => .ok contents

/-- `readFile`. -/
def readFile (system : System jwks) (fname : Path) : Watching jwks (StatusOr String) := do
  if !(← system.callPathIsFile fname) then
    return .error (NotFoundError ("The path: " ++ fname ++ " does not exist."))
  else if !(← system.callPathCanRead fname) then
    return .error (NotFoundError ("The path: " ++ fname ++ " is not readable."))
  else do
    let stream ← system.callIfstream fname
    return stream.read fname

/-- The keys in the text of a file. -/
def loadKeys (jwks : JwkSets) (toAdd : Path) (jsonString : String) : StatusOr (List jwks.Jwk) :=
  if !jwks.accept jsonString then
    .error (InternalError (toAdd ++ " contains: " ++ jsonString ++ ", an invalid json object."))
  else
    match jwks.toPublicKeysetHandle jsonString with
    | .error _ => .error (InternalError (toAdd ++ " does not contain a valid jwk"))
    | .ok handle =>
      match jwks.fromPublicKeysetHandle handle with
      | .error _ => .error (InternalError ("Unable to convert key handle to json for file: " ++ toAdd))
      | .ok jsonSnippet => .ok (jwks.keys jsonSnippet)

/-! ### The loader -/

/-- The keys of each file. -/
structure JwkKeyLoader (jwks : JwkSets) where
  mPublicKeys : List (Path × List jwks.Jwk)

namespace JwkKeyLoader

/-- `clear`. -/
def clear (_loader : JwkKeyLoader jwks) : JwkKeyLoader jwks := ⟨[]⟩

/-- `empty`. -/
def empty (loader : JwkKeyLoader jwks) : Bool := loader.mPublicKeys.isEmpty

/-- The keys of a path are erased. -/
def erase (loader : JwkKeyLoader jwks) (path : Path) : JwkKeyLoader jwks :=
  ⟨loader.mPublicKeys.filter (·.1 != path)⟩

/-- `mPublicKeys[path] = keys`. -/
def assign (loader : JwkKeyLoader jwks) (path : Path) (keys : List jwks.Jwk) : JwkKeyLoader jwks :=
  ⟨(path, keys) :: (loader.erase path).mPublicKeys⟩

/-- `add`: the keys of a file, which replace the ones it had. -/
def add (system : System jwks) (loader : JwkKeyLoader jwks) (toAdd : Path) :
    Watching jwks (Status × JwkKeyLoader jwks) := do
  match (← readFile system toAdd) with
  | .error failure => return (failure.val, loader)
  | .ok jsonString =>
    match loadKeys jwks toAdd jsonString with
    | .error failure => return (failure.val, loader)
    | .ok keys => do
      tell (.publicKeys toAdd keys)
      return (OkStatus, loader.assign toAdd keys)

/-- There is at least one attempt, and at most `retries`; the wait between them is not modelled. -/
def addWithRetryForEmpty (system : System jwks) (loader : JwkKeyLoader jwks) (toAdd : Path) :
    Nat → Watching jwks (Status × JwkKeyLoader jwks)
  | 0 => add system loader toAdd
  | retries + 1 => do
    let added ← add system loader toAdd
    if added.1.code = .UNAVAILABLE ∧ retries > 0 then
      addWithRetryForEmpty system added.2 toAdd retries
    else
      return added

/-- `remove`. -/
def remove (loader : JwkKeyLoader jwks) (toRemove : Path) : Status × JwkKeyLoader jwks :=
  if loader.mPublicKeys.any (·.1 == toRemove) then
    (OkStatus, loader.erase toRemove)
  else
    (⟨.NOT_FOUND, "Public key with path " ++ toRemove ++ ", does not exist"⟩, loader)

/-- The keys of all files, in the order of the map. -/
def activeKeys (loader : JwkKeyLoader jwks) : List jwks.Jwk := loader.mPublicKeys.flatMap (·.2)

/-- `activeKeySet`. -/
def activeKeySet (loader : JwkKeyLoader jwks) : StatusOr jwks.KeysetHandle :=
  match jwks.toPublicKeysetHandle (jwks.dump loader.activeKeys) with
  | .error failure => .error (InternalError failure.val.message)
  | .ok handle => .ok handle

end JwkKeyLoader

/-! ### The observer -/

/-- `JwkDirectoryObserver`. -/
structure JwkDirectoryObserver (jwks : JwkSets) where
  mRunning : Bool
  mLoadedKeys : JwkKeyLoader jwks

/-- `WatcherChangeType`. -/
inductive WatcherChangeType where
  | Created
  | Changed
  | Deleted
deriving DecidableEq

/-- The filter of an observer for which none is given. -/
def acceptJwkExtOnly (path : Path) : Bool := ".jwk".toList.isSuffixOf path.toList

/-- The callback gets the keys, or that there are none. -/
def notify (loader : JwkKeyLoader jwks) : Watching jwks Status :=
  if loader.empty then do
    tell (.callback none)
    return OkStatus
  else
    match loader.activeKeySet with
    | .error failure => return failure.val
    | .ok keyset => do
      tell (.callback (some keyset))
      return OkStatus

/-- One turn of the loop over the directory: the filter is not asked here. -/
def scanEntry (system : System jwks) (loader : JwkKeyLoader jwks) (strPath : Path) :
    Watching jwks (JwkKeyLoader jwks) := do
  let added ← loader.add system strPath
  if !added.1.ok then do
    let _ ← system.deleteFile strPath
    return added.2
  else
    return added.2

/-- `scanJwkPath`: all the keys are loaded anew. -/
def scanJwkPath (system : System jwks) (loader : JwkKeyLoader jwks) : Watching jwks (JwkKeyLoader jwks) := do
  let entries ← system.callScanDirEntries
  entries.foldlM (scanEntry system) loader.clear

/-- `notifyKeysetUpdated`. Keys that cannot be used lead to a scan. -/
def notifyKeysetUpdated (system : System jwks) (loader : JwkKeyLoader jwks) :
    Watching jwks (JwkKeyLoader jwks) := do
  let notified ← notify loader
  if !notified.ok then do
    let rescanned ← scanJwkPath system loader
    let _ ← notify rescanned
    return rescanned
  else
    return loader

/-- A file was created or changed: one that has no keys is deleted. -/
def fileAdded (system : System jwks) (loader : JwkKeyLoader jwks) (path : Path) :
    Watching jwks (Status × JwkKeyLoader jwks) := do
  let added ← loader.addWithRetryForEmpty system path 8
  if !added.1.ok then do
    let _ ← system.deleteFile path
    return added
  else
    return added

/-- The `switch` over the change. -/
def applyChange (system : System jwks) (loader : JwkKeyLoader jwks) (path : Path) :
    WatcherChangeType → Watching jwks (Status × JwkKeyLoader jwks)
  | .Created => fileAdded system loader path
  | .Changed => fileAdded system loader path
  | .Deleted => return loader.remove path

/-- `fileChangeHandler`. -/
def fileChangeHandler (system : System jwks) (mPathFilter : Path → Bool) (loader : JwkKeyLoader jwks)
    (change : WatcherChangeType) (path : Path) : Watching jwks (JwkKeyLoader jwks) :=
  if !mPathFilter path then
    return loader
  else do
    let changed ← applyChange system loader path change
    if !changed.1.ok then
      return changed.2
    else
      notifyKeysetUpdated system changed.2

namespace JwkDirectoryObserver

/-- An observer that was not started. -/
def initial : JwkDirectoryObserver jwks := ⟨false, ⟨[]⟩⟩

/-- `start`: the directory is scanned before the watcher runs. -/
def start (system : System jwks) (observer : JwkDirectoryObserver jwks) :
    Watching jwks (Bool × JwkDirectoryObserver jwks) :=
  if observer.mRunning then
    return (false, observer)
  else do
    let scanned ← scanJwkPath system observer.mLoadedKeys
    let loaded ← notifyKeysetUpdated system scanned
    let started ← .ask system.watcherStart .watcherStart
    return (started, ⟨true, loaded⟩)

/-- An observer that runs is marked as stopped; one that does not has its watcher stopped. -/
def stop (observer : JwkDirectoryObserver jwks) : Watching jwks (JwkDirectoryObserver jwks) :=
  if observer.mRunning then
    return ⟨false, observer.mLoadedKeys.clear⟩
  else do
    tell .watcherStop
    return ⟨false, observer.mLoadedKeys.clear⟩

end JwkDirectoryObserver

/-- What happens to an observer. -/
inductive Action where
  | start
  | stop
  | fileChange (change : WatcherChangeType) (path : Path)
deriving DecidableEq

namespace JwkDirectoryObserver

/-- One step of the observer. -/
def step (system : System jwks) (mPathFilter : Path → Bool) (observer : JwkDirectoryObserver jwks) :
    Action → Watching jwks (JwkDirectoryObserver jwks)
  | .start => do
    let started ← observer.start system
    return started.2
  | .stop => observer.stop
  | .fileChange change path => do
    let loaded ← fileChangeHandler system mPathFilter observer.mLoadedKeys change path
    return { observer with mLoadedKeys := loaded }

/-- The life of an observer. -/
def run (system : System jwks) (mPathFilter : Path → Bool) (actions : List Action) :
    Watching jwks (JwkDirectoryObserver jwks) :=
  actions.foldlM (step system mPathFilter) .initial

end JwkDirectoryObserver

end Goldfish.Security
