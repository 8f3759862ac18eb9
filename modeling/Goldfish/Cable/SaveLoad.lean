import Goldfish.Archive.Codec

/-!
# Goldfish.Cable.SaveLoad

**Plugs in a snapshot** (`cable.h`, `cable.cpp`). A plug that supports loading is saved as
its type id followed by whatever it writes itself; it is loaded by the loader that is
registered for the type id.

What a plug writes and what a loader makes of it is code of the plug (`PlugType`), and is
left open.
-/

namespace Goldfish.Cable

open Goldfish.Archive

/-- `PlugOrSocket`: a loader returns a plug, or gives the socket back. -/
inductive PlugOrSocket (P S : Type)
  | plug (p : P)
  | socket (s : S)

/-- The members of `IPlug` for snapshots, and the loaders that are registered, over the
types of plugs and of sockets. -/
structure PlugType (P S : Type) where
  supportsLoadingFromSnapshot : P → Bool
  getSnapshotTypeId : P → Bytes
  /-- Returns whether it succeeded, and what it wrote. -/
  saveStateToSnapshot : P → Bool × Bytes
  /-- `getLoaders().find`. -/
  loaders : Bytes → Option (S → Bytes → PlugOrSocket P S × Bytes)

variable {P S : Type} (plugType : PlugType P S)

/-- `savePlugToSnapshot`. -/
def savePlugToSnapshot (plug : P) : Bool × Bytes :=
  if ¬ plugType.supportsLoadingFromSnapshot plug then (false, [])
  else
    let typeId := plugType.getSnapshotTypeId plug
    if typeId = [] then (false, [])
    else
      let (ok, state) := plugType.saveStateToSnapshot plug
      (ok, putString typeId ++ state)

/-- `loadPlugFromSnapshot`. -/
def loadPlugFromSnapshot (socket : S) (r : Bytes) : PlugOrSocket P S × Bytes :=
  let (typeId, r) := getString r
  if typeId = [] then (.socket socket, r)
  else
    match plugType.loaders typeId with
    | none => (.socket socket, r)
    | some loader => loader socket r

variable {plugType} {plug : P}

/-- A plug that was saved is handed to the loader of its type. -/
theorem loadPlugFromSnapshot_saved {bytes : Bytes}
    (h : savePlugToSnapshot plugType plug = (true, bytes))
    (hid : (plugType.getSnapshotTypeId plug).length < 2 ^ 64) (socket : S) (rest : Bytes) :
    loadPlugFromSnapshot plugType socket (bytes ++ rest) =
      match plugType.loaders (plugType.getSnapshotTypeId plug) with
      | none => (.socket socket, (plugType.saveStateToSnapshot plug).2 ++ rest)
      | some loader => loader socket ((plugType.saveStateToSnapshot plug).2 ++ rest) := by
  unfold savePlugToSnapshot at h
  split at h
  · simp at h
  · dsimp only at h
    split at h
    · simp at h
    · next hne =>
      obtain ⟨-, rfl⟩ := Prod.mk.inj h
      unfold loadPlugFromSnapshot
      rw [List.append_assoc, getString_put hid]
      simp only [hne, if_false]

end Goldfish.Cable
