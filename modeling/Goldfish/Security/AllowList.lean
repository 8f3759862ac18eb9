import Goldfish.Lib.Cache
import Goldfish.Lib.Trace

/-!
# Goldfish.Security.AllowList

The access list of the gRPC services (`AllowList.h`, `AllowList.cpp`): the access-list
document, how it is read (`parseJsonObject`), and the list with the caches in front of
its rules (`CachingAllowList`). `DisableAccess`, the list of a document that is no JSON,
is an `AllowList` without rules.

A string is a sequence of bytes here, one `Char` for each. RE2 is a parameter of the
model: which expressions it compiles, and which strings one of them matches as a whole.
-/

namespace Goldfish.Security

open Goldfish.Lib

/-- `re2::RE2`: `FullMatch text pattern` is asked for patterns that are `ok` only. -/
structure RE2 where
  ok : String → Bool
  FullMatch : String → String → Bool

/-! ### Documents -/

/-- A JSON value; the values of booleans and numbers are never looked at. -/
inductive Json where
  | null
  | boolean
  | number
  | string (value : String)
  | array (elements : List Json)
  | object (members : List (String × Json))

/-- What `get<std::string>` throws for a value that is not a string. -/
inductive JsonException where
  | type_error
deriving DecidableEq

namespace Json

/-- `count` and the indexing that follows it: there is nothing to find but in an object. -/
def find? : Json → String → Option Json
  | object members, key => (members.find? (·.1 == key)).map (·.2)
  | _, _ => none

/-- `get<std::string>()`. -/
def getString : Json → Except JsonException String
  | string value => .ok value
  | _ => .error .type_error

/-- The elements a loop over the value visits: a value that is no container is its own one. -/
def elements : Json → List Json
  | null => []
  | array elements => elements
  | object members => members.map (·.2)
  | value => [value]

end Json

/-! ### Rules -/

/-- No authentication needed, a token needed, a token that names the path needed. -/
inductive AllowGroup where
  | None
  | Green
  | Yellow
deriving DecidableEq

/-- The patterns that were compiled. -/
abbrev AccessList : Type := List String

/-- The patterns of a group and a subject. -/
abbrev SecurityMap : Type := AllowGroup → String → Option AccessList

/-- `map[color][iss] = value`. -/
def assign {α : Type} (map : AllowGroup → String → α) (color : AllowGroup) (iss : String) (value : α) :
    AllowGroup → String → α :=
  fun c i => if c = color ∧ i = iss then value else map c i

/-- The subject of the calls that need no authentication. -/
def UNPROTECTED : String := "__everyone__"

/-- The patterns of a list that can be compiled. -/
def parseAccessList (re : RE2) (regexList : Json) : Except JsonException AccessList := do
  let exprs ← regexList.elements.mapM Json.getString
  return exprs.filter re.ok

/-- `secure[color][iss] = parseAccessList(list)`, if there is such a list. -/
def addAccessList (re : RE2) (secure : SecurityMap) (color : AllowGroup) (iss : String) :
    Option Json → Except JsonException SecurityMap
  | none => return secure
  | some list => do return assign secure color iss (some (← parseAccessList re list))

/-- One turn of the loop over `"allowlist"`. -/
def addEntry (re : RE2) (secure : SecurityMap) (entry : Json) : Except JsonException SecurityMap :=
  match entry.find? "iss" with
  | none => return secure
  | some name =>
    if (entry.find? "allowed").isNone && (entry.find? "protected").isNone then
      return secure
    else do
      let iss ← name.getString
      if iss = UNPROTECTED then
        return secure
      else do
        let secure ← addAccessList re secure .Green iss (entry.find? "allowed")
        addAccessList re secure .Yellow iss (entry.find? "protected")

/-- The entries under `"allowlist"`. -/
def allowEntries (document : Json) : List Json :=
  match document.find? "allowlist" with
  | none => []
  | some entries => entries.elements

/-- The security map of a document that is JSON. -/
def parseSecurityMap (re : RE2) (document : Json) : Except JsonException SecurityMap := do
  let secure ← addAccessList re (fun _ _ => none) .None UNPROTECTED (document.find? "unprotected")
  (allowEntries document).foldlM (addEntry re) secure

/-! ### The list with its caches -/

/-- The paths that a cache holds for a group and a subject. -/
abbrev AllowCache : Type := AllowGroup → String → List String

/-- `rand` holds what `rand()` returns from now on. -/
structure CachingAllowList where
  mSecurityMap : SecurityMap
  mRejectionCache : AllowCache
  mAcceptCache : AllowCache
  rand : Nat → Nat

/-- How many paths a cache has room for. -/
def MAX_URI_CACHE : Nat := 256

namespace CachingAllowList

/-- The cache with the path; in a full set, what `rand()` returned selects the one to remove. -/
def insert (cache : AllowCache) (rand : Nat → Nat) (color : AllowGroup) (iss path : String) : AllowCache :=
  assign cache color iss (boundedInsert MAX_URI_CACHE (rand 0) path (cache color iss))

/-- What is left of `rand` after an `insert`. -/
def randAfter (cache : AllowCache) (rand : Nat → Nat) (color : AllowGroup) (iss : String) : Nat → Nat :=
  if (cache color iss).length ≥ MAX_URI_CACHE then fun n => rand (n + 1) else rand

/-- `insert(mAcceptCache, color, sub, path)`. -/
def insertAccept (list : CachingAllowList) (color : AllowGroup) (sub path : String) : CachingAllowList :=
  { list with
    mAcceptCache := insert list.mAcceptCache list.rand color sub path
    rand := randAfter list.mAcceptCache list.rand color sub }

/-- `insert(mRejectionCache, color, sub, path)`. -/
def insertRejection (list : CachingAllowList) (color : AllowGroup) (sub path : String) : CachingAllowList :=
  { list with
    mRejectionCache := insert list.mRejectionCache list.rand color sub path
    rand := randAfter list.mRejectionCache list.rand color sub }

/-- The private `isAllowed`: the caches first, then the rules of the group and subject. -/
def isAllowedIn (re : RE2) (color : AllowGroup) (sub path : String) : StateM CachingAllowList Bool :=
  fun list =>
    match list.mSecurityMap color sub with
    | none => (false, list)
    | some access =>
      if path ∈ list.mRejectionCache color sub then (false, list)
      else if path ∈ list.mAcceptCache color sub then (true, list)
      else if access.any (re.FullMatch path) then (true, list.insertAccept color sub path)
      else (false, list.insertRejection color sub path)

/-- `requiresAuthentication`, over the cache. -/
def requiresAuthentication (re : RE2) (path : String) : StateM CachingAllowList Bool := do
  return !(← isAllowedIn re .None UNPROTECTED path)

/-- `isAllowed`, over the cache. -/
def isAllowed (re : RE2) (sub path : String) : StateM CachingAllowList Bool :=
  isAllowedIn re .Green sub path

/-- `isProtected`, over the cache. -/
def isProtected (re : RE2) (sub path : String) : StateM CachingAllowList Bool :=
  isAllowedIn re .Yellow sub path

end CachingAllowList

/-- An access list; one without rules is `DisableAccess`. -/
structure AllowList where
  mSource : String
  rules : Option CachingAllowList

/-- `parseJsonObject`; a document that is no JSON is `none`. -/
def parseJsonObject (re : RE2) (rand : Nat → Nat) : Option Json → Except JsonException AllowList
  | none => return ⟨"", none⟩
  | some document => do
    let secure ← parseSecurityMap re document
    return ⟨"", some ⟨secure, fun _ _ => [], fun _ _ => [], rand⟩⟩

namespace AllowList

/-- `setSource`. -/
def setSource (list : AllowList) (src : String) : AllowList := { list with mSource := src }

/-- A virtual call: what `DisableAccess` answers, and the method of `CachingAllowList`. -/
def dispatch (disabled : Bool) (method : StateM CachingAllowList Bool) : StateM AllowList Bool := fun list =>
  match list.rules with
  | none => (disabled, list)
  | some rules => ((method.run rules).1, { list with rules := some (method.run rules).2 })

/-- `requiresAuthentication`. Without rules it is required. -/
def requiresAuthentication (re : RE2) (path : String) : StateM AllowList Bool :=
  dispatch true (CachingAllowList.requiresAuthentication re path)

/-- `isAllowed`. Without rules nothing is. -/
def isAllowed (re : RE2) (sub path : String) : StateM AllowList Bool :=
  dispatch false (CachingAllowList.isAllowed re sub path)

/-- `isProtected`. Without rules nothing is. -/
def isProtected (re : RE2) (sub path : String) : StateM AllowList Bool :=
  dispatch false (CachingAllowList.isProtected re sub path)

/-- Neither allowed nor protected. -/
def isRed (re : RE2) (sub path : String) : StateM AllowList Bool := do
  if ← isAllowed re sub path then
    return false
  else
    return !(← isProtected re sub path)

end AllowList

end Goldfish.Security
