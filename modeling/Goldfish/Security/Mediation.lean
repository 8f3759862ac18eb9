import Goldfish.Security.Caching
import Goldfish.Security.TokenAuth

/-!
# Goldfish.Security.Mediation

**Complete mediation**: a call goes through only if the access-list document lets it
(`complete_mediation`).

`Permitted` states the ways in terms of the document itself, not of the map that was
read from it. `parseSecurityMap_grants` leads from one to the other: whatever the rules
allow, an expression of the document stands behind it. The rest follows the code of the
validators with the rules for computations over a cache.
-/

namespace Goldfish.Security

open Goldfish.Lib

/-! ### What a document grants -/

/-- The list has an expression that RE2 compiles and that matches the path. -/
def Matches (re : RE2) (list : Option Json) (path : String) : Prop :=
  ∃ regexList expr, list = some regexList ∧ .string expr ∈ regexList.elements ∧ re.ok expr = true ∧
    re.FullMatch path expr = true

/-- The path needs no authentication. -/
def Unprotected (re : RE2) (document : Option Json) (path : String) : Prop :=
  ∃ object, document = some object ∧ Matches re (object.find? "unprotected") path

/-- Under the key, an entry for the issuer has an expression for the path. -/
def Grants (re : RE2) (document : Option Json) (key iss path : String) : Prop :=
  ∃ object entry, document = some object ∧ entry ∈ allowEntries object ∧
    entry.find? "iss" = some (.string iss) ∧ iss ≠ UNPROTECTED ∧ Matches re (entry.find? key) path

theorem not_unprotected_none {re : RE2} {path : String} : ¬ Unprotected re none path := by
  intro ⟨_, h, _⟩
  cases h

theorem not_grants_none {re : RE2} {key iss path : String} : ¬ Grants re none key iss path := by
  intro ⟨_, _, h, _⟩
  cases h

/-- What stands behind a positive decision in a group. -/
def Behind (re : RE2) (document : Option Json) : AllowGroup → String → String → Prop
  | .None, _, path => Unprotected re document path
  | .Green, iss, path => Grants re document "allowed" iss path
  | .Yellow, iss, path => Grants re document "protected" iss path

section Parsing

variable {re : RE2} {secure secure' : SecurityMap} {c color : AllowGroup} {iss sub path : String}

theorem string_mem_of_mapM {elements : List Json} {exprs : List String} {expr : String}
    (h : elements.mapM Json.getString = .ok exprs) (hexpr : expr ∈ exprs) : .string expr ∈ elements := by
  induction elements generalizing exprs with
  | nil =>
    simp only [List.mapM_nil, pure_eq_ok] at h
    subst h
    exact absurd hexpr List.not_mem_nil
  | cons element elements ih =>
    simp only [List.mapM_cons, bind_eq_ok, pure_eq_ok] at h
    obtain ⟨first, hfirst, rest, hrest, rfl⟩ := h
    rcases List.mem_cons.mp hexpr with rfl | hexpr
    · cases element <;> cases hfirst
      exact List.mem_cons_self
    · exact List.mem_cons_of_mem _ (ih hrest hexpr)

theorem parseAccessList_matches {list : Json} {access : AccessList} (h : parseAccessList re list = .ok access)
    (hany : access.any (re.FullMatch path) = true) : Matches re (some list) path := by
  simp only [parseAccessList, bind_eq_ok, pure_eq_ok] at h
  obtain ⟨exprs, hexprs, rfl⟩ := h
  obtain ⟨expr, hexpr, hmatch⟩ := List.any_eq_true.mp hany
  obtain ⟨hmem, hok⟩ := List.mem_filter.mp hexpr
  exact ⟨list, expr, rfl, string_mem_of_mapM hexprs hmem, hok, hmatch⟩

/-- A list that is added grants what its expressions match, and nothing else is new. -/
theorem addAccessList_decision {list : Option Json}
    (h : addAccessList re secure color iss list = .ok secure')
    (hdecision : decision re secure' c sub path = true) :
    decision re secure c sub path = true ∨ c = color ∧ sub = iss ∧ Matches re list path := by
  cases list with
  | none =>
    simp only [addAccessList, pure_eq_ok] at h
    exact .inl (h ▸ hdecision)
  | some list =>
    simp only [addAccessList, bind_eq_ok, pure_eq_ok] at h
    obtain ⟨access, haccess, rfl⟩ := h
    by_cases hcs : c = color ∧ sub = iss
    · refine .inr ⟨hcs.1, hcs.2, parseAccessList_matches haccess ?_⟩
      simpa [decision, assign, hcs] using hdecision
    · refine .inl ?_
      simpa only [decision, assign, if_neg hcs] using hdecision

/-- An entry without an issuer, or for the reserved one, changes nothing. -/
theorem addEntry_ignored (re : RE2) (secure : SecurityMap) {entry : Json}
    (h : entry.find? "iss" = none ∨ entry.find? "iss" = some (.string UNPROTECTED)) :
    addEntry re secure entry = .ok secure := by
  rcases h with h | h
  · simp only [addEntry, h]
    rfl
  · simp only [addEntry, h]
    split <;> rfl

theorem addEntry_decision {document : Json} {entry : Json} (hentry : entry ∈ allowEntries document)
    (h : addEntry re secure entry = .ok secure') (hdecision : decision re secure' c sub path = true) :
    decision re secure c sub path = true ∨ Behind re (some document) c sub path := by
  unfold addEntry at h
  split at h
  · exact .inl (pure_eq_ok.mp h ▸ hdecision)
  · rename_i name hname
    split at h
    · exact .inl (pure_eq_ok.mp h ▸ hdecision)
    · obtain ⟨iss, hiss, h⟩ := bind_eq_ok.mp h
      have hname : entry.find? "iss" = some (.string iss) := by
        cases name <;> cases hiss
        exact hname
      split at h
      · exact .inl (pure_eq_ok.mp h ▸ hdecision)
      · rename_i hreserved
        obtain ⟨green, hgreen, hyellow⟩ := bind_eq_ok.mp h
        rcases addAccessList_decision hyellow hdecision with hdecision | ⟨rfl, rfl, hmatches⟩
        · rcases addAccessList_decision hgreen hdecision with hdecision | ⟨rfl, rfl, hmatches⟩
          · exact .inl hdecision
          · exact .inr ⟨document, entry, rfl, hentry, hname, hreserved, hmatches⟩
        · exact .inr ⟨document, entry, rfl, hentry, hname, hreserved, hmatches⟩

/-- Over the entries, the induction is on those that are left; each is one of the document. -/
theorem foldlM_addEntry_decision {document : Json} {entries : List Json}
    (hentries : ∀ entry ∈ entries, entry ∈ allowEntries document)
    (h : entries.foldlM (addEntry re) secure = .ok secure')
    (hdecision : decision re secure' c sub path = true) :
    decision re secure c sub path = true ∨ Behind re (some document) c sub path := by
  induction entries generalizing secure with
  | nil =>
    simp only [List.foldlM_nil, pure_eq_ok] at h
    exact .inl (h ▸ hdecision)
  | cons entry entries ih =>
    simp only [List.foldlM_cons, bind_eq_ok] at h
    obtain ⟨next, hnext, hrest⟩ := h
    rcases ih (fun e he => hentries e (List.mem_cons_of_mem entry he)) hrest with hdecision | hbehind
    · exact addEntry_decision (hentries entry List.mem_cons_self) hnext hdecision
    · exact .inr hbehind

/-- An expression of the document stands behind what its map allows. -/
theorem parseSecurityMap_behind {document : Json} (h : parseSecurityMap re document = .ok secure)
    (hdecision : decision re secure c sub path = true) : Behind re (some document) c sub path := by
  simp only [parseSecurityMap, bind_eq_ok] at h
  obtain ⟨first, hfirst, hentries⟩ := h
  rcases foldlM_addEntry_decision (fun _ he => he) hentries hdecision with hdecision | hbehind
  · rcases addAccessList_decision hfirst hdecision with hnone | ⟨rfl, -, hmatches⟩
    · exact absurd hnone Bool.false_ne_true
    · exact ⟨document, rfl, hmatches⟩
  · exact hbehind

/-- Every positive decision has something in the document behind it. -/
def Founded (re : RE2) (document : Option Json) (secure : SecurityMap) : Prop :=
  ∀ c sub path, decision re secure c sub path = true → Behind re document c sub path

/-- A list that was read is founded; without rules there is no positive decision. -/
theorem parseJsonObject_founded {rand : Nat → Nat} {document : Option Json} {list : AllowList}
    (h : parseJsonObject re rand document = .ok list) : Founded re document list.securityMap := by
  intro c sub path hdecision
  cases document with
  | none =>
    simp only [parseJsonObject, pure_eq_ok] at h
    subst h
    exact absurd hdecision Bool.false_ne_true
  | some document =>
    simp only [parseJsonObject, bind_eq_ok, pure_eq_ok] at h
    obtain ⟨secure, hsecure, rfl⟩ := h
    exact parseSecurityMap_behind hsecure hdecision

/-- A path that is not red for an issuer was granted to it. -/
theorem Founded.of_not_red {document : Option Json} (h : Founded re document secure)
    (hred : ¬ (!decision re secure .Green iss path && !decision re secure .Yellow iss path) = true) :
    Grants re document "allowed" iss path ∨ Grants re document "protected" iss path := by
  cases hgreen : decision re secure .Green iss path with
  | true => exact .inl (h .Green iss path hgreen)
  | false =>
    cases hyellow : decision re secure .Yellow iss path with
    | true => exact .inr (h .Yellow iss path hyellow)
    | false => exact absurd (by rw [hgreen, hyellow]; rfl) hred

end Parsing

/-! ### The ways in -/

/-- Tink decodes only tokens that a key of the keyset has signed. -/
def Tink.ChecksSignatures (tink : Tink) {Key : Type} (keys : tink.KeysetHandle → List Key)
    (signed : Key → String → Prop) : Prop :=
  ∀ keyset verify validator token jwt, tink.getPrimitive keyset = .ok verify →
    tink.verifyAndDecode verify validator token = .ok jwt → ∃ key ∈ keys keyset, signed key token

section Permitted

variable (re : RE2) {tink : Tink} {Key : Type} (keys : tink.KeysetHandle → List Key)
  (signed : Key → String → Prop) (document : Option Json)

/-- The token is one of the keyset's, and its claims are enough for the path. -/
structure Vouched (keyset : tink.KeysetHandle) (token path : String) (jwt : tink.VerifiedJwt) (iss : String) :
    Prop where
  verified : tink.verify keyset token = .ok jwt
  signature : ∃ key ∈ keys keyset, signed key token
  issuer : tink.getIssuer jwt = .ok iss
  granted : Grants re document "allowed" iss path ∨
    Grants re document "protected" iss path ∧ ∃ audiences, tink.getAudiences jwt = .ok audiences ∧ path ∈ audiences

/-- The document lets the call through. -/
inductive Permitted (call : Call tink) : Prop where
  | unprotected {path : String} (hpath : call.auth_metadata.find PATH = some path)
      (hopen : Unprotected re document path)
  | staticToken {path : String} (auth : StaticTokenAuth) (hauth : .staticToken auth ∈ call.mValidators)
      (hpath : call.auth_metadata.find PATH = some path)
      (htoken : call.auth_metadata.find DEFAULT_HEADER = some (DEFAULT_BEARER ++ auth.token))
      (hgranted : Grants re document "allowed" auth.mIssuer path ∨
        Grants re document "protected" auth.mIssuer path)
  | jwt {path header iss : String} {keyset : tink.KeysetHandle} {jwt : tink.VerifiedJwt}
      (auth : JwtTokenAuth tink) (hauth : .jwt auth ∈ call.mValidators)
      (hkeyset : auth.mActiveKeyset = some keyset)
      (hpath : call.auth_metadata.find PATH = some path)
      (hheader : call.auth_metadata.find DEFAULT_HEADER = some header)
      (hvouched : Vouched re keys signed document keyset (actual_token header) path jwt iss)

end Permitted

/-! ### The validators -/

section Validators

variable {re : RE2} {tink : Tink} {Key : Type} {keys : tink.KeysetHandle → List Key}
  {signed : Key → String → Prop} {document : Option Json} {secure : SecurityMap}

theorem gives_get : Gives (AllowList.Kept re secure) get fun _ => True :=
  fun _ h => ⟨trivial, h⟩

/-- A static token opens what its issuer was granted. -/
theorem StaticTokenAuth.isTokenValid_gives (hfounded : Founded re document secure) (auth : StaticTokenAuth)
    (path token : String) :
    Gives (AllowList.Kept re secure) (auth.isTokenValid re path token) fun status => status.code = .OK →
      token = DEFAULT_BEARER ++ auth.token ∧
        (Grants re document "allowed" auth.mIssuer path ∨ Grants re document "protected" auth.mIssuer path) := by
  refine gives_ite (fun _ => gives_pure nofun) fun htoken => ?_
  have htoken : token = DEFAULT_BEARER ++ auth.token := by simpa [canHandleToken, mStaticToken] using htoken
  refine gives_bind (AllowList.isRed_gives auth.mIssuer path) fun red hred => gives_ite (fun _ => ?_) fun hnot => ?_
  · exact gives_bind gives_get fun _ _ => gives_pure nofun
  · exact gives_pure fun _ => ⟨htoken, hfounded.of_not_red (hred ▸ hnot)⟩

/-- The claims of a verified token are enough only if its issuer was granted the path. -/
theorem JwtTokenAuth.checkClaims_gives (hfounded : Founded re document secure) (jwt : tink.VerifiedJwt)
    (path : String) :
    Gives (AllowList.Kept re secure) (checkClaims re jwt path) fun status => status.code = .OK →
      ∃ iss, tink.getIssuer jwt = .ok iss ∧ (Grants re document "allowed" iss path ∨
        Grants re document "protected" iss path ∧
          ∃ audiences, tink.getAudiences jwt = .ok audiences ∧ path ∈ audiences) := by
  unfold checkClaims
  cases hiss : tink.getIssuer jwt with
  | error failure => exact gives_pure nofun
  | ok iss =>
    refine gives_bind (AllowList.isAllowed_gives iss path) fun allowed hallowed => gives_ite (fun h => ?_) fun _ => ?_
    · exact gives_pure fun _ => ⟨iss, rfl, .inl (hfounded .Green iss path (hallowed ▸ h))⟩
    · refine gives_bind (AllowList.isRed_gives iss path) fun red hred => gives_ite (fun _ => ?_) fun hnot => ?_
      · exact gives_bind gives_get fun _ _ => gives_pure nofun
      · cases haudiences : tink.getAudiences jwt with
        | error failure =>
          refine gives_pure fun h => absurd h ?_
          unfold authErrorMissingAud
          split <;> nofun
        | ok audiences =>
          refine gives_ite (fun hpath => gives_pure fun _ => ⟨iss, rfl, ?_⟩) fun _ => gives_pure fun h => absurd h ?_
          · exact (hfounded.of_not_red (hred ▸ hnot)).imp_right fun h => ⟨h, audiences, rfl, hpath⟩
          · unfold authErrorMissingClaim
            split <;> nofun

/-- A token that Tink accepts was signed with a key of the keyset. -/
theorem Tink.ChecksSignatures.of_verify (htink : tink.ChecksSignatures keys signed)
    {keyset : tink.KeysetHandle} {token : String} {jwt : tink.VerifiedJwt}
    (h : tink.verify keyset token = .ok jwt) : ∃ key ∈ keys keyset, signed key token := by
  simp only [Tink.verify, bind_eq_ok] at h
  obtain ⟨verify, hverify, validator, -, hdecode⟩ := h
  exact htink keyset verify validator token jwt hverify hdecode

/-- A JSON web token opens what the active keys vouch for. -/
theorem JwtTokenAuth.isTokenValid_gives (htink : tink.ChecksSignatures keys signed)
    (hfounded : Founded re document secure) (auth : JwtTokenAuth tink) (path token : String) :
    Gives (AllowList.Kept re secure) (auth.isTokenValid re path token) fun status => status.code = .OK →
      ∃ keyset jwt iss, auth.mActiveKeyset = some keyset ∧
        Vouched re keys signed document keyset (actual_token token) path jwt iss := by
  refine gives_ite (fun hinit => gives_pure fun h => ?_) fun _ => gives_ite (fun _ => gives_pure nofun) fun _ => ?_
  · simp [Status.ok, h] at hinit
  · cases hkeyset : auth.mActiveKeyset with
    | none => exact gives_pure nofun
    | some keyset =>
      dsimp only
      cases hverify : tink.verify keyset (actual_token token) with
      | error failure => exact gives_pure fun h => absurd h failure.property
      | ok jwt =>
        refine (checkClaims_gives hfounded jwt path).mono fun status hstatus hok => ?_
        obtain ⟨iss, hiss, hgranted⟩ := hstatus hok
        exact ⟨keyset, jwt, iss, rfl, hverify, htink.of_verify hverify, hiss, hgranted⟩

/-! ### Calls -/

/-- A validator that lets a call through knows why. -/
theorem TokenAuth.isTokenValid_gives (htink : tink.ChecksSignatures keys signed)
    (hfounded : Founded re document secure) {call : Call tink} {validator : TokenAuth tink}
    (hvalidator : validator ∈ call.mValidators) {path token : String}
    (hpath : call.auth_metadata.find PATH = some path)
    (htoken : call.auth_metadata.find DEFAULT_HEADER = some token) :
    Gives (AllowList.Kept re secure) (validator.isTokenValid re path token) fun status => status.code = .OK →
      Permitted re keys signed document call := by
  cases validator with
  | staticToken auth =>
    refine (auth.isTokenValid_gives hfounded path token).mono fun status hstatus hok => ?_
    obtain ⟨rfl, hgranted⟩ := hstatus hok
    exact .staticToken auth hvalidator hpath htoken hgranted
  | jwt auth =>
    refine (auth.isTokenValid_gives htink hfounded path token).mono fun status hstatus hok => ?_
    obtain ⟨keyset, jwt, iss, hkeyset, hvouched⟩ := hstatus hok
    exact .jwt auth hvalidator hkeyset hpath htoken hvouched

theorem AnyTokenAuth.isTokenValid_gives (htink : tink.ChecksSignatures keys signed)
    (hfounded : Founded re document secure) {call : Call tink} (hvalidators : call.mValidators ≠ [])
    {path token : String} (hpath : call.auth_metadata.find PATH = some path)
    (htoken : call.auth_metadata.find DEFAULT_HEADER = some token) :
    Gives (AllowList.Kept re secure) (AnyTokenAuth.isTokenValid re call.mValidators path token)
      fun status => status.code = .OK → Permitted re keys signed document call := by
  refine gives_ite (fun hempty => absurd (List.isEmpty_iff.mp hempty) hvalidators) fun _ => ?_
  cases hfind : call.mValidators.find? (·.canHandleToken token) with
  | none => exact gives_pure nofun
  | some validator =>
    exact TokenAuth.isTokenValid_gives htink hfounded (List.mem_of_find?_eq_some hfind) hpath htoken

theorem AnyTokenAuth.Process_gives (htink : tink.ChecksSignatures keys signed)
    (hfounded : Founded re document secure) {call : Call tink} (hvalidators : call.mValidators ≠ []) :
    Gives (AllowList.Kept re secure) (AnyTokenAuth.Process re call) fun status => status.code = .OK →
      Permitted re keys signed document call := by
  unfold AnyTokenAuth.Process BasicTokenAuth.Process
  cases hpath : call.auth_metadata.find PATH with
  | none => exact gives_pure nofun
  | some path =>
    refine gives_bind (AllowList.requiresAuthentication_gives path) fun requires hrequires =>
      gives_ite (fun hopen => gives_pure fun _ => ?_) fun _ => ?_
    · have hdecision : decision re secure .None UNPROTECTED path = true := by simpa [hrequires] using hopen
      exact .unprotected hpath (hfounded .None UNPROTECTED path hdecision)
    · cases htoken : call.auth_metadata.find DEFAULT_HEADER with
      | none => exact gives_pure nofun
      | some token =>
        refine gives_ite (fun _ => gives_pure nofun) fun _ => ?_
        exact AnyTokenAuth.isTokenValid_gives htink hfounded hvalidators hpath htoken

end Validators

/-! ### A sample -/

/-- Tink with signatures in plain text: the last part of a token is the key. -/
def plainTink : Tink where
  KeysetHandle := List String
  JwtPublicKeyVerify := List String
  JwtValidator := Unit
  VerifiedJwt := Unit
  getPrimitive keyset :=
    if keyset.isEmpty then .error ⟨⟨.INVALID_ARGUMENT, "empty keyset"⟩, by decide⟩ else .ok keyset
  validator := .ok ()
  verifyAndDecode verify _ token :=
    match (token.splitOn ".").getLast? with
    | none => .error ⟨⟨.INVALID_ARGUMENT, "invalid token"⟩, by decide⟩
    | some key => if key ∈ verify then .ok () else .error ⟨⟨.INVALID_ARGUMENT, "invalid signature"⟩, by decide⟩
  getIssuer _ := .ok "studio"
  getAudiences _ := .ok ["/boot"]

/-- A token whose last part is the key. -/
def plainSigned (key token : String) : Prop := (token.splitOn ".").getLast? = some key

theorem plainTink_checks : plainTink.ChecksSignatures id plainSigned := by
  intro (keyset : List String) (verify : List String) _ token _ hprimitive hdecode
  have hverify : verify = keyset := by
    simp only [plainTink] at hprimitive
    split at hprimitive
    · cases hprimitive
    · exact (Except.ok.inj hprimitive).symm
  simp only [plainTink] at hdecode
  split at hdecode
  · cases hdecode
  · rename_i key hkey
    split at hdecode
    · exact ⟨key, hverify ▸ ‹key ∈ verify›, hkey⟩
    · cases hdecode

/-- A static token, and a token that has no keys yet. -/
def sampleValidators : List (TokenAuth plainTink) :=
  [.staticToken ⟨"secret", "studio"⟩, .jwt ⟨OkStatus, none, "jwks"⟩]

/-- A path for everyone, a protected one with the static token, and one that is not on the list. -/
def sampleCalls : List (Call plainTink) :=
  [⟨sampleValidators, [(PATH, "/health")]⟩,
    ⟨sampleValidators, [(PATH, "/boot"), (DEFAULT_HEADER, "Bearer secret")]⟩,
    ⟨sampleValidators, [(PATH, "/kill"), (DEFAULT_HEADER, "Bearer secret")]⟩]

/-- What the calls are answered. -/
def sampleAnswers : List Status :=
  ((sampleCalls.mapM (AnyTokenAuth.Process literal)).run
    (AllowList.setSource ⟨"", some ⟨sampleMap, fun _ _ => [], fun _ _ => [], id⟩⟩ "access.json")).1

/-! ### Every sequence of calls -/

/-- **Complete mediation.** Whatever calls came before, and with whatever keys, a call is answered `OK` only
if the document permits it. An entry without an issuer or for the reserved one grants nothing, and neither
does a document that is no JSON. -/
theorem complete_mediation (re : RE2) (tink : Tink) {Key : Type} (keys : tink.KeysetHandle → List Key)
    (signed : Key → String → Prop) (htink : tink.ChecksSignatures keys signed) (rand : Nat → Nat)
    (document : Option Json) (list : AllowList) (hlist : parseJsonObject re rand document = .ok list)
    (source : String) (calls : List (Call tink)) (hvalidators : ∀ call ∈ calls, call.mValidators ≠ []) :
    List.Forall₂ (fun call status => status.code = .OK → Permitted re keys signed document call) calls
        ((calls.mapM (AnyTokenAuth.Process re)).run (list.setSource source)).1 ∧
      (∀ secure entry, entry.find? "iss" = none ∨ entry.find? "iss" = some (.string UNPROTECTED) →
        addEntry re secure entry = .ok secure) ∧
      ∀ call, ¬ Permitted re keys signed none call := by
  refine ⟨?_, fun secure entry h => addEntry_ignored re secure h, fun call h => ?_⟩
  · have hkept := (parseJsonObject_kept hlist).setSource source
    have hprocess := fun call hcall =>
      AnyTokenAuth.Process_gives htink (parseJsonObject_founded hlist) (hvalidators call hcall)
    exact (gives_mapM hprocess _ hkept).1
  · cases h with
    | unprotected _ hopen => exact not_unprotected_none hopen
    | staticToken _ _ _ _ hgranted => exact hgranted.elim not_grants_none not_grants_none
    | jwt _ _ _ _ _ hvouched => exact hvouched.granted.elim not_grants_none fun h => not_grants_none h.1

theorem sample_mediated : sampleAnswers.map (·.code) = [.OK, .OK, .PERMISSION_DENIED] ∧
    Permitted literal id plainSigned (some sample)
      ⟨sampleValidators, [(PATH, "/boot"), (DEFAULT_HEADER, "Bearer secret")]⟩ := by
  have hmediated := complete_mediation literal plainTink id plainSigned plainTink_checks id (some sample) _
    (parse_sample id) "access.json" sampleCalls (by simp [sampleCalls, sampleValidators])
  exact ⟨by decide, (List.forall₂_iff_get.mp hmediated.1).2 1 (by decide) (by decide) (by decide)⟩

end Goldfish.Security
