import Goldfish.Security.Mediation

/-!
# Goldfish.Security.Validators

**Which validator decides.** `AnyTokenAuth` is said to accept a token if one of its
validators does. It asks the first one that can handle the token, and what that one says
is the answer: a token that a later validator would accept is refused if an earlier one
can handle it and does not (`first_validator_decides`).

`JwtTokenAuth` cuts seven characters off the header without looking at them. A header
that does not start with `Bearer ` is one that no static token answers to, so it is
refused exactly if the first `JwtTokenAuth` does not accept what is left of it
(`bearer_required_iff`).
-/

namespace Goldfish.Security

open Goldfish.Lib

/-! ### Any validators -/

/-- A `BasicTokenAuth`, over the state that its methods share with others. -/
structure Validator (σ : Type) where
  name : String
  canHandleToken : String → Bool
  isTokenValid : String → String → StateM σ Status

/-- `AnyTokenAuth::isTokenValid`. -/
def isTokenValid {σ : Type} (mValidators : List (Validator σ)) (path token : String) : StateM σ Status :=
  if mValidators.isEmpty then
    return OkStatus
  else
    match mValidators.find? (·.canHandleToken token) with
    | some validator => validator.isTokenValid path token
    | none => return ⟨.INTERNAL, "FATAL: No validator that can handle token. This should not happen, please " ++
        "file a bug including this information: Validation failure `validators: " ++
        mValidators.foldl (fun str validator => str ++ ", " ++ validator.name) "" ++ "`, `path: " ++ path ++
        "`, `token: " ++ token ++ "`"⟩

/-- The validators of the services. -/
def TokenAuth.validator {tink : Tink} (re : RE2) (auth : TokenAuth tink) : Validator AllowList where
  name := auth.name
  canHandleToken := auth.canHandleToken
  isTokenValid := auth.isTokenValid re

theorem anyTokenAuth_eq {tink : Tink} (re : RE2) (mValidators : List (TokenAuth tink)) (path token : String) :
    AnyTokenAuth.isTokenValid re mValidators path token =
      isTokenValid (mValidators.map (TokenAuth.validator re)) path token := by
  unfold AnyTokenAuth.isTokenValid isTokenValid
  rw [List.isEmpty_map, List.find?_map, List.foldl_map]
  split
  · rfl
  · unfold Function.comp TokenAuth.validator
    cases mValidators.find? (·.canHandleToken token) <;> rfl

section FirstValidator

variable {σ : Type} (s : σ) (path token : String)

/-- The validator can handle the token, and accepts it. -/
structure Validator.Accepts (validator : Validator σ) : Prop where
  handles : validator.canHandleToken token = true
  valid : ((validator.isTokenValid path token).run s).1.ok = true

/-- The validator can handle the token, and refuses it. -/
structure Validator.Refuses (validator : Validator σ) : Prop where
  handles : validator.canHandleToken token = true
  invalid : ((validator.isTokenValid path token).run s).1.ok = false

/-- No validator that can handle the token and refuses it stands before all that can handle it, one of which
accepts it. -/
def NoneRefusesFirst (mValidators : List (Validator σ)) : Prop :=
  ∀ pre validator post, mValidators = pre ++ validator :: post → (∀ w ∈ pre, w.canHandleToken token = false) →
    validator.Refuses s path token → ∀ w ∈ post, ¬ w.Accepts s path token

variable {s path token} {mValidators : List (Validator σ)} {validator : Validator σ}

theorem Validator.accepts_or_refuses (h : validator.canHandleToken token = true) :
    validator.Accepts s path token ∨ validator.Refuses s path token := by
  cases hvalid : ((validator.isTokenValid path token).run s).1.ok with
  | true => exact .inl ⟨h, hvalid⟩
  | false => exact .inr ⟨h, hvalid⟩

theorem Validator.Accepts.not_refuses (h : validator.Accepts s path token) :
    ¬ validator.Refuses s path token := by
  intro hrefuses
  have hvalid := h.valid
  rw [hrefuses.invalid] at hvalid
  exact Bool.false_ne_true hvalid

/-- The answer of the first validator that can handle the token. -/
theorem isTokenValid_first {pre post : List (Validator σ)} (hpre : ∀ w ∈ pre, w.canHandleToken token = false)
    (h : validator.canHandleToken token = true) :
    isTokenValid (pre ++ validator :: post) path token = validator.isTokenValid path token := by
  have hfind : (pre ++ validator :: post).find? (·.canHandleToken token) = some validator :=
    List.find?_eq_some_iff_append.mpr ⟨h, pre, post, rfl, fun w hw => by simp [hpre w hw]⟩
  unfold isTokenValid
  rw [if_neg (by simp), hfind]

/-- A list that has a validator for the token has a first one. -/
theorem exists_first (hmem : validator ∈ mValidators) (h : validator.canHandleToken token = true) :
    ∃ pre first post, mValidators = pre ++ first :: post ∧ (∀ w ∈ pre, w.canHandleToken token = false) ∧
      first.canHandleToken token = true := by
  cases hfind : mValidators.find? (·.canHandleToken token) with
  | none => exact absurd h (by simpa using List.find?_eq_none.mp hfind validator hmem)
  | some first =>
    obtain ⟨hfirst, pre, post, hsplit, hpre⟩ := List.find?_eq_some_iff_append.mp hfind
    exact ⟨pre, first, post, hsplit, fun w hw => by simpa using hpre w hw, hfirst⟩

/-- An answer `OK` is one of a validator. -/
theorem exists_accepts (hvalidators : mValidators ≠ [])
    (h : ((isTokenValid mValidators path token).run s).1.ok = true) :
    ∃ w ∈ mValidators, w.Accepts s path token := by
  unfold isTokenValid at h
  rw [if_neg (by simpa using hvalidators)] at h
  cases hfind : mValidators.find? (·.canHandleToken token) with
  | none =>
    rw [hfind] at h
    cases h
  | some first =>
    rw [hfind] at h
    have hhandles : first.canHandleToken token = true := by simpa using List.find?_some hfind
    exact ⟨first, List.mem_of_find?_eq_some hfind, hhandles, h⟩

theorem accepts_iff_first (hvalidators : mValidators ≠ []) :
    (((isTokenValid mValidators path token).run s).1.ok = true ↔ ∃ w ∈ mValidators, w.Accepts s path token) ↔
      NoneRefusesFirst s path token mValidators := by
  constructor
  · rintro h pre validator post rfl hpre hrefuses w hw haccepts
    have hok := h.mpr ⟨w, List.mem_append_right pre (List.mem_cons_of_mem validator hw), haccepts⟩
    rw [isTokenValid_first hpre hrefuses.handles] at hok
    exact Validator.Accepts.not_refuses ⟨hrefuses.handles, hok⟩ hrefuses
  · intro h
    refine ⟨exists_accepts hvalidators, fun ⟨w, hw, haccepts⟩ => ?_⟩
    obtain ⟨pre, first, post, rfl, hpre, hfirst⟩ := exists_first hw haccepts.handles
    rw [isTokenValid_first hpre hfirst]
    have hanswer : first.Accepts s path token ∨ first.Refuses s path token := Validator.accepts_or_refuses hfirst
    rcases hanswer with haccepted | hrefused
    · exact haccepted.valid
    · rcases List.mem_append.mp hw with hw | hw
      · exact absurd haccepts.handles (by simp [hpre w hw])
      · rcases List.mem_cons.mp hw with rfl | hw
        · exact absurd hrefused haccepts.not_refuses
        · exact absurd haccepts (h pre first post rfl hpre hrefused w hw)

/-- In another order the answer is another one, unless the validators that can handle the token agree. -/
theorem order_irrelevant_iff (hvalidators : mValidators ≠ []) :
    (∀ order : List (Validator σ), order.Perm mValidators →
        ((isTokenValid order path token).run s).1.ok = ((isTokenValid mValidators path token).run s).1.ok) ↔
      ∀ v ∈ mValidators, ∀ w ∈ mValidators, v.Accepts s path token → ¬ w.Refuses s path token := by
  have hfront : ∀ v ∈ mValidators, v.canHandleToken token = true → ∃ rest : List (Validator σ),
      (v :: rest).Perm mValidators ∧ isTokenValid (v :: rest) path token = v.isTokenValid path token := by
    intro v hv hhandles
    obtain ⟨pre, post, rfl⟩ := List.append_of_mem hv
    have hnone : ∀ w ∈ ([] : List (Validator σ)), w.canHandleToken token = false := by simp
    exact ⟨pre ++ post, List.perm_middle.symm, isTokenValid_first hnone hhandles⟩
  constructor
  · intro h v hv w hw haccepts hrefuses
    obtain ⟨rest, hperm, hanswer⟩ := hfront v hv haccepts.handles
    obtain ⟨rest', hperm', hanswer'⟩ := hfront w hw hrefuses.handles
    have hsame := (h _ hperm).trans (h _ hperm').symm
    rw [hanswer, hanswer', haccepts.valid, hrefuses.invalid] at hsame
    exact Bool.noConfusion hsame
  · intro h order hperm
    -- where all agree, a list accepts exactly if one of its validators does
    have hagree : ∀ {vs : List (Validator σ)}, vs.Perm mValidators →
        (((isTokenValid vs path token).run s).1.ok = true ↔ ∃ w ∈ mValidators, w.Accepts s path token) := by
      intro vs hvs
      have hne : vs ≠ [] := fun hnil => hvalidators (by simpa [hnil] using hvs)
      have hfirst : NoneRefusesFirst s path token vs := by
        rintro pre v post rfl - hrefuses w hw haccepts
        exact h w (hvs.subset (List.mem_append_right pre (List.mem_cons_of_mem v hw))) v
          (hvs.subset (List.mem_append_right pre List.mem_cons_self)) haccepts hrefuses
      simpa only [hvs.mem_iff] using (accepts_iff_first hne).mpr hfirst
    rw [Bool.eq_iff_iff, hagree hperm, hagree (List.Perm.refl _)]

end FirstValidator

/-- **The first validator decides.** Whether a token is accepted exactly if some validator that can handle it
accepts it depends on the first one that can: it must not refuse what a later one accepts. And the order
of the validators makes no difference exactly if all that can handle the token agree. -/
theorem first_validator_decides {σ : Type} (mValidators : List (Validator σ)) (hvalidators : mValidators ≠ [])
    (s : σ) (path token : String) :
    ((((isTokenValid mValidators path token).run s).1.ok = true ↔ ∃ w ∈ mValidators, w.Accepts s path token) ↔
      NoneRefusesFirst s path token mValidators) ∧
    ((∀ order : List (Validator σ), order.Perm mValidators →
        ((isTokenValid order path token).run s).1.ok = ((isTokenValid mValidators path token).run s).1.ok) ↔
      ∀ v ∈ mValidators, ∀ w ∈ mValidators, v.Accepts s path token → ¬ w.Refuses s path token) :=
  ⟨accepts_iff_first hvalidators, order_irrelevant_iff hvalidators⟩

/-- The list of the sample, as it is read. -/
def sampleList : AllowList := ⟨"access.json", some ⟨sampleMap, fun _ _ => [], fun _ _ => [], id⟩⟩

/-- A static token with two dots in it, as a JSON web token has them. -/
def dottedToken : Validator AllowList :=
  TokenAuth.validator literal (.staticToken ⟨"a.b.c", "studio"⟩ : TokenAuth plainTink)

/-- A JSON web token without a key. -/
def noKeys : Validator AllowList :=
  TokenAuth.validator literal (.jwt ⟨OkStatus, none, "jwks"⟩ : TokenAuth plainTink)

theorem dotted_token_first :
    (((isTokenValid [dottedToken, noKeys] "/boot" "Bearer a.b.c").run sampleList).1.ok = true ↔
      ∃ w ∈ [dottedToken, noKeys], w.Accepts sampleList "/boot" "Bearer a.b.c") := by
  have haccepts : dottedToken.Accepts sampleList "/boot" "Bearer a.b.c" := ⟨by decide, by decide⟩
  refine (first_validator_decides [dottedToken, noKeys] (by simp) sampleList "/boot" "Bearer a.b.c").1.mpr ?_
  intro pre validator post hsplit hpre hrefuses w hw
  match pre with
  | [] =>
    obtain ⟨rfl, rfl⟩ := List.cons.inj hsplit
    exact absurd hrefuses haccepts.not_refuses
  | first :: _ =>
    obtain ⟨rfl, -⟩ := List.cons.inj hsplit
    exact absurd (hpre _ List.mem_cons_self) (by rw [haccepts.handles]; exact Bool.noConfusion)

/-- The same validators the other way round: the token is accepted by one of them, and refused. -/
theorem dotted_token_second :
    dottedToken.Accepts sampleList "/boot" "Bearer a.b.c" ∧
      ((isTokenValid [noKeys, dottedToken] "/boot" "Bearer a.b.c").run sampleList).1 =
        authErrorNoKeySet "jwks" ∧
      ((isTokenValid [dottedToken, noKeys] "/boot" "Bearer a.b.c").run sampleList).1 = OkStatus :=
  ⟨⟨by decide, by decide⟩, by decide, by decide⟩

/-! ### Headers without a scheme -/

section Scheme

variable {re : RE2} {secure : SecurityMap} {tink : Tink} {token path : String}

/-- The claims of a verified token are enough for the path. -/
def ClaimsSuffice (re : RE2) (secure : SecurityMap) (jwt : tink.VerifiedJwt) (path : String) : Prop :=
  ∃ iss, tink.getIssuer jwt = .ok iss ∧ (decision re secure .Green iss path = true ∨
    decision re secure .Yellow iss path = true ∧ ∃ audiences, tink.getAudiences jwt = .ok audiences ∧ path ∈ audiences)

/-- What is left of the header without its first seven characters is a token of the keyset, and its claims
are enough. -/
structure JwtTokenAuth.AcceptsCut (auth : JwtTokenAuth tink) (re : RE2) (secure : SecurityMap)
    (path header : String) : Prop where
  initialized : auth.mTinkInitialized.ok = true
  length : DEFAULT_BEARER.length < header.length
  verified : ∃ keyset jwt, auth.mActiveKeyset = some keyset ∧ tink.verify keyset (actual_token header) = .ok jwt ∧
    ClaimsSuffice re secure jwt path

/-- The first `JwtTokenAuth` of a list. -/
def firstJwt : List (TokenAuth tink) → Option (JwtTokenAuth tink)
  | [] => none
  | .jwt auth :: _ => some auth
  | .staticToken _ :: rest => firstJwt rest

/-- A call that needs authentication, and has no header that starts with `Bearer `. -/
structure Schemeless (re : RE2) (secure : SecurityMap) (call : Call tink) (path : String) : Prop where
  validators : call.mValidators ≠ []
  uri : call.auth_metadata.find PATH = some path
  secured : decision re secure .None UNPROTECTED path = false
  scheme : ∀ header, call.auth_metadata.find DEFAULT_HEADER = some header →
    ¬ DEFAULT_BEARER.toList <+: header.toList

/-- The header has two dots, and the first `JwtTokenAuth` accepts what is left of it. -/
def CutAccepted (re : RE2) (secure : SecurityMap) (call : Call tink) (path : String) : Prop :=
  ∃ header auth, call.auth_metadata.find DEFAULT_HEADER = some header ∧ header.toList.count '.' = 2 ∧
    firstJwt call.mValidators = some auth ∧ auth.AcceptsCut re secure path header

theorem JwtTokenAuth.checkClaims_gives_iff (jwt : tink.VerifiedJwt) (path : String) :
    Gives (AllowList.Kept re secure) (checkClaims re jwt path) fun status =>
      (status.code = .OK ↔ ClaimsSuffice re secure jwt path) := by
  unfold checkClaims ClaimsSuffice
  cases hiss : tink.getIssuer jwt with
  | error failure => exact gives_pure (iff_of_false (by simp [authErrorMissingIss, UnauthenticatedError]) (by simp))
  | ok iss =>
    refine gives_bind (AllowList.isAllowed_gives iss path) fun allowed hallowed => gives_ite (fun h => ?_) fun h => ?_
    · exact gives_pure (iff_of_true rfl ⟨iss, rfl, .inl (hallowed ▸ h)⟩)
    · have hgreen : decision re secure .Green iss path = false := by rw [← hallowed]; simpa using h
      refine gives_bind (AllowList.isRed_gives iss path) fun red hred => gives_ite (fun hisred => ?_) fun hnot => ?_
      · refine gives_bind gives_get fun _ _ => gives_pure (iff_of_false nofun ?_)
        rintro ⟨iss', hiss', hgranted⟩
        obtain rfl := Except.ok.inj hiss'
        simp [hred, hgreen] at hisred
        simp [hgreen, hisred] at hgranted
      · have hyellow : decision re secure .Yellow iss path = true := by simpa [hred, hgreen] using hnot
        cases haudiences : tink.getAudiences jwt with
        | error failure =>
          refine gives_pure (iff_of_false ?_ ?_)
          · unfold authErrorMissingAud
            split <;> nofun
          · rintro ⟨iss', hiss', hgranted⟩
            obtain rfl := Except.ok.inj hiss'
            simp [hgreen] at hgranted
        | ok audiences =>
          refine gives_ite (fun hpath => gives_pure (iff_of_true rfl ?_)) fun hpath =>
            gives_pure (iff_of_false ?_ ?_)
          · exact ⟨iss, rfl, .inr ⟨hyellow, audiences, rfl, hpath⟩⟩
          · unfold authErrorMissingClaim
            split <;> nofun
          · rintro ⟨iss', hiss', hgranted⟩
            obtain rfl := Except.ok.inj hiss'
            simp [hgreen, hpath] at hgranted

theorem JwtTokenAuth.isTokenValid_gives_iff (auth : JwtTokenAuth tink) (path token : String) :
    Gives (AllowList.Kept re secure) (auth.isTokenValid re path token) fun status =>
      (status.code = .OK ↔ auth.AcceptsCut re secure path token) := by
  refine gives_ite (fun hinit => gives_pure (iff_of_false ?_ ?_)) fun hinit => gives_ite (fun hlen => ?_) fun hlen =>
    ?_
  · simpa [Status.ok] using hinit
  · intro h
    simp [h.initialized] at hinit
  · refine gives_pure (iff_of_false (fun hcode => by cases hcode) fun h => ?_)
    exact absurd h.length (Nat.not_lt.mpr hlen)
  · have hshape := Nat.not_le.mp hlen
    cases hkeyset : auth.mActiveKeyset with
    | none =>
      refine gives_pure (iff_of_false (fun hcode => by cases hcode) fun h => ?_)
      obtain ⟨keyset, jwt, hsome, -⟩ := h.verified
      rw [hkeyset] at hsome
      cases hsome
    | some keyset =>
      dsimp only
      cases hverify : tink.verify keyset (actual_token token) with
      | error failure =>
        refine gives_pure (iff_of_false failure.property fun h => ?_)
        obtain ⟨keyset', jwt, hsome, hok, -⟩ := h.verified
        obtain rfl := Option.some.inj (hkeyset.symm.trans hsome)
        rw [hverify] at hok
        cases hok
      | ok jwt =>
        refine (checkClaims_gives_iff jwt path).mono fun status hstatus =>
          hstatus.trans ⟨fun hclaims => ?_, fun h => ?_⟩
        · exact ⟨by simpa using hinit, hshape, keyset, jwt, hkeyset, hverify, hclaims⟩
        · obtain ⟨keyset', jwt', hsome, hok, hclaims⟩ := h.verified
          obtain rfl := Option.some.inj (hkeyset.symm.trans hsome)
          obtain rfl := Except.ok.inj (hverify.symm.trans hok)
          exact hclaims

/-- Without the scheme, a token is one for the first `JwtTokenAuth`, or for none. -/
theorem find_without_scheme (hscheme : ¬ DEFAULT_BEARER.toList <+: token.toList)
    (mValidators : List (TokenAuth tink)) :
    mValidators.find? (·.canHandleToken token) =
      if DEFAULT_BEARER.length < token.length ∧ token.toList.count '.' = 2 then
        (firstJwt mValidators).map TokenAuth.jwt
      else none := by
  induction mValidators with
  | nil => simp [firstJwt]
  | cons validator rest ih =>
    cases validator with
    | staticToken auth =>
      have hother : TokenAuth.canHandleToken (.staticToken auth : TokenAuth tink) token = false := by
        show (token == auth.mStaticToken) = false
        refine beq_eq_false_iff_ne.mpr fun heq => hscheme ?_
        rw [heq, StaticTokenAuth.mStaticToken, String.toList_append]
        exact List.prefix_append ..
      rw [List.find?_cons_of_neg (by simp [hother]), ih]
      rfl
    | jwt auth =>
      have hhandles : TokenAuth.canHandleToken (.jwt auth) token = true ↔
          DEFAULT_BEARER.length < token.length ∧ token.toList.count '.' = 2 := by
        show auth.canHandleToken token = true ↔ _
        unfold JwtTokenAuth.canHandleToken
        by_cases hlen : token.length ≤ DEFAULT_BEARER.length
        · simp [hlen, Nat.not_lt.mpr hlen]
        · simp [hlen, Nat.not_le.mp hlen]
      by_cases hshape : DEFAULT_BEARER.length < token.length ∧ token.toList.count '.' = 2
      · rw [List.find?_cons, hhandles.mpr hshape, if_pos hshape]
        rfl
      · rw [List.find?_cons, Bool.eq_false_iff.mpr fun h => hshape (hhandles.mp h), if_neg hshape]
        rw [if_neg hshape] at ih
        exact ih

/-- A call without the scheme is answered `OK` exactly if what is left of its header is accepted. -/
theorem process_schemeless {call : Call tink} (h : Schemeless re secure call path) :
    Gives (AllowList.Kept re secure) (AnyTokenAuth.Process re call) fun status =>
      (status.code = .OK ↔ CutAccepted re secure call path) := by
  unfold AnyTokenAuth.Process BasicTokenAuth.Process
  rw [h.uri]
  refine gives_bind (AllowList.requiresAuthentication_gives path) fun requires hrequires => ?_
  have hsecured : requires = true := by rw [hrequires, h.secured]; rfl
  refine gives_ite (fun hopen => by simp [hsecured] at hopen) fun _ => ?_
  cases hheader : call.auth_metadata.find DEFAULT_HEADER with
  | none =>
    refine gives_pure (iff_of_false nofun ?_)
    rintro ⟨header, auth, hsome, -⟩
    rw [hheader] at hsome
    cases hsome
  | some header =>
    have hfind := find_without_scheme (h.scheme header hheader) call.mValidators
    have hhandled : AnyTokenAuth.canHandleToken call.mValidators header =
        (call.mValidators.find? (·.canHandleToken header)).isSome := by
      rw [AnyTokenAuth.canHandleToken, if_neg (by simpa using h.validators), List.isSome_find?]
    have hcut : CutAccepted re secure call path ↔ header.toList.count '.' = 2 ∧
        ∃ auth, firstJwt call.mValidators = some auth ∧ auth.AcceptsCut re secure path header := by
      constructor
      · rintro ⟨header', auth, hsome, hdots, hfirst, haccepts⟩
        obtain rfl := Option.some.inj (hheader.symm.trans hsome)
        exact ⟨hdots, auth, hfirst, haccepts⟩
      · rintro ⟨hdots, auth, hfirst, haccepts⟩
        exact ⟨header, auth, hheader, hdots, hfirst, haccepts⟩
    by_cases hshape : DEFAULT_BEARER.length < header.length ∧ header.toList.count '.' = 2
    · rw [if_pos hshape] at hfind
      cases hfirst : firstJwt call.mValidators with
      | none =>
        rw [hfirst] at hfind
        refine gives_ite (fun _ => gives_pure (iff_of_false nofun ?_)) fun hnot => ?_
        · rw [hcut, hfirst]
          rintro ⟨-, auth, hsome, -⟩
          cases hsome
        · simp [hhandled, hfind] at hnot
      | some auth =>
        rw [hfirst] at hfind
        refine gives_ite (fun hnot => by simp [hhandled, hfind] at hnot) fun _ => ?_
        have hvalid : AnyTokenAuth.isTokenValid re call.mValidators path header =
            auth.isTokenValid re path header := by
          rw [AnyTokenAuth.isTokenValid, if_neg (by simpa using h.validators), hfind]
          rfl
        show Gives _ (AnyTokenAuth.isTokenValid re call.mValidators path header) _
        rw [hvalid]
        refine (auth.isTokenValid_gives_iff path header).mono fun status hstatus => ?_
        rw [hstatus, hcut, hfirst]
        refine ⟨fun haccepts => ⟨hshape.2, auth, rfl, haccepts⟩, ?_⟩
        rintro ⟨-, auth', hsome, haccepts⟩
        exact Option.some.inj hsome ▸ haccepts
    · rw [if_neg hshape] at hfind
      refine gives_ite (fun _ => gives_pure (iff_of_false nofun ?_)) fun hnot => ?_
      · rw [hcut]
        rintro ⟨hdots, auth, -, haccepts⟩
        exact hshape ⟨haccepts.length, hdots⟩
      · simp [hhandled, hfind] at hnot

/-- No call changes the rules. -/
theorem process_kept (call : Call tink) :
    Gives (AllowList.Kept re secure) (AnyTokenAuth.Process re call) fun _ => True := by
  unfold AnyTokenAuth.Process BasicTokenAuth.Process
  cases call.auth_metadata.find PATH with
  | none => exact gives_pure trivial
  | some path =>
    refine gives_bind (AllowList.requiresAuthentication_gives path) fun _ _ => gives_ite (fun _ => gives_pure trivial)
      fun _ => ?_
    cases call.auth_metadata.find DEFAULT_HEADER with
    | none => exact gives_pure trivial
    | some header =>
      refine gives_ite (fun _ => gives_pure trivial) fun _ => gives_ite (fun _ => gives_pure trivial) fun _ => ?_
      cases call.mValidators.find? (·.canHandleToken header) with
      | none => exact gives_pure trivial
      | some validator =>
        cases validator with
        | jwt auth => exact (auth.isTokenValid_gives_iff path header).mono fun _ _ => trivial
        | staticToken auth =>
          refine gives_ite (fun _ => gives_pure trivial) fun _ => ?_
          refine gives_bind (AllowList.isRed_gives auth.mIssuer path) fun _ _ => gives_ite (fun _ => ?_) fun _ => ?_
          · exact gives_bind gives_get fun _ _ => gives_pure trivial
          · exact gives_pure trivial

end Scheme

/-- **The Bearer scheme.** Whatever calls came before, one that needs authentication and whose header does not
start with `Bearer ` is refused exactly if what is left of the header without its first seven characters
is not a token that the first `JwtTokenAuth` verifies, with claims that are enough for the path. -/
theorem bearer_required_iff (re : RE2) (tink : Tink) (rand : Nat → Nat) (document : Option Json) (list : AllowList)
    (hlist : parseJsonObject re rand document = .ok list) (source : String) (calls : List (Call tink)) :
    List.Forall₂ (fun call status => ∀ path, Schemeless re list.securityMap call path →
        (status.code ≠ .OK ↔ ¬ CutAccepted re list.securityMap call path)) calls
      ((calls.mapM (AnyTokenAuth.Process re)).run (list.setSource source)).1 := by
  have hkept := (parseJsonObject_kept hlist).setSource source
  refine (gives_mapM (fun call _ => ?_) _ hkept).1
  by_cases h : ∃ path, Schemeless re list.securityMap call path
  · obtain ⟨path, hpath⟩ := h
    refine (process_schemeless hpath).mono fun status hstatus other hother => ?_
    obtain rfl := Option.some.inj (hpath.uri.symm.trans hother.uri)
    exact not_congr hstatus
  · exact (process_kept call).mono fun status _ path hpath => absurd ⟨path, hpath⟩ h

/-- A keyset of one token. -/
def oneToken : Tink where
  KeysetHandle := Unit
  JwtPublicKeyVerify := Unit
  JwtValidator := Unit
  VerifiedJwt := Unit
  getPrimitive _ := .ok ()
  validator := .ok ()
  verifyAndDecode _ _ token :=
    if token = "header.claims.signature" then .ok ()
    else .error ⟨⟨.INVALID_ARGUMENT, "not the token"⟩, by decide⟩
  getIssuer _ := .ok "studio"
  getAudiences _ := .ok ["/boot"]

/-- Another scheme, of seven characters with the blank, and a header that is the token itself. -/
def otherSchemes : List (Call oneToken) :=
  [⟨[.jwt ⟨OkStatus, some (), "jwks"⟩], [(PATH, "/boot"), (DEFAULT_HEADER, "Digest header.claims.signature")]⟩,
    ⟨[.jwt ⟨OkStatus, some (), "jwks"⟩], [(PATH, "/boot"), (DEFAULT_HEADER, "header.claims.signature")]⟩]

theorem bare_token_refused :
    ∃ status, ((otherSchemes.mapM (AnyTokenAuth.Process literal)).run sampleList).1[1]? = some status ∧
      status.code ≠ .OK := by
  have hforall := bearer_required_iff literal oneToken id (some sample) _ (parse_sample id) "access.json" otherSchemes
  have hrefused := (List.forall₂_iff_get.mp hforall).2 1 (by decide) (by decide) "/boot"
    ⟨by decide, rfl, by decide, by decide⟩
  refine ⟨_, rfl, hrefused.mpr ?_⟩
  rintro ⟨header, auth, hheader, -, -, haccepts⟩
  obtain rfl : "header.claims.signature" = header := Option.some.inj hheader
  obtain ⟨keyset, jwt, -, hverify, -⟩ := haccepts.verified
  have hcut : actual_token "header.claims.signature" ≠ "header.claims.signature" := by decide
  simp only [Tink.verify, oneToken, ok_bind, if_neg hcut] at hverify
  cases hverify

/-- The header starts with `Digest `, and the call is answered `OK`. -/
theorem other_scheme_accepted :
    ¬ DEFAULT_BEARER.toList <+: "Digest header.claims.signature".toList ∧
      ((otherSchemes.mapM (AnyTokenAuth.Process literal)).run sampleList).1[0]? = some OkStatus := by
  exact ⟨by decide, by decide⟩

end Goldfish.Security
