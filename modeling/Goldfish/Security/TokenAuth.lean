import Goldfish.Security.AllowList

/-!
# Goldfish.Security.TokenAuth

The validators in front of the gRPC services (`BasicTokenAuth.cpp`, `JwtTokenAuth.cpp`,
`AuthErrorFactory.cpp`). `Process` looks up the path and the header of a call and asks
`AnyTokenAuth`, which leaves the decision to the first validator that can handle the
token. All of them share one access list, which is the state here.

Tink is a parameter of the model (`Tink`): what it makes of a keyset and a token at the
time of the call. A call that fails has a status that is not `OK`.
-/

namespace Goldfish.Security

/-! ### Statuses -/

/-- The codes that `absl::StatusCode` and `grpc::StatusCode` share. -/
inductive StatusCode where
  | OK | CANCELLED | UNKNOWN | INVALID_ARGUMENT | DEADLINE_EXCEEDED | NOT_FOUND | ALREADY_EXISTS
  | PERMISSION_DENIED | RESOURCE_EXHAUSTED | FAILED_PRECONDITION | ABORTED | OUT_OF_RANGE
  | UNIMPLEMENTED | INTERNAL | UNAVAILABLE | DATA_LOSS | UNAUTHENTICATED
deriving DecidableEq

/-- `ConvertAbseilStatusToGrpcStatus` keeps the code and the message, so there is one type for both. -/
structure Status where
  code : StatusCode
  message : String
deriving DecidableEq

/-- `ok`. -/
def Status.ok (status : Status) : Bool := status.code = .OK

/-- `absl::OkStatus`. -/
def OkStatus : Status := ⟨.OK, ""⟩

/-- A status that is not `OK`. -/
def Failure : Type := { status : Status // status.code ≠ .OK }

/-- `absl::StatusOr`. -/
abbrev StatusOr (α : Type) : Type := Except Failure α

/-! ### Messages -/

/-- The issuer that gets a hint of its own. -/
def kGRADLE : String := "gradle-utp-emulator-control"

/-- The issuer that a static token is reported for. -/
def kSTUDIO : String := "android-studio"

/-- `absl::UnauthenticatedError`. -/
def UnauthenticatedError (message : String) : Status := ⟨.UNAUTHENTICATED, message⟩

/-- `absl::PermissionDeniedError`. -/
def PermissionDeniedError (message : String) : Status := ⟨.PERMISSION_DENIED, message⟩

/-- There are no keys to check with. -/
def authErrorNoKeySet (jwk_path : String) : Status :=
  UnauthenticatedError ("No key set present. Make sure your public jwk is saved in " ++ jwk_path)

/-- No validator handles the token. -/
def authErrorNoValidatorForToken (_path token : String) : Status :=
  UnauthenticatedError ("The token `" ++ token ++ "` is invalid")

/-- The token is not the one that is expected. -/
def authErrorInvalidToken (token : String) : Status :=
  UnauthenticatedError ("The token `" ++ token ++ "` is invalid")

/-- The header does not begin as it should. -/
def authErrorInvalidHeader (header expected : String) : Status :=
  UnauthenticatedError
    ("Invalid token header: `" ++ header ++ "`, it does not start with: `" ++ expected ++ "`")

/-- There is no header. -/
def authErrorMissingHeader (header : String) : Status :=
  UnauthenticatedError ("Missing the '" ++ header ++ "' header with security credentials.")

/-- There is no issuer. -/
def authErrorMissingIss (_path : String) : Status :=
  UnauthenticatedError "The JWT token is missing the iss claim."

/-- What to add to a gradle build file. -/
def gradleHint (path : String) : String :=
  "Make sure to add `allowedEndpoints.add(\"" ++ path ++
    "\")` to the emulatorControl block in your gradle build file."

/-- There is no audience. -/
def authErrorMissingAud (iss path : String) : Status :=
  if iss = kGRADLE then PermissionDeniedError (gradleHint path)
  else
    PermissionDeniedError ("The JWT does not have an aud claim. Make sure to include: `\"aud\" : [\"" ++
      path ++ "\"]` in your JWT.")

/-- The path is not in the audience. -/
def authErrorMissingClaim (iss path : String) : Status :=
  if iss = kGRADLE then PermissionDeniedError (gradleHint path)
  else
    PermissionDeniedError ("The JWT does not include " ++ path ++
      " in the aud claim. Make sure to add it to the array.")

/-- The path is on no list of the issuer. -/
def authErrorNotOnAllowList (iss path allowListOrigin : String) : Status :=
  PermissionDeniedError ("The endpoint: " ++ path ++ " is not on the allowlist loaded from: `" ++
    allowListOrigin ++ "`. Add " ++ path ++ " to the protected or allowed section of " ++ iss ++ ".")

/-! ### Static tokens -/

/-- The header that has the token. -/
def DEFAULT_HEADER : String := "authorization"

/-- The header that has the path. -/
def PATH : String := ":path"

/-- What stands before the token. -/
def DEFAULT_BEARER : String := "Bearer "

/-- `StaticTokenAuth`. -/
structure StaticTokenAuth where
  token : String
  mIssuer : String

namespace StaticTokenAuth

/-- The header that is expected. -/
def mStaticToken (auth : StaticTokenAuth) : String := DEFAULT_BEARER ++ auth.token

/-- `canHandleToken`: it is this very token. -/
def canHandleToken (auth : StaticTokenAuth) (token : String) : Bool := token == auth.mStaticToken

/-- `isTokenValid`. What is on no list is refused. -/
def isTokenValid (re : RE2) (auth : StaticTokenAuth) (path token : String) : StateM AllowList Status :=
  if !auth.canHandleToken token then
    return authErrorInvalidToken token
  else do
    if ← AllowList.isRed re auth.mIssuer path then
      return authErrorNotOnAllowList kSTUDIO path (← get).mSource
    else
      return OkStatus

end StaticTokenAuth

/-! ### JSON web tokens -/

/-- The calls into Tink. `validator` is what the `JwtValidatorBuilder` makes of "issued in the past, any
issuer, any audiences". -/
structure Tink where
  KeysetHandle : Type
  JwtPublicKeyVerify : Type
  JwtValidator : Type
  VerifiedJwt : Type
  getPrimitive : KeysetHandle → StatusOr JwtPublicKeyVerify
  validator : StatusOr JwtValidator
  verifyAndDecode : JwtPublicKeyVerify → JwtValidator → String → StatusOr VerifiedJwt
  getIssuer : VerifiedJwt → StatusOr String
  getAudiences : VerifiedJwt → StatusOr (List String)

/-- `observes` is the directory of the keys. -/
structure JwtTokenAuth (tink : Tink) where
  mTinkInitialized : Status
  mActiveKeyset : Option tink.KeysetHandle
  observes : String

/-- The token without the first `DEFAULT_BEARER.size()` bytes, whatever they are. -/
def actual_token (token : String) : String := String.ofList (token.toList.drop DEFAULT_BEARER.length)

/-- The token is checked with the keyset. -/
def Tink.verify (tink : Tink) (keyset : tink.KeysetHandle) (token : String) : StatusOr tink.VerifiedJwt := do
  let verify ← tink.getPrimitive keyset
  let validator ← tink.validator
  tink.verifyAndDecode verify validator token

namespace JwtTokenAuth

variable {tink : Tink}

/-- `canHandleToken`: the token has three parts. -/
def canHandleToken (_auth : JwtTokenAuth tink) (token : String) : Bool :=
  if token.length ≤ DEFAULT_BEARER.length then false else token.toList.count '.' == 2

/-- What is left to check of a verified token: its issuer and, for a protected path, its audiences. -/
def checkClaims (re : RE2) (jwt : tink.VerifiedJwt) (path : String) : StateM AllowList Status :=
  match tink.getIssuer jwt with
  | .error _ => return authErrorMissingIss path
  | .ok iss => do
    if ← AllowList.isAllowed re iss path then
      return OkStatus
    else if ← AllowList.isRed re iss path then
      return authErrorNotOnAllowList iss path (← get).mSource
    else
      match tink.getAudiences jwt with
      | .error _ => return authErrorMissingAud iss path
      | .ok audiences => if path ∈ audiences then return OkStatus else return authErrorMissingClaim iss path

/-- `isTokenValid`: the signature, then the audience, then the lists. -/
def isTokenValid (re : RE2) (auth : JwtTokenAuth tink) (path token : String) : StateM AllowList Status :=
  if !auth.mTinkInitialized.ok then
    return auth.mTinkInitialized
  else if token.length ≤ DEFAULT_BEARER.length then
    return authErrorInvalidHeader token DEFAULT_BEARER
  else
    match auth.mActiveKeyset with
    | none => return authErrorNoKeySet auth.observes
    | some keyset =>
      match tink.verify keyset (actual_token token) with
      | .error failure => return failure.val
      | .ok jwt => checkClaims re jwt path

end JwtTokenAuth

/-! ### Any of them -/

/-- The two validators. -/
inductive TokenAuth (tink : Tink) where
  | staticToken (auth : StaticTokenAuth)
  | jwt (auth : JwtTokenAuth tink)

namespace TokenAuth

variable {tink : Tink}

/-- `canHandleToken`, of either. -/
def canHandleToken : TokenAuth tink → String → Bool
  | staticToken auth, token => auth.canHandleToken token
  | jwt auth, token => auth.canHandleToken token

/-- `isTokenValid`, of either. -/
def isTokenValid (re : RE2) : TokenAuth tink → String → String → StateM AllowList Status
  | staticToken auth, path, token => auth.isTokenValid re path token
  | jwt auth, path, token => auth.isTokenValid re path token

/-- The class. -/
def name : TokenAuth tink → String
  | staticToken _ => "StaticTokenAuth"
  | jwt _ => "JwtTokenAuth"

end TokenAuth

namespace AnyTokenAuth

variable {tink : Tink}

/-- `canHandleToken`: one of the validators can, or there is none. -/
def canHandleToken (mValidators : List (TokenAuth tink)) (token : String) : Bool :=
  if mValidators.isEmpty then true else mValidators.any (·.canHandleToken token)

/-- `isTokenValid`: the first one that can handle the token decides. -/
def isTokenValid (re : RE2) (mValidators : List (TokenAuth tink)) (path token : String) :
    StateM AllowList Status :=
  if mValidators.isEmpty then
    return OkStatus
  else
    match mValidators.find? (·.canHandleToken token) with
    | some validator => validator.isTokenValid re path token
    | none => return ⟨.INTERNAL, "FATAL: No validator that can handle token. This should not happen, please " ++
        "file a bug including this information: Validation failure `validators: " ++
        mValidators.foldl (fun str validator => str ++ ", " ++ validator.name) "" ++ "`, `path: " ++ path ++
        "`, `token: " ++ token ++ "`"⟩

end AnyTokenAuth

/-! ### Calls -/

/-- The metadata of a call, a multimap. -/
abbrev InputMetadata : Type := List (String × String)

/-- The value of `find`: the first one for the key. -/
def InputMetadata.find (auth_metadata : InputMetadata) (key : String) : Option String :=
  (List.find? (·.1 == key) auth_metadata).map (·.2)

/-- `BasicTokenAuth::Process` of a class that checks the tokens of `mHeader`. -/
def BasicTokenAuth.Process (re : RE2) (mHeader : String) (canHandleToken : String → Bool)
    (isTokenValid : String → String → StateM AllowList Status) (auth_metadata : InputMetadata) :
    StateM AllowList Status :=
  match auth_metadata.find PATH with
  | none => return ⟨.INTERNAL, "The metadata does not contain a path"⟩
  | some uri => do
    if !(← AllowList.requiresAuthentication re uri) then
      return OkStatus
    else
      match auth_metadata.find mHeader with
      | none => return authErrorMissingHeader mHeader
      | some token =>
        if !canHandleToken token then
          return authErrorNoValidatorForToken uri token
        else
          isTokenValid uri token

/-- A call, with the validators as they are when it arrives: keys come and go. -/
structure Call (tink : Tink) where
  mValidators : List (TokenAuth tink)
  auth_metadata : InputMetadata

/-- `Process`, with any of the validators. -/
def AnyTokenAuth.Process {tink : Tink} (re : RE2) (call : Call tink) : StateM AllowList Status :=
  BasicTokenAuth.Process re DEFAULT_HEADER (AnyTokenAuth.canHandleToken call.mValidators)
    (AnyTokenAuth.isTokenValid re call.mValidators) call.auth_metadata

end Goldfish.Security
