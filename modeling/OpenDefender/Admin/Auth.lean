import OpenDefender.Admin.Iam

/-!
How the admin API finds out who calls (`services/admin-api/src/auth.rs`): a bearer token is one that
the service has issued itself, or one of an identity provider whose claims are resolved to a user, by
the subject first and then by the email; claims that belong to no user can stand for themselves.

Decoding a token and checking its signature is not modelled: a `BearerToken` is what the two secrets make
of it. The header `X-Admin-Token` and what belongs to it (personal tokens, service accounts, the static
token) is left out. Times are in microseconds.
-/

namespace OpenDefender.Admin

open Lib Text

/-- The time unit of JSON web tokens. -/
def second : ℕ := 1000000

/-- `AuthMode`. -/
inductive AuthMode where
  | localMode
  | hybrid
  | oidc
  deriving DecidableEq, Repr

/-- `matches!(mode, AuthMode::Local | AuthMode::Hybrid)`. -/
def AuthMode.isLocal : AuthMode → Bool
  | .localMode | .hybrid => true
  | .oidc => false

/-- `matches!(mode, AuthMode::Oidc | AuthMode::Hybrid)`. -/
def AuthMode.isOidc : AuthMode → Bool
  | .oidc | .hybrid => true
  | .localMode => false

/-- `JwtValidator`, without its secret. -/
structure JwtValidator where
  issuer : String
  audience : String

/-- `AdminAuth`, without secrets and static token. -/
structure AdminAuth where
  mode : AuthMode
  allowClaimFallback : Bool
  localJwtTtlSeconds : ℕ
  maxFailedAttempts : ℕ
  lockoutSeconds : ℕ
  refreshTtlSeconds : ℕ
  refreshMaxSessions : ℕ
  jwt : Option JwtValidator

/-- `AuthError`. -/
inductive AuthError where
  | invalidFormat
  | invalidSignature
  | invalidIssuer
  | invalidAudience
  | expired
  | invalidCredentials
  | locked (time : ℕ)
  | notProvisioned
  | disabled
  | database (message : String)
  | internal (message : String)
  deriving DecidableEq, Repr

/-- `From<IamError> for AuthError`. -/
def IamError.toAuthError : IamError → AuthError
  | .notFound _ => .notProvisioned
  | .validation message => .internal message
  | .db message => .database message
  | .invalidCredentials => .invalidCredentials
  | .disabled => .disabled
  | .locked time => .locked time
  | .protectedUser => .internal "protected user mutation blocked"
  | .lastActiveAdmin => .internal "last active admin guard blocked mutation"

/-- `map_auth_error`: the HTTP status. -/
def mapAuthError : AuthError → ℕ
  | .invalidFormat | .invalidSignature | .invalidIssuer | .invalidAudience | .expired
  | .invalidCredentials => 401
  | .locked _ => 429
  | .notProvisioned | .disabled => 403
  | .database _ | .internal _ => 500

/-! ### Access -/

/-- `EffectiveAccess`. -/
structure EffectiveAccess where
  roles : List String
  permissions : List String
  deriving DecidableEq, Repr

/-- The roles whose ids are assigned to the user or to a group the user is a member of. -/
def IamDb.rolesOf (db : IamDb) (userId : Uuid) : List IamRole :=
  db.roles.filter fun role => (userId, role.id) ∈ db.userRoles ∨
    ∃ member ∈ db.groupMembers, member.2 = userId ∧ (member.1, role.id) ∈ db.groupRoles

variable (auth : AdminAuth) (db : IamDb)

/-- `effective_permissions_for_user`. The rows of `iam_role_permissions`, which no operation writes, are
pairs of a role and a permission. -/
def IamDb.effectivePermissionsForUser (rolePermissions : List (Uuid × String))
    (userId : Uuid) : EffectiveAccess where
  roles := ((db.rolesOf userId).map (·.name)).dedup
  permissions := ((rolePermissions.filter fun granted =>
    granted.1 ∈ (db.rolesOf userId).map (·.id)).map (·.2)).dedup

/-- `get_user`. -/
def IamDb.getUser (id : Uuid) : Except IamError IamUser :=
  match db.users.find? fun user => user.id = id with
  | some user => .ok user
  | none => .error (.notFound "user")

/-- `find_user_by_subject`. -/
def IamDb.findUserBySubject (subject : String) : Option IamUser :=
  db.users.find? fun user => user.subject = some subject

/-- `find_user_by_email`. -/
def IamDb.findUserByEmail (email : String) : Option IamUser :=
  db.users.find? fun user => user.email = some (trim email)

/-- `PrincipalType`, as far as bearer tokens lead to one. -/
inductive PrincipalType where
  | user
  | fallback
  deriving DecidableEq, Repr

/-- `UserContext`. -/
structure UserContext where
  actor : String
  principalType : PrincipalType
  principalId : Option Uuid
  roles : List String
  permissions : List String
  deriving DecidableEq, Repr

/-- `UserContext::from_fallback`. -/
def UserContext.fromFallback (actor : String) (roles : List String) : UserContext where
  actor
  principalType := .fallback
  principalId := none
  roles
  permissions := roles

/-- `UserContext::from_effective` of a user. -/
def UserContext.fromEffective (actor : String) (id : Uuid) (access : EffectiveAccess) :
    UserContext where
  actor
  principalType := .user
  principalId := some id
  roles := access.roles
  permissions := access.permissions

/-! ### Claims of an identity provider -/

/-- `Claims`. -/
structure Claims where
  sub : String
  iss : String
  aud : Option String
  exp : Option ℤ
  preferredUsername : Option String
  email : Option String
  roles : Option (List String)
  scope : Option String

variable (claims : Claims) (rolePermissions : List (Uuid × String))

/-- `Claims::validate`. -/
def Claims.validate (issuer audience : String) (now : ℕ) : Except AuthError Unit :=
  if claims.iss ≠ issuer then .error .invalidIssuer
  else if claims.aud ≠ some audience then .error .invalidAudience
  else if claims.exp.any fun exp => ((now / second : ℕ) : ℤ) > exp then .error .expired
  else .ok ()

/-- `default_static_roles`. -/
def defaultStaticRoles : List String := ["policy-admin", "policy-editor", "policy-viewer", "auditor"]

/-- `Claims::compute_roles`. -/
def Claims.computeRoles : List String :=
  match claims.roles with
  | some (role :: rest) => role :: rest
  | some [] | none =>
    match claims.scope with
    | some scope => splitWhitespace scope
    | none => defaultStaticRoles

/-- `Claims::actor`. -/
def Claims.actor : String :=
  (claims.preferredUsername.or claims.email).getD claims.sub

/-- The branch of `resolve_claims` for a user that has been found. -/
def Claims.contextOf (db : IamDb) (user : IamUser) : Except AuthError UserContext :=
  if user.status ≠ "active" then .error .disabled
  else .ok (.fromEffective claims.actor user.id
    (db.effectivePermissionsForUser rolePermissions user.id))

/-- `resolve_claims`. -/
def AdminAuth.resolveClaims (db : IamDb) (claims : Claims) : Except AuthError UserContext :=
  match db.findUserBySubject claims.sub with
  | some user => claims.contextOf rolePermissions db user
  | none =>
    match claims.email.bind db.findUserByEmail with
    | some user => claims.contextOf rolePermissions db user
    | none =>
      if auth.allowClaimFallback then .ok (.fromFallback claims.actor claims.computeRoles)
      else .error .notProvisioned

/-! ### Bearer tokens -/

/-- `LocalTokenClaims` of a token that the service has issued; `exp` is in seconds. -/
structure LocalTokenClaims where
  sub : Uuid
  username : Option String
  email : String
  tokenVersion : ℕ
  exp : ℕ
  deriving DecidableEq, Repr

/-- What is left of `LocalJwtIssuer::validate` for a token the service has issued. -/
def LocalTokenClaims.validate (claims : LocalTokenClaims) (now : ℕ) : Except AuthError Unit :=
  if claims.exp ≤ now / second then .error .expired else .ok ()

/-- A bearer token, by the secret it is signed with. -/
inductive BearerToken where
  | localJwt (claims : LocalTokenClaims)
  | oidcJwt (claims : Claims)
  | other

/-- `resolve_local_subject`. -/
def resolveLocalSubject (db : IamDb) (claims : LocalTokenClaims) : Except AuthError UserContext :=
  match db.getUser claims.sub with
  | .error _ => .error .notProvisioned
  | .ok user =>
    if user.status ≠ "active" then .error .disabled
    else if claims.tokenVersion ≠ user.tokenVersion then .error .invalidCredentials
    else .ok (.fromEffective
      (claims.username.getD ((user.username.or user.email).getD (toString user.id))) user.id
      (db.effectivePermissionsForUser rolePermissions user.id))

/-- `JwtValidator::validate`, once the token is decoded. -/
def JwtValidator.validate (jwt : JwtValidator) (now : ℕ) : BearerToken → Except AuthError Claims
  | .oidcJwt claims => (claims.validate jwt.issuer jwt.audience now).map fun _ => claims
  | .localJwt _ => .error .invalidSignature
  | .other => .error .invalidSignature

/-- `LocalJwtIssuer::validate`. -/
def validateLocalJwt (now : ℕ) : BearerToken → Except AuthError LocalTokenClaims
  | .localJwt claims => (claims.validate now).map fun _ => claims
  | .oidcJwt _ => .error .invalidSignature
  | .other => .error .invalidSignature

/-- `authenticate` with a bearer token: who calls, or the HTTP status of the answer. -/
def AdminAuth.authenticate (db : IamDb) (now : ℕ) (token : BearerToken) : Except ℕ UserContext :=
  match auth.mode.isLocal, validateLocalJwt now token with
  | true, .ok claims => (resolveLocalSubject rolePermissions db claims).mapError mapAuthError
  | _, _ =>
    match auth.mode.isOidc, auth.jwt with
    | true, some jwt =>
      (jwt.validate now token >>= auth.resolveClaims rolePermissions db).mapError mapAuthError
    | _, _ => .error 401

end OpenDefender.Admin
