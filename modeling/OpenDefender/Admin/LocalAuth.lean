import OpenDefender.Admin.Auth
import OpenDefender.Admin.PolicyRules
import OpenDefender.Lib.Outcome
import OpenDefender.Lib.Ranking

/-!
Local users and their sessions (`services/admin-api/src/auth.rs` and the login part of `iam.rs`, table of
`migrations/0023_iam_refresh_tokens.sql`): passwords are checked against their hash, wrong ones are
counted, and a login hands out an access token and a refresh token, which can be exchanged for a new pair.

What the functions do with the tables is one definition for each statement. The functions of this module
put the statements together as if nothing came between them.

The hash functions, the draw of new ids and tokens, and the text of a time are parameters. Timestamps that
are only written, hints of tokens and the log of events are left out.
-/

namespace OpenDefender.Admin

open Lib Text Lib.Outcome List

/-! ### Passwords -/

/-- `hash_token` and `verify_hash`; the salt is drawn. -/
structure PasswordHashing where
  hash : ℕ → String → String
  verify : String → String → Bool
  verify_hash : ∀ salt password candidate,
    verify candidate (hash salt password) = true ↔ candidate = password

/-- What the service is run with. -/
structure LocalService where
  auth : AdminAuth
  hashing : PasswordHashing
  hashRefreshToken : String → String
  rolePermissions : List (Uuid × String)
  rfc3339 : ℕ → String

/-- `set_user_password`. -/
def PasswordHashing.setUserPassword (hashing : PasswordHashing) (salt : ℕ) (db : IamDb) (userId : Uuid)
    (password : String) (mustChangePassword : Bool) : Except IamError IamDb :=
  (IamOperation.setUserPassword userId password (hashing.hash salt (trim password))
    mustChangePassword).perform db

/-- `create_user`. -/
def PasswordHashing.createUser (hashing : PasswordHashing) (salt : ℕ) (db : IamDb) (id : Uuid)
    (payload : CreateUserRequest) : Except IamError IamDb :=
  (IamOperation.createUser id payload (hashing.hash salt (trim payload.password))).perform db

/-- The check of `change_password`. -/
def PasswordHashing.checkCurrentPassword (hashing : PasswordHashing) (db : IamDb) (userId : Uuid)
    (currentPassword : String) : Except IamError Unit :=
  match db.users.find? fun user => user.id = userId with
  | none => .error (.notFound "user")
  | some user =>
    match user.passwordHash with
    | none => .error .invalidCredentials
    | some hash =>
      if hashing.verify currentPassword hash then .ok () else .error .invalidCredentials

/-- `change_password`. -/
def PasswordHashing.changePassword (hashing : PasswordHashing) (salt : ℕ) (db : IamDb) (userId : Uuid)
    (currentPassword newPassword : String) : Except IamError IamDb := do
  hashing.checkCurrentPassword db userId currentPassword
  hashing.setUserPassword salt db userId newPassword false

/-! ### Checking a login -/

/-- The condition of the query in `authenticate_local_user`. -/
def IamUser.MatchesLogin (user : IamUser) (identifier : String) : Prop :=
  lower user.email = some (toAsciiLowercase (trim identifier)) ∨
    toAsciiLowercase (user.username.getD "") = toAsciiLowercase (trim identifier)

instance (user : IamUser) (identifier : String) : Decidable (user.MatchesLogin identifier) :=
  inferInstanceAs (Decidable (_ ∨ _))

/-- The row of a login. Where several match, the database takes one of them. -/
def IamDb.loginRow (db : IamDb) (identifier : String) : Option IamUser :=
  db.users.find? fun user => user.MatchesLogin identifier

/-- The hash that a password is checked against, unless the row does not let it come to that. -/
def IamUser.hashToVerify (user : IamUser) (now : ℕ) : Except IamError String :=
  if user.status ≠ "active" then .error .disabled
  else
    match user.lockedUntil.filter fun time => now < time with
    | some time => .error (.locked time)
    | none =>
      match user.passwordHash with
      | none => .error .invalidCredentials
      | some hash => .ok hash

/-- The columns a login writes. -/
structure LoginColumns where
  failedLoginAttempts : ℕ
  lockedUntil : Option ℕ
  deriving DecidableEq, Repr

/-- The columns after a wrong password, from the row that was read. -/
def AdminAuth.afterFailure (auth : AdminAuth) (user : IamUser) (now : ℕ) : LoginColumns where
  failedLoginAttempts := user.failedLoginAttempts + 1
  lockedUntil :=
    if auth.maxFailedAttempts ≤ user.failedLoginAttempts + 1 then
      some (now + max auth.lockoutSeconds 1 * second)
    else none

/-- The columns after the right one. -/
def afterSuccess : LoginColumns := { failedLoginAttempts := 0, lockedUntil := none }

/-- The `UPDATE` of a login. -/
def IamDb.setLogin (db : IamDb) (userId : Uuid) (columns : LoginColumns) : IamDb :=
  { db with
    users := db.users.map fun user =>
      if user.id = userId then
        { user with
          failedLoginAttempts := columns.failedLoginAttempts
          lockedUntil := columns.lockedUntil }
      else user }

/-- `LocalAuthenticatedUser`. -/
structure LocalAuthenticatedUser where
  id : Uuid
  username : Option String
  email : String
  displayName : Option String
  access : EffectiveAccess
  mustChangePassword : Bool
  tokenVersion : ℕ

/-- The user that `authenticate_local_user` returns for a row. -/
def LocalService.authenticatedUser (service : LocalService) (db : IamDb) (row : IamUser) :
    LocalAuthenticatedUser where
  id := row.id
  username := row.username
  email := row.email.getD (row.username.getD "")
  displayName := row.displayName
  access := db.effectivePermissionsForUser service.rolePermissions row.id
  mustChangePassword := row.mustChangePassword
  tokenVersion := row.tokenVersion

/-- `authenticate_local_user`: the tables afterwards, and the user. -/
def LocalService.authenticateLocalUser (service : LocalService) (db : IamDb) (now : ℕ)
    (identifier password : String) : IamDb × Except IamError LocalAuthenticatedUser :=
  match db.loginRow identifier with
  | none => (db, .error .invalidCredentials)
  | some row =>
    match row.hashToVerify now with
    | .error error => (db, .error error)
    | .ok hash =>
      if service.hashing.verify password hash then
        (db.setLogin row.id afterSuccess, .ok (service.authenticatedUser db row))
      else (db.setLogin row.id (service.auth.afterFailure row now), .error .invalidCredentials)

/-- `LocalJwtIssuer::issue`. -/
def AdminAuth.issue (auth : AdminAuth) (user : LocalAuthenticatedUser) (now : ℕ) :
    LocalTokenClaims where
  sub := user.id
  username := user.username
  email := user.email
  tokenVersion := user.tokenVersion
  exp := now / second + max auth.localJwtTtlSeconds 300

/-! ### Refresh tokens -/

/-- A row of `iam_refresh_tokens`. -/
structure RefreshToken where
  id : Uuid
  userId : Uuid
  tokenHash : String
  tokenVersion : ℕ
  createdAt : ℕ
  expiresAt : ℕ
  revokedAt : Option ℕ
  revokedReason : Option String
  replacedById : Option Uuid
  deriving DecidableEq, Repr

/-- `revoked_at IS NULL AND expires_at > NOW()`. -/
def RefreshToken.Live (now : ℕ) (token : RefreshToken) : Prop :=
  token.revokedAt = none ∧ now < token.expiresAt

instance (now : ℕ) (token : RefreshToken) : Decidable (token.Live now) :=
  inferInstanceAs (Decidable (_ ∧ _))

/-- The tables. -/
structure AuthDb where
  iam : IamDb
  refreshTokens : List RefreshToken

variable (service : LocalService) (db : AuthDb)

/-- `user_token_version`. -/
def AuthDb.userTokenVersion (userId : Uuid) : Except AuthError ℕ :=
  ((db.iam.getUser userId).map (·.tokenVersion)).mapError IamError.toAuthError

/-- The first query of `rotate_refresh_token`. -/
def AuthDb.findLive (tokenHash : String) (now : ℕ) : Option RefreshToken :=
  db.refreshTokens.find? fun token => token.tokenHash = tokenHash ∧ token.Live now

/-- The error of a statement that the database refuses. -/
def Violation.toDatabase (violation : Violation) : AuthError :=
  .database ("error returned from database: " ++ violation.message)

/-- `INSERT INTO iam_refresh_tokens`. -/
def AuthDb.insertRefreshToken (row : RefreshToken) : Except AuthError AuthDb :=
  if row.id ∈ db.refreshTokens.map (·.id) then
    .error (Violation.unique "iam_refresh_tokens_pkey").toDatabase
  else if row.tokenHash ∈ db.refreshTokens.map (·.tokenHash) then
    .error (Violation.unique "iam_refresh_tokens_token_hash_key").toDatabase
  else if row.userId ∉ db.iam.users.map (·.id) then
    .error (Violation.foreignKey "iam_refresh_tokens" "iam_refresh_tokens_user_id_fkey").toDatabase
  else .ok { db with refreshTokens := db.refreshTokens ++ [row] }

/-- The rows with the id are revoked. -/
def AuthDb.revoke (id : Uuid) (now : ℕ) (reason : String) (replacedById : Option Uuid) : AuthDb :=
  { db with
    refreshTokens := db.refreshTokens.map fun token =>
      if token.id = id then
        { token with
          revokedAt := some now
          revokedReason := some reason
          replacedById := replacedById.or token.replacedById }
      else token }

/-- The query for the token that was just issued. -/
def AuthDb.replacementId (tokenHash : String) : Except AuthError Uuid :=
  match db.refreshTokens.find? fun token => token.tokenHash = tokenHash with
  | some token => .ok token.id
  | none =>
    .error (.database "no rows returned by a query that expected to return at least one row")

/-- The live sessions of a user. -/
def AuthDb.sessions (userId : Uuid) (now : ℕ) : List RefreshToken :=
  db.refreshTokens.filter fun token => token.userId = userId ∧ token.Live now

variable (ranking : Ranking RefreshToken.createdAt)

/-- `enforce_refresh_session_limit`: the sessions that come after the limit are revoked. -/
def AuthDb.enforceRefreshSessionLimit (limit : ℕ) (userId : Uuid) (now : ℕ) : AuthDb :=
  let excess := ((ranking.ranked (db.sessions userId now)).drop (max limit 1)).map (·.id)
  { db with
    refreshTokens := db.refreshTokens.map fun token =>
      if token.id ∈ excess ∧ token.revokedAt = none then
        { token with revokedAt := some now, revokedReason := some "max_sessions_exceeded" }
      else token }

/-- `revoke_refresh_token`. -/
def LocalService.revokeRefreshToken (refreshToken : String) (now : ℕ) : AuthDb :=
  { db with
    refreshTokens := db.refreshTokens.map fun token =>
      if token.tokenHash = service.hashRefreshToken refreshToken ∧ token.revokedAt = none then
        { token with revokedAt := some now, revokedReason := some "logout" }
      else token }

/-- A new id and a new token. -/
structure Draw where
  id : Uuid
  token : String

/-- The times at which the parts of a call see the clock. -/
structure Times where
  select : ℕ
  access : ℕ
  issue : ℕ
  insert : ℕ
  enforce : ℕ
  finish : ℕ

/-- The row `issue_refresh_token` inserts. -/
def LocalService.newRow (userId : Uuid) (tokenVersion : ℕ) (draw : Draw)
    (issue insert : ℕ) : RefreshToken where
  id := draw.id
  userId
  tokenHash := service.hashRefreshToken draw.token
  tokenVersion
  createdAt := insert
  expiresAt := issue + max service.auth.refreshTtlSeconds 600 * second
  revokedAt := none
  revokedReason := none
  replacedById := none

/-- `issue_refresh_token`. -/
def LocalService.issueRefreshToken
    (db : AuthDb) (userId : Uuid) (draw : Draw) (times : Times) : Except AuthError AuthDb := do
  let tokenVersion ← db.userTokenVersion userId
  let db ← db.insertRefreshToken (service.newRow userId tokenVersion draw times.issue times.insert)
  return db.enforceRefreshSessionLimit ranking service.auth.refreshMaxSessions userId times.enforce

/-- The user that `local_user_for_token` returns for a row and a version. -/
def LocalService.userForToken (db : IamDb) (user : IamUser) (tokenVersion : ℕ) : LocalAuthenticatedUser where
  id := user.id
  username := user.username
  email := user.email.getD (toString user.id)
  displayName := user.displayName
  access := db.effectivePermissionsForUser service.rolePermissions user.id
  mustChangePassword := false
  tokenVersion

/-- `local_user_for_token`. -/
def LocalService.localUserForToken (userId : Uuid) : Except AuthError LocalAuthenticatedUser := do
  let user ← (db.iam.getUser userId).mapError IamError.toAuthError
  if user.status ≠ "active" then throw AuthError.disabled
  let tokenVersion ← db.userTokenVersion user.id
  return service.userForToken db.iam user tokenVersion

/-- `rotate_refresh_token`: the tables afterwards, and the new pair. -/
def LocalService.rotateRefreshToken (db : AuthDb) (refreshToken : String) (draw : Draw)
    (times : Times) : AuthDb × Except AuthError (LocalTokenClaims × String) :=
  match db.findLive (service.hashRefreshToken refreshToken) times.select with
  | none => (db, .error .invalidCredentials)
  | some row =>
    match service.localUserForToken db row.userId with
    | .error error => (db, .error error)
    | .ok user =>
      if user.tokenVersion ≠ row.tokenVersion then
        (db.revoke row.id times.finish "token_version_mismatch" none, .error .invalidCredentials)
      else
        match service.issueRefreshToken ranking db row.userId draw times with
        | .error error => (db, .error error)
        | .ok issued =>
          match issued.replacementId (service.hashRefreshToken draw.token) with
          | .error error => (issued, .error error)
          | .ok replacementId =>
            (issued.revoke row.id times.finish "rotated" (some replacementId),
              .ok (service.auth.issue user times.access, draw.token))

/-! ### The login route -/

/-- `map_login_error`. -/
def LocalService.mapLoginError : AuthError → ApiError
  | .disabled => { status := 403, errorCode := "ACCOUNT_DISABLED", message := "account disabled" }
  | .notProvisioned | .invalidCredentials | .invalidFormat | .invalidSignature | .invalidIssuer
  | .invalidAudience | .expired =>
    { status := 401, errorCode := "INVALID_CREDENTIALS", message := "invalid credentials" }
  | .locked time =>
    { status := 429, errorCode := "ACCOUNT_LOCKED"
      message := "account locked until " ++ service.rfc3339 time }
  | .database message | .internal message =>
    { status := 500, errorCode := "AUTH_ERROR", message }

/-- `login_local`. -/
def LocalService.loginLocal (db : IamDb) (username password : String)
    (times : Times) : IamDb × Except AuthError (LocalTokenClaims × LocalAuthenticatedUser) :=
  if service.auth.mode.isLocal then
    match service.authenticateLocalUser db times.select username password with
    | (db, .ok user) => (db, .ok (service.auth.issue user times.access, user))
    | (db, .error error) => (db, .error error.toAuthError)
  else
    (db, .error (.internal "local authentication is disabled in current auth mode"))

/-- `LocalLoginResponse`, without the lifetimes. -/
structure LocalLoginResponse where
  accessToken : LocalTokenClaims
  refreshToken : String
  user : LocalAuthenticatedUser

/-- `login_route`. -/
def LocalService.loginRoute (db : AuthDb) (username password : String) (draw : Draw) (times : Times) :
    AuthDb × Except ApiError LocalLoginResponse :=
  if (trim username).isEmpty || password.isEmpty then
    (db, .error (validationError "username and password are required"))
  else
    match service.loginLocal db.iam (trim username) password times with
    | (iam, .error error) => ({ db with iam }, .error (service.mapLoginError error))
    | (iam, .ok (accessToken, user)) =>
      match service.issueRefreshToken ranking { db with iam } user.id draw times with
      | .error error => ({ db with iam }, .error (service.mapLoginError error))
      | .ok issued => (issued, .ok { accessToken, refreshToken := draw.token, user })

/-! ### Fixed inputs -/

/-- The default settings, with passwords and tokens stored as they are. -/
def plainService : LocalService :=
  { auth :=
      { mode := .localMode, allowClaimFallback := true, localJwtTtlSeconds := 3600
        maxFailedAttempts := 5, lockoutSeconds := 900, refreshTtlSeconds := 604800
        refreshMaxSessions := 5, jwt := none }
    hashing :=
      { hash := fun _ password => password
        verify := fun candidate hash => candidate == hash
        verify_hash := by simp }
    hashRefreshToken := fun token => token
    rolePermissions := []
    rfc3339 := toString }

/-- A user with the password `password`. -/
def plainUser : IamUser :=
  { id := 1, username := some "first", subject := none, email := none, displayName := none
    status := "active", isProtected := false, tokenVersion := 1, passwordHash := some "password"
    mustChangePassword := false }

/-- A session of this user. -/
def plainSession (id : Uuid) (token : String) (createdAt : ℕ) : RefreshToken :=
  { id, userId := 1, tokenHash := token, tokenVersion := 1, createdAt, expiresAt := 1000
    revokedAt := none, revokedReason := none, replacedById := none }

/-- The user and their sessions. -/
def plainDb (refreshTokens : List RefreshToken) : AuthDb :=
  { iam := { IamDb.empty with users := [plainUser] }, refreshTokens }

/-- The newest first. -/
def plainRanking : Ranking RefreshToken.createdAt := .preferring _ fun _ => false

/-- All at one time. -/
def Times.atOnce (now : ℕ) : Times :=
  { select := now, access := now, issue := now, insert := now, enforce := now, finish := now }

/-! ### What the statements find and write -/

section Statements

variable {service : LocalService} {db db' : AuthDb} {row : RefreshToken} {userId : Uuid}

lemma getUser_ok {db : IamDb} :
    db.getUser userId = .ok user ↔ (db.users.find? fun user => user.id = userId) = some user := by
  rw [IamDb.getUser]
  cases db.users.find? fun user => user.id = userId <;> simp

lemma mem_of_getUser {db : IamDb} (h : db.getUser userId = .ok user) :
    user ∈ db.users ∧ user.id = userId :=
  ⟨mem_of_find?_eq_some (getUser_ok.1 h), by simpa using find?_some (getUser_ok.1 h)⟩

lemma userTokenVersion_ok :
    db.userTokenVersion userId = .ok version ↔
      ∃ user, db.iam.getUser userId = .ok user ∧ user.tokenVersion = version := by
  rw [AuthDb.userTokenVersion, mapError_ok, map_ok]

lemma findLive_some (h : db.findLive tokenHash now = some row) :
    row ∈ db.refreshTokens ∧ row.tokenHash = tokenHash ∧ row.Live now :=
  ⟨mem_of_find?_eq_some h, by simpa using find?_some h⟩

lemma insertRefreshToken_ok :
    db.insertRefreshToken row = .ok db' ↔
      row.id ∉ db.refreshTokens.map (·.id) ∧ row.tokenHash ∉ db.refreshTokens.map (·.tokenHash) ∧
        row.userId ∈ db.iam.users.map (·.id) ∧
        db' = { db with refreshTokens := db.refreshTokens ++ [row] } := by
  rw [AuthDb.insertRefreshToken]
  by_cases hid : row.id ∈ db.refreshTokens.map (·.id)
  · simp [hid]
  · rw [if_neg hid]
    by_cases hhash : row.tokenHash ∈ db.refreshTokens.map (·.tokenHash)
    · simp [hhash]
    · rw [if_neg hhash]
      by_cases huser : row.userId ∈ db.iam.users.map (·.id)
      · simp only [huser, not_true, if_false, Except.ok.injEq, hid, hhash, not_false_eq_true,
          true_and]
        exact eq_comm
      · simp [huser]

variable {ranking : Ranking RefreshToken.createdAt}

lemma issueRefreshToken_ok :
    service.issueRefreshToken ranking db userId draw times = .ok db' ↔
      ∃ version inserted, db.userTokenVersion userId = .ok version ∧
        db.insertRefreshToken
          (service.newRow userId version draw times.issue times.insert) = .ok inserted ∧
        db' = inserted.enforceRefreshSessionLimit ranking service.auth.refreshMaxSessions userId
          times.enforce := by
  rw [LocalService.issueRefreshToken, bind_ok]
  constructor
  · rintro ⟨version, hversion, h⟩
    obtain ⟨inserted, hinserted, h⟩ := bind_ok.1 h
    exact ⟨version, inserted, hversion, hinserted, (Except.ok.inj h).symm⟩
  · rintro ⟨version, inserted, hversion, hinserted, rfl⟩
    exact ⟨version, hversion, bind_ok.2 ⟨inserted, hinserted, rfl⟩⟩

/-- A rotation that ends well. -/
lemma rotateRefreshToken_ok
    (h : service.rotateRefreshToken ranking db token draw times = (db', .ok pair)) :
    ∃ row user issued replacementId,
      db.findLive (service.hashRefreshToken token) times.select = some row ∧
      service.localUserForToken db row.userId = .ok user ∧ user.tokenVersion = row.tokenVersion ∧
      service.issueRefreshToken ranking db row.userId draw times = .ok issued ∧
      issued.replacementId (service.hashRefreshToken draw.token) = .ok replacementId ∧
      db' = issued.revoke row.id times.finish "rotated" (some replacementId) ∧
      pair = (service.auth.issue user times.access, draw.token) := by
  rw [LocalService.rotateRefreshToken] at h
  split at h
  · cases h
  rename_i row hrow
  split at h
  · cases h
  rename_i user huser
  split at h
  · cases h
  rename_i hversion
  split at h
  · cases h
  rename_i issued hissued
  split at h
  · cases h
  rename_i replacementId hreplacement
  obtain ⟨rfl, hpair⟩ := Prod.mk.inj h
  exact ⟨row, user, issued, replacementId, hrow, huser, not_not.1 hversion, hissued, hreplacement, rfl,
    (Except.ok.inj hpair).symm⟩

end Statements

end OpenDefender.Admin
