import OpenDefender.Admin.IamEffects
import OpenDefender.Admin.LocalAuth
import OpenDefender.Lib.Pool
import OpenDefender.Lib.Run

/-!
Logins, rotations of refresh tokens and requests that overlap with each other and with changes of
passwords and users. Each statement on the database is a step of its own, and so is what a call computes
between two of them, since the clock may move on; a call can be given up at any point, when its connection
is lost.

A login reads the row, looks at status and lock, verifies the password and writes the columns of the login;
an exchange of a refresh token finds the row of the token, reads the status of the user and compares the
versions. Either then becomes a grant, which reads the version again, inserts the new refresh token,
enforces the limit and, for an exchange, revokes the old token and returns the new pair. A request with an
access token reads the status of the user and compares the versions. The service is one with local users.

The state also remembers what has happened: which users were changed, what their logins came to, which
tokens were issued and accepted, and for which refresh tokens a new pair was returned. Where tokens are
remembered, the `stamp` is the number of changes of the user that were complete when the check of
credentials was that the token comes from.

* `next` is one step; `Step` says what it can do.
-/

namespace OpenDefender.System.LocalSessions

open Lib Run Pool Admin Lib.Outcome

/-! ### Calls under way -/

/-- How far a login has got: the row has been read; it lets the password be checked against this hash; the
password has been checked, at this time. -/
inductive LoginStage where
  | read
  | checked (hash : String)
  | verified (right : Bool) (time stamp : ℕ)

/-- A login, with the row it has read. -/
structure Login where
  password : String
  row : IamUser
  stage : LoginStage

/-- How far an exchange has got: the row has been found; the user is active; the versions differ. -/
inductive ExchangeStage where
  | found
  | active (user : IamUser)
  | mismatched

/-- The exchange of a refresh token, with the row it has found. -/
structure Exchange where
  token : String
  row : RefreshToken
  stage : ExchangeStage

/-- How far a grant has got: nothing done; the version is read; the new token is inserted; the limit is
enforced. -/
inductive GrantStage where
  | start
  | versioned (version issue : ℕ)
  | inserted (tokenHash : String)
  | limited (tokenHash : String)

/-- The grant of a refresh token, for an exchange with the token and the row it takes. -/
structure Grant where
  userId : Uuid
  source : Option (String × Uuid)
  stamp : ℕ
  stage : GrantStage

/-- An access token, with its stamp. -/
structure Issued where
  claims : LocalTokenClaims
  stamp : ℕ

/-- What a login or a new password means for the counter of wrong passwords. -/
inductive LoginOutcome where
  | wrong (time : ℕ)
  | right
  | reset

/-- The database, the calls under way, and what has happened. -/
structure State where
  clock : ℕ
  db : AuthDb
  logins : List Login
  exchanges : List Exchange
  grants : List Grant
  accesses : List Issued
  changes : List Uuid
  outcomes : List (Uuid × LoginOutcome)
  origins : List (Uuid × ℕ)
  issued : List Issued
  accepted : List (ℕ × ℕ)
  returned : List String

/-- The state in which nothing has happened. -/
def start (clock : ℕ) (db : AuthDb) : State :=
  { clock, db, logins := [], exchanges := [], grants := [], accesses := [], changes := []
    outcomes := [], origins := [], issued := [], accepted := [], returned := [] }

variable (service : LocalService) (s : State) (i : ℕ)

/-- How often a user was changed. -/
def State.changesOf (userId : Uuid) : ℕ := s.changes.count userId

/-- The stamps of a refresh token. -/
def State.stampsOf (id : Uuid) : List ℕ :=
  (s.origins.filter fun origin => origin.1 = id).map (·.2)

/-! ### Steps -/

/-- The steps; a call under way is known by its place in the list. -/
inductive Event where
  | tick (elapsed : ℕ)
  | readLogin (identifier password : String) (userId : Uuid)
  | checkLogin (i : ℕ)
  | verifyLogin (i : ℕ)
  | writeLogin (i : ℕ)
  | present (token : String)
  | readStatus (i : ℕ)
  | compare (i : ℕ)
  | revokeMismatch (i : ℕ)
  | readVersion (i : ℕ)
  | insert (i : ℕ) (draw : Draw)
  | enforce (i : ℕ) (ranking : Ranking RefreshToken.createdAt)
  | finish (i : ℕ)
  | logout (token : String)
  | change (operation : IamOperation)
  | request (i : ℕ)
  | authorize (i : ℕ)
  | dropLogin (i : ℕ)
  | dropExchange (i : ℕ)
  | dropGrant (i : ℕ)
  | dropAccess (i : ℕ)

def State.leaveLogin : State := { s with logins := s.logins.eraseIdx i }

def State.leaveExchange : State := { s with exchanges := s.exchanges.eraseIdx i }

def State.leaveGrant : State := { s with grants := s.grants.eraseIdx i }

def State.leaveAccess : State := { s with accesses := s.accesses.eraseIdx i }

/-- The changes of a user after which their tokens are to be worthless: a new password, or the end of the
account. -/
def changedUser : IamOperation → Option Uuid
  | .setUserPassword userId _ _ _ => some userId
  | .disableUser id => some id
  | .updateUser id payload => if payload.status = some "disabled" then some id else none
  | _ => none

/-- Only a new password resets the counter. -/
def resets : IamOperation → List (Uuid × LoginOutcome)
  | .setUserPassword userId _ _ _ => [(userId, .reset)]
  | _ => []

/-- The right password has been written down: an access token is issued, and a refresh token follows. -/
def State.loggedIn (row : IamUser) (stamp : ℕ) : State :=
  { s with
    db := { s.db with iam := s.db.iam.setLogin row.id afterSuccess }
    logins := s.logins.eraseIdx i
    grants := s.grants ++ [{ userId := row.id, source := none, stamp, stage := .start }]
    outcomes := s.outcomes ++ [(row.id, .right)]
    issued := s.issued ++
      [{ claims := service.auth.issue (service.authenticatedUser s.db.iam row) s.clock, stamp }] }

/-- The wrong password has been counted. -/
def State.loginFailed (row : IamUser) (time : ℕ) : State :=
  { s with
    db := { s.db with iam := s.db.iam.setLogin row.id (service.auth.afterFailure row time) }
    logins := s.logins.eraseIdx i
    outcomes := s.outcomes ++ [(row.id, .wrong time)] }

/-- The refresh token is good: an access token is issued, and a refresh token follows. -/
def State.exchanged (token : String) (row : RefreshToken) (user : IamUser) : State :=
  { s with
    exchanges := s.exchanges.eraseIdx i
    grants := s.grants ++
      [{ userId := row.userId, source := some (token, row.id), stamp := s.changesOf row.userId
         stage := .start }]
    issued := s.issued ++
      [{ claims := service.auth.issue (service.userForToken s.db.iam user row.tokenVersion) s.clock
         stamp := s.changesOf row.userId }]
    accepted := s.accepted ++ (s.stampsOf row.id).map fun stamp => (stamp, s.changesOf row.userId) }

/-- One step. -/
def next : Event → Option State
  | .tick elapsed => some { s with clock := s.clock + elapsed }
  | .readLogin identifier password userId =>
    -- of several rows that match, the database takes one
    match s.db.iam.users.find? fun user => user.id = userId ∧ user.MatchesLogin identifier with
    | some row => some { s with logins := s.logins ++ [⟨password, row, .read⟩] }
    | none => some s
  | .checkLogin i =>
    match s.logins[i]? with
    | some ⟨password, row, .read⟩ =>
      match row.hashToVerify s.clock with
      | .ok hash => some { s with logins := s.logins.set i ⟨password, row, .checked hash⟩ }
      | .error _ => some (s.leaveLogin i)
    | _ => none
  | .verifyLogin i =>
    match s.logins[i]? with
    | some ⟨password, row, .checked hash⟩ =>
      some { s with
        logins := s.logins.set i ⟨password, row, .verified
          (service.hashing.verify password hash) s.clock (s.changesOf row.id)⟩ }
    | _ => none
  | .writeLogin i =>
    match s.logins[i]? with
    | some ⟨_, row, .verified true _ stamp⟩ => some (s.loggedIn service i row stamp)
    | some ⟨_, row, .verified false time _⟩ => some (s.loginFailed service i row time)
    | _ => none
  | .present token =>
    match s.db.findLive (service.hashRefreshToken token) s.clock with
    | some row => some { s with exchanges := s.exchanges ++ [⟨token, row, .found⟩] }
    | none => some s
  | .readStatus i =>
    match s.exchanges[i]? with
    | some ⟨token, row, .found⟩ =>
      match s.db.iam.getUser row.userId with
      | .ok user =>
        if user.status = "active" then
          some { s with exchanges := s.exchanges.set i ⟨token, row, .active user⟩ }
        else some (s.leaveExchange i)
      | .error _ => some (s.leaveExchange i)
    | _ => none
  | .compare i =>
    match s.exchanges[i]? with
    | some ⟨token, row, .active user⟩ =>
      match s.db.userTokenVersion row.userId with
      | .ok version =>
        if version = row.tokenVersion then some (s.exchanged service i token row user)
        else some { s with exchanges := s.exchanges.set i ⟨token, row, .mismatched⟩ }
      | .error _ => some (s.leaveExchange i)
    | _ => none
  | .revokeMismatch i =>
    match s.exchanges[i]? with
    | some ⟨_, row, .mismatched⟩ =>
      some { s with
        db := s.db.revoke row.id s.clock "token_version_mismatch" none
        exchanges := s.exchanges.eraseIdx i }
    | _ => none
  | .readVersion i =>
    match s.grants[i]? with
    | some ⟨userId, source, stamp, .start⟩ =>
      match s.db.userTokenVersion userId with
      | .ok version =>
        some { s with
          grants := s.grants.set i ⟨userId, source, stamp, .versioned version s.clock⟩ }
      | .error _ => some (s.leaveGrant i)
    | _ => none
  | .insert i draw =>
    match s.grants[i]? with
    | some ⟨userId, source, stamp, .versioned version issue⟩ =>
      match s.db.insertRefreshToken (service.newRow userId version draw issue s.clock) with
      | .ok db =>
        some { s with
          db
          grants := s.grants.set i
            ⟨userId, source, stamp, .inserted (service.hashRefreshToken draw.token)⟩
          origins := s.origins ++ [(draw.id, stamp)] }
      | .error _ => some (s.leaveGrant i)
    | _ => none
  | .enforce i ranking =>
    match s.grants[i]? with
    | some ⟨userId, source, stamp, .inserted tokenHash⟩ =>
      some { s with
        db := s.db.enforceRefreshSessionLimit ranking service.auth.refreshMaxSessions userId s.clock
        grants := s.grants.set i ⟨userId, source, stamp, .limited tokenHash⟩ }
    | _ => none
  | .finish i =>
    match s.grants[i]? with
    | some ⟨_, some (token, id), _, .limited tokenHash⟩ =>
      -- no step changes the id or the hash of a row, so the query for the id and the `UPDATE` are one
      match s.db.replacementId tokenHash with
      | .ok replacementId =>
        some { s with
          db := s.db.revoke id s.clock "rotated" (some replacementId)
          grants := s.grants.eraseIdx i
          returned := s.returned ++ [token] }
      | .error _ => some (s.leaveGrant i)
    | some ⟨_, none, _, .limited _⟩ => some (s.leaveGrant i)
    | _ => none
  | .logout token => some { s with db := service.revokeRefreshToken s.db token s.clock }
  | .change operation =>
    match changedUser operation with
    | some userId =>
      match operation.validate >>= fun _ => operation.write s.db.iam none with
      | .ok iam =>
        some { s with
          db := { s.db with iam }
          changes := s.changes ++ [userId]
          outcomes := s.outcomes ++ resets operation }
      | .error _ => some s
    | none => none
  | .request i =>
    match s.issued[i]? with
    | some token =>
      match token.claims.validate s.clock, s.db.iam.getUser token.claims.sub with
      | .ok _, .ok user =>
        if user.status = "active" then some { s with accesses := s.accesses ++ [token] }
        else some s
      | _, _ => some s
    | none => none
  | .authorize i =>
    match s.accesses[i]? with
    | some token =>
      match s.db.userTokenVersion token.claims.sub with
      | .ok version =>
        if version = token.claims.tokenVersion then
          some { s with
            accesses := s.accesses.eraseIdx i
            accepted := s.accepted ++ [(token.stamp, s.changesOf token.claims.sub)] }
        else some (s.leaveAccess i)
      | .error _ => some (s.leaveAccess i)
    | none => none
  | .dropLogin i => some (s.leaveLogin i)
  | .dropExchange i => some (s.leaveExchange i)
  | .dropGrant i => some (s.leaveGrant i)
  | .dropAccess i => some (s.leaveAccess i)

/-- What a step can do. -/
inductive Step (service : LocalService) (s : State) : Event → State → Prop
  | stay (e : Event) : Step service s e s
  | tick (elapsed : ℕ) : Step service s (.tick elapsed) { s with clock := s.clock + elapsed }
  | readLogin {identifier password : String} {row : IamUser} (hrow : row ∈ s.db.iam.users)
      (hmatch : row.MatchesLogin identifier) :
      Step service s (.readLogin identifier password row.id)
        { s with logins := s.logins ++ [⟨password, row, .read⟩] }
  | checkLogin {i : ℕ} {password hash : String} {row : IamUser}
      (hi : s.logins[i]? = some ⟨password, row, .read⟩) (hhash : row.hashToVerify s.clock = .ok hash) :
      Step service s (.checkLogin i)
        { s with logins := s.logins.set i ⟨password, row, .checked hash⟩ }
  | verifyLogin {i : ℕ} {password hash : String} {row : IamUser}
      (hi : s.logins[i]? = some ⟨password, row, .checked hash⟩) :
      Step service s (.verifyLogin i) { s with
        logins := s.logins.set i ⟨password, row, .verified
          (service.hashing.verify password hash) s.clock (s.changesOf row.id)⟩ }
  | loggedIn {i : ℕ} {password : String} {row : IamUser} {time stamp : ℕ}
      (hi : s.logins[i]? = some ⟨password, row, .verified true time stamp⟩) :
      Step service s (.writeLogin i) (s.loggedIn service i row stamp)
  | loginFailed {i : ℕ} {password : String} {row : IamUser} {time stamp : ℕ}
      (hi : s.logins[i]? = some ⟨password, row, .verified false time stamp⟩) :
      Step service s (.writeLogin i) (s.loginFailed service i row time)
  | present {token : String} {row : RefreshToken}
      (hrow : s.db.findLive (service.hashRefreshToken token) s.clock = some row) :
      Step service s (.present token)
        { s with exchanges := s.exchanges ++ [⟨token, row, .found⟩] }
  | readStatus {i : ℕ} {token : String} {row : RefreshToken} {user : IamUser}
      (hi : s.exchanges[i]? = some ⟨token, row, .found⟩)
      (huser : s.db.iam.getUser row.userId = .ok user) (hactive : user.status = "active") :
      Step service s (.readStatus i)
        { s with exchanges := s.exchanges.set i ⟨token, row, .active user⟩ }
  | exchanged {i : ℕ} {token : String} {row : RefreshToken} {user : IamUser}
      (hi : s.exchanges[i]? = some ⟨token, row, .active user⟩)
      (hversion : s.db.userTokenVersion row.userId = .ok row.tokenVersion) :
      Step service s (.compare i) (s.exchanged service i token row user)
  | mismatched {i : ℕ} {token : String} {row : RefreshToken} {user : IamUser}
      (hi : s.exchanges[i]? = some ⟨token, row, .active user⟩) :
      Step service s (.compare i)
        { s with exchanges := s.exchanges.set i ⟨token, row, .mismatched⟩ }
  | revokeMismatch {i : ℕ} {token : String} {row : RefreshToken}
      (hi : s.exchanges[i]? = some ⟨token, row, .mismatched⟩) :
      Step service s (.revokeMismatch i) { s with
        db := s.db.revoke row.id s.clock "token_version_mismatch" none
        exchanges := s.exchanges.eraseIdx i }
  | readVersion {i : ℕ} {userId : Uuid} {source : Option (String × Uuid)} {stamp version : ℕ}
      (hi : s.grants[i]? = some ⟨userId, source, stamp, .start⟩)
      (hversion : s.db.userTokenVersion userId = .ok version) :
      Step service s (.readVersion i)
        { s with grants := s.grants.set i ⟨userId, source, stamp, .versioned version s.clock⟩ }
  | insert {i : ℕ} {draw : Draw} {userId : Uuid} {source : Option (String × Uuid)}
      {stamp version issue : ℕ} {db : AuthDb}
      (hi : s.grants[i]? = some ⟨userId, source, stamp, .versioned version issue⟩)
      (hdb : s.db.insertRefreshToken (service.newRow userId version draw issue s.clock) = .ok db) :
      Step service s (.insert i draw) { s with
        db
        grants := s.grants.set i
          ⟨userId, source, stamp, .inserted (service.hashRefreshToken draw.token)⟩
        origins := s.origins ++ [(draw.id, stamp)] }
  | enforce {i : ℕ} {ranking : Ranking RefreshToken.createdAt} {userId : Uuid}
      {source : Option (String × Uuid)} {stamp : ℕ} {tokenHash : String}
      (hi : s.grants[i]? = some ⟨userId, source, stamp, .inserted tokenHash⟩) :
      Step service s (.enforce i ranking) { s with
        db := s.db.enforceRefreshSessionLimit ranking service.auth.refreshMaxSessions userId s.clock
        grants := s.grants.set i ⟨userId, source, stamp, .limited tokenHash⟩ }
  | finish {i : ℕ} {userId id replacementId : Uuid} {token tokenHash : String} {stamp : ℕ}
      (hi : s.grants[i]? = some ⟨userId, some (token, id), stamp, .limited tokenHash⟩) :
      Step service s (.finish i) { s with
        db := s.db.revoke id s.clock "rotated" (some replacementId)
        grants := s.grants.eraseIdx i
        returned := s.returned ++ [token] }
  | logout (token : String) :
      Step service s (.logout token) { s with db := service.revokeRefreshToken s.db token s.clock }
  | change {operation : IamOperation} {userId : Uuid} {iam : IamDb}
      (huser : changedUser operation = some userId)
      (hwrite : operation.write s.db.iam none = .ok iam) :
      Step service s (.change operation) { s with
        db := { s.db with iam }
        changes := s.changes ++ [userId]
        outcomes := s.outcomes ++ resets operation }
  | request {i : ℕ} {token : Issued} {user : IamUser} (hi : s.issued[i]? = some token)
      (huser : s.db.iam.getUser token.claims.sub = .ok user) (hactive : user.status = "active") :
      Step service s (.request i) { s with accesses := s.accesses ++ [token] }
  | authorize {i : ℕ} {token : Issued} (hi : s.accesses[i]? = some token)
      (hversion : s.db.userTokenVersion token.claims.sub = .ok token.claims.tokenVersion) :
      Step service s (.authorize i) { s with
        accesses := s.accesses.eraseIdx i
        accepted := s.accepted ++ [(token.stamp, s.changesOf token.claims.sub)] }
  | leaveLogin (e : Event) (i : ℕ) : Step service s e (s.leaveLogin i)
  | leaveExchange (e : Event) (i : ℕ) : Step service s e (s.leaveExchange i)
  | leaveGrant (e : Event) (i : ℕ) : Step service s e (s.leaveGrant i)
  | leaveAccess (e : Event) (i : ℕ) : Step service s e (s.leaveAccess i)

theorem step_of_next {service : LocalService} {s s' : State} {e : Event}
    (h : next service s e = some s') : Step service s e s' := by
  revert h
  fun_cases next service s e with
  | case2 identifier password userId row hfind =>
    rintro ⟨⟩
    have hmatch : row.id = userId ∧ row.MatchesLogin identifier := by
      simpa using List.find?_some hfind
    obtain ⟨rfl, hmatch⟩ := hmatch
    exact .readLogin (List.mem_of_find?_eq_some hfind) hmatch
  | case37 operation userId huser iam hwrite =>
    rintro ⟨⟩
    obtain ⟨_, -, hwrite⟩ := bind_ok.1 hwrite
    exact .change huser hwrite
  | _ =>
    -- there is no next state, or the branch is a step as it stands
    rintro ⟨⟩ <;> constructor <;> assumption

/-! ### The refresh tokens -/

/-- The same token at a later time: it may have been revoked, and then stays so. -/
structure Later (row row' : RefreshToken) : Prop where
  id : row'.id = row.id
  userId : row'.userId = row.userId
  tokenHash : row'.tokenHash = row.tokenHash
  tokenVersion : row'.tokenVersion = row.tokenVersion
  revoked : row.revokedAt ≠ none → row'.revokedAt ≠ none

lemma Later.refl (row : RefreshToken) : Later row row := ⟨rfl, rfl, rfl, rfl, fun h => h⟩

lemma later_ite {p : Prop} [Decidable p] :
    Later row (if p then { row with revokedAt := some time, revokedReason := reason, replacedById }
      else row) := by
  split
  · exact ⟨rfl, rfl, rfl, rfl, fun _ => Option.some_ne_none time⟩
  · exact .refl row

/-- The tokens are the same, but for some that are revoked now. -/
def Revokes (db db' : AuthDb) : Prop :=
  ∃ f, (∀ row, Later row (f row)) ∧ db' = { db with refreshTokens := db.refreshTokens.map f }

lemma revokes_revoke (db : AuthDb) (id : Uuid) (time : ℕ) (reason : String)
    (replacedById : Option Uuid) : Revokes db (db.revoke id time reason replacedById) :=
  ⟨_, fun _ => later_ite, rfl⟩

lemma revokes_enforce (db : AuthDb) (ranking : Ranking RefreshToken.createdAt) (limit : ℕ)
    (userId : Uuid) (time : ℕ) :
    Revokes db (db.enforceRefreshSessionLimit ranking limit userId time) :=
  ⟨_, fun _ => later_ite, rfl⟩

lemma revokes_logout (db : AuthDb) (token : String) (time : ℕ) :
    Revokes db (service.revokeRefreshToken db token time) :=
  ⟨_, fun _ => later_ite, rfl⟩

/-- A step revokes tokens, or it inserts a new one. -/
theorem step_tokens {service : LocalService} {s s' : State} {e : Event} (h : Step service s e s') :
    (∃ f, (∀ row, Later row (f row)) ∧ s'.db.refreshTokens = s.db.refreshTokens.map f) ∨
    ∃ new : RefreshToken, new.tokenHash ∉ s.db.refreshTokens.map (·.tokenHash) ∧
      s'.db.refreshTokens = s.db.refreshTokens ++ [new] := by
  have hrevokes {db : AuthDb} (h : Revokes s.db db) :
      ∃ f, (∀ row, Later row (f row)) ∧ db.refreshTokens = s.db.refreshTokens.map f := by
    obtain ⟨f, hlater, rfl⟩ := h
    exact ⟨f, hlater, rfl⟩
  cases h with
  | insert hi hdb =>
    obtain ⟨-, hhash, -, rfl⟩ := insertRefreshToken_ok.1 hdb
    exact Or.inr ⟨_, hhash, rfl⟩
  | revokeMismatch hi => exact Or.inl (hrevokes (revokes_revoke _ _ _ _ _))
  | enforce hi => exact Or.inl (hrevokes (revokes_enforce _ _ _ _ _))
  | finish hi => exact Or.inl (hrevokes (revokes_revoke _ _ _ _ _))
  | logout token => exact Or.inl (hrevokes (revokes_logout _ _ _ _))
  | _ => exact Or.inl ⟨id, Later.refl, (List.map_id _).symm⟩

/-! ### The users -/

/-- A new password counts the version on and clears the columns of the login. -/
structure Renewed (row row' : IamUser) : Prop where
  id : row'.id = row.id
  version : row'.tokenVersion = row.tokenVersion + 1
  attempts : row'.failedLoginAttempts = 0
  lock : row'.lockedUntil = none

/-- The end of an account counts the version on, unless it was at its end before. -/
structure Ended (row row' : IamUser) : Prop where
  id : row'.id = row.id
  status : row'.status ≠ "active"
  version : row'.tokenVersion = row.tokenVersion + 1 ∨
    row'.tokenVersion = row.tokenVersion ∧ row.status ≠ "active"
  attempts : row'.failedLoginAttempts = row.failedLoginAttempts
  lock : row'.lockedUntil = row.lockedUntil

lemma ended_assign (h : payload.status = some "disabled") (row : IamUser) :
    Ended row (row.assign payload) := by
  refine ⟨rfl, by simp [IamUser.assign, h], ?_, rfl, rfl⟩
  by_cases hdisabled : row.status = "disabled"
  · exact Or.inr ⟨by simp [IamUser.assign, h, hdisabled], by simp [hdisabled]⟩
  · exact Or.inl (by simp [IamUser.assign, h, hdisabled])

variable {userId : Uuid}

/-- A change changes the row of its user, in one of the two ways. -/
theorem users_change (huser : changedUser operation = some userId)
    (h : operation.write db none = .ok db') :
    ∃ change : IamUser → IamUser,
      (db'.users = db.users.map fun row => if row.id = userId then change row else row) ∧
      ((∃ password passwordHash mustChangePassword,
          operation = .setUserPassword userId password passwordHash mustChangePassword ∧
            ∀ row, Renewed row (change row)) ∨
        (resets operation = [] ∧ ∀ row, Ended row (change row))) := by
  cases operation with
  | updateUser id payload =>
    rw [changedUser] at huser
    split at huser
    · rename_i hstatus
      cases huser
      obtain ⟨_, -, -, -, rfl⟩ := updateUserRow_ok h
      exact ⟨_, rfl, Or.inr ⟨rfl, ended_assign hstatus⟩⟩
    · cases huser
  | disableUser id =>
    cases huser
    obtain ⟨_, -, -, -, rfl⟩ := updateUserRow_ok h
    exact ⟨_, rfl, Or.inr ⟨rfl, fun row => ⟨rfl, by simp, Or.inl rfl, rfl, rfl⟩⟩⟩
  | setUserPassword id password passwordHash mustChangePassword =>
    cases huser
    obtain ⟨_, -, -, -, rfl⟩ := updateUserRow_ok h
    exact ⟨_, rfl, Or.inl ⟨_, _, _, rfl, fun row => ⟨rfl, rfl, rfl, rfl⟩⟩⟩
  | _ => cases huser

end OpenDefender.System.LocalSessions
