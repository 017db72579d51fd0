import OpenDefender.Admin.IamEffects
import OpenDefender.Admin.LocalAuth

/-!
A password that was accepted, and what it is good for.

The calls that set a password cut the whitespace around it off and hash the rest (`stored_password`). A
login and the check of the current password take what they are given as it is, so they pass exactly for
passwords without such whitespace: `accepted_password_iff`.
-/

namespace OpenDefender.System.Passwords

open Lib Text Table Admin Lib.Outcome List

/-- The calls that set a password. -/
inductive PasswordCall where
  | createUser (id : Uuid) (payload : CreateUserRequest)
  | setUserPassword (userId : Uuid) (password : String) (mustChangePassword : Bool)
  | changePassword (userId : Uuid) (currentPassword newPassword : String)

/-- The user whose password it sets. -/
def PasswordCall.userId : PasswordCall → Uuid
  | .createUser id _ => id
  | .setUserPassword userId _ _ => userId
  | .changePassword userId _ _ => userId

/-- The password it sets. -/
def PasswordCall.password : PasswordCall → String
  | .createUser _ payload => payload.password
  | .setUserPassword _ password _ => password
  | .changePassword _ _ newPassword => newPassword

/-- The tables after a call that accepts its password. -/
def PasswordCall.perform (hashing : PasswordHashing) (salt : ℕ) (db : IamDb) :
    PasswordCall → Except IamError IamDb
  | .createUser id payload => hashing.createUser salt db id payload
  | .setUserPassword userId password mustChangePassword =>
    hashing.setUserPassword salt db userId password mustChangePassword
  | .changePassword userId currentPassword newPassword =>
    hashing.changePassword salt db userId currentPassword newPassword

/-! ### What is stored -/

/-- The user has the hash of the trimmed password, which is not empty. -/
structure Stored (hashing : PasswordHashing) (salt : ℕ) (userId : Uuid) (password : String)
    (db : IamDb) : Prop where
  ids : Unique IamUser.id db.users
  hash : ∀ row ∈ db.users, row.id = userId →
    row.passwordHash = some (hashing.hash salt (trim password))
  nonempty : trim password ≠ ""

section Stored

variable {hashing : PasswordHashing} {salt : ℕ} {db db' : IamDb} {userId : Uuid} {password : String}

lemma trim_ne_of_checkPassword (h : checkPassword password required = .ok u) :
    trim password ≠ "" := by
  rw [checkPassword] at h
  split at h
  · cases h
  · rename_i hempty
    exact fun heq => hempty (String.isEmpty_iff.2 heq)

lemma stored_setUserPassword (hids : Unique IamUser.id db.users)
    (h : hashing.setUserPassword salt db userId password mustChangePassword = .ok db') :
    Stored hashing salt userId password db' := by
  obtain ⟨_, hcheck, h⟩ := bind_ok.1 h
  obtain ⟨_, -, -, -, rfl⟩ := updateUserRow_ok h
  refine ⟨hids.map fun row => ?_, fun row hrow hid => ?_, trim_ne_of_checkPassword hcheck⟩
  · split <;> rfl
  · obtain ⟨old, -, rfl⟩ := mem_map.1 hrow
    split at hid
    · rw [if_pos ‹_›]
    · rename_i hne
      exact absurd hid hne

lemma stored_createUser {id : Uuid} (hids : Unique IamUser.id db.users)
    (h : hashing.createUser salt db id payload = .ok db') :
    Stored hashing salt id payload.password db' := by
  obtain ⟨_, hvalidate, h⟩ := bind_ok.1 h
  simp only [IamOperation.write] at h
  obtain ⟨hnone, rfl⟩ := insertUser_ok h
  have hnew : id ∉ db.users.map (·.id) := (allowed_of_violation hnone).id
  refine ⟨hids.concat hnew, fun row hrow hid => ?_, ?_⟩
  · obtain hrow | hrow := mem_append.1 hrow
    · exact absurd (hid ▸ mem_map_of_mem hrow) hnew
    · rw [mem_singleton.1 hrow, CreateUserRequest.row]
  · rw [IamOperation.validate] at hvalidate
    split at hvalidate
    · cases hvalidate
    · exact trim_ne_of_checkPassword hvalidate

theorem stored_password {call : PasswordCall} (hids : Unique IamUser.id db.users)
    (h : call.perform hashing salt db = .ok db') :
    Stored hashing salt call.userId call.password db' := by
  cases call with
  | createUser id payload => exact stored_createUser hids h
  | setUserPassword userId password mustChangePassword => exact stored_setUserPassword hids h
  | changePassword userId currentPassword newPassword =>
    obtain ⟨_, -, h⟩ := bind_ok.1 h
    exact stored_setUserPassword hids h

end Stored

/-! ### What passes -/

section Checks

variable {service : LocalService} {salt : ℕ} {db : IamDb} {row : IamUser} {password : String}

lemma verify_stored_iff (hashing : PasswordHashing) (salt : ℕ) (password : String) :
    hashing.verify password (hashing.hash salt (trim password)) = true ↔
      trim password = password := by
  rw [hashing.verify_hash]
  exact eq_comm

/-- The check of the current password. -/
lemma checkCurrentPassword_iff (hashing : PasswordHashing)
    (h : Stored hashing salt row.id password db) (hrow : row ∈ db.users) :
    hashing.checkCurrentPassword db row.id password = .ok () ↔ trim password = password := by
  rw [PasswordHashing.checkCurrentPassword, h.ids.find?_key hrow]
  simp only [h.hash row hrow rfl]
  rw [← verify_stored_iff hashing salt]
  split <;> simp_all

/-- The check of a login that reads the row. -/
lemma authenticateLocalUser_cases (h : Stored service.hashing salt row.id password db)
    (hrow : db.loginRow identifier = some row) (hactive : row.status = "active")
    (hunlocked : ∀ time ∈ row.lockedUntil, time ≤ now) :
    (∃ user, user.id = row.id ∧ service.authenticateLocalUser db now identifier password =
        (db.setLogin row.id afterSuccess, .ok user)) ∧ trim password = password ∨
      (∃ db' error, service.authenticateLocalUser db now identifier password = (db', .error error)) ∧
        trim password ≠ password := by
  have hmem : row ∈ db.users := mem_of_find?_eq_some hrow
  have hhash : row.hashToVerify now = .ok (service.hashing.hash salt (trim password)) := by
    have hfilter : row.lockedUntil.filter (fun time => now < time) = none := by
      rw [Option.filter_eq_none_iff]
      intro time htime
      simpa using hunlocked time htime
    simp [IamUser.hashToVerify, hactive, hfilter, h.hash row hmem rfl]
  rw [LocalService.authenticateLocalUser, hrow]
  simp only [hhash]
  by_cases hverify : service.hashing.verify password (service.hashing.hash salt (trim password)) = true
  · rw [if_pos hverify]
    exact Or.inl ⟨⟨_, rfl, rfl⟩, (verify_stored_iff service.hashing salt password).1 hverify⟩
  · rw [if_neg hverify]
    exact Or.inr ⟨⟨_, _, rfl⟩, fun heq => hverify ((verify_stored_iff service.hashing salt password).2 heq)⟩

lemma loginRow_trim (db : IamDb) (identifier : String) :
    db.loginRow (trim identifier) = db.loginRow identifier := by
  refine congrArg (db.users.find? ·) (funext fun user => decide_eq_decide.2 ?_)
  rw [IamUser.MatchesLogin, IamUser.MatchesLogin, trim_trim]

lemma ids_setLogin (db : IamDb) (userId : Uuid) (columns : LoginColumns) :
    (db.setLogin userId columns).users.map (·.id) = db.users.map (·.id) := by
  refine map_key_map (fun user => ?_) db.users
  split <;> rfl

/-- A user with a new id and a new token is issued this token. -/
lemma exists_issueRefreshToken (service : LocalService) (ranking : Ranking RefreshToken.createdAt)
    (db : AuthDb) (userId : Uuid) (times : Times) (huser : userId ∈ db.iam.users.map (·.id))
    (hid : draw.id ∉ db.refreshTokens.map (·.id))
    (htoken : service.hashRefreshToken draw.token ∉ db.refreshTokens.map (·.tokenHash)) :
    ∃ db', service.issueRefreshToken ranking db userId draw times = .ok db' := by
  obtain ⟨row, hrow, rfl⟩ := mem_map.1 huser
  obtain ⟨found, hfound⟩ := Option.isSome_iff_exists.1
    (find?_isSome (p := fun user => user.id = row.id).2 ⟨row, hrow, by simp⟩)
  have hversion : db.userTokenVersion row.id = .ok found.tokenVersion :=
    userTokenVersion_ok.2 ⟨found, getUser_ok.2 hfound, rfl⟩
  let new := service.newRow row.id found.tokenVersion draw times.issue times.insert
  have hinserted : db.insertRefreshToken new =
      .ok { db with refreshTokens := db.refreshTokens ++ [new] } :=
    insertRefreshToken_ok.2 ⟨hid, htoken, huser, rfl⟩
  exact ⟨_, issueRefreshToken_ok.2 ⟨_, _, hversion, hinserted, rfl⟩⟩

end Checks

/-- **What an accepted password is good for.** After a call that has set it, a login that reads the row
of the user, active and unlocked, and the check of the current password both take the password exactly
when it has no whitespace around it; a login also needs a service that has local users. -/
theorem accepted_password_iff (service : LocalService) (ranking : Ranking RefreshToken.createdAt)
    (db db' : IamDb) (refreshTokens : List RefreshToken) (hids : Unique IamUser.id db.users)
    (call : PasswordCall) (salt : ℕ) (hcall : call.perform service.hashing salt db = .ok db')
    (identifier : String) (row : IamUser) (hrow : db'.loginRow identifier = some row)
    (huser : row.id = call.userId) (hidentifier : trim identifier ≠ "")
    (hactive : row.status = "active") (times : Times)
    (hunlocked : ∀ time ∈ row.lockedUntil, time ≤ times.select) (draw : Draw)
    (hid : draw.id ∉ refreshTokens.map (·.id))
    (htoken : service.hashRefreshToken draw.token ∉ refreshTokens.map (·.tokenHash)) :
    ((service.loginRoute ranking { iam := db', refreshTokens } identifier call.password draw
        times).2.isOk = true ↔
      service.auth.mode.isLocal = true ∧ trim call.password = call.password) ∧
    (service.hashing.checkCurrentPassword db' call.userId call.password = .ok () ↔
      trim call.password = call.password) := by
  have hstored : Stored service.hashing salt row.id call.password db' :=
    huser ▸ stored_password hids hcall
  have hmem : row ∈ db'.users := mem_of_find?_eq_some hrow
  refine ⟨?_, huser ▸ checkCurrentPassword_iff service.hashing hstored hmem⟩
  have hgiven : ((trim identifier).isEmpty || call.password.isEmpty) = false := by
    rw [Bool.or_eq_false_iff]
    refine ⟨Bool.eq_false_iff.2 fun h => hidentifier (String.isEmpty_iff.1 h),
      Bool.eq_false_iff.2 fun h => hstored.nonempty ?_⟩
    rw [String.isEmpty_iff.1 h]
    rfl
  rw [← loginRow_trim] at hrow
  rw [LocalService.loginRoute, if_neg (by simp [hgiven]), LocalService.loginLocal]
  by_cases hlocal : service.auth.mode.isLocal = true
  · rw [if_pos hlocal]
    simp only [hlocal, true_and]
    obtain ⟨⟨user, huserId, hauth⟩, htrim⟩ | ⟨⟨db'', error, hauth⟩, htrim⟩ :=
      authenticateLocalUser_cases hstored hrow hactive hunlocked
    · obtain ⟨issued, hissued⟩ := exists_issueRefreshToken service ranking
        { iam := db'.setLogin row.id afterSuccess, refreshTokens } row.id times
        (by rw [ids_setLogin]; exact mem_map_of_mem hmem) hid htoken
      simp only [hauth, huserId, hissued, htrim, iff_true]
      rfl
    · simp only [hauth, htrim, iff_false]
      exact Bool.false_ne_true
  · rw [if_neg hlocal]
    exact iff_of_false Bool.false_ne_true fun h => hlocal h.1

/-- A user is created with a password. -/
def createWith (password : String) : PasswordCall :=
  .createUser 1 { username := "first", subject := none, email := none, displayName := none
                  status := none, password, mustChangePassword := none }

/-- A password with a blank at its end is accepted, and neither a login with it nor a change of it passes. -/
theorem accepted_password_refused :
    ((createWith "password ").perform plainService.hashing 0 IamDb.empty).toOption.map (fun db =>
        (db.users.map (fun user => (user.status, user.lockedUntil)),
          ((plainService.loginRoute plainRanking
            { iam := db, refreshTokens := [] } "first" "password " { id := 7, token := "token" }
            (.atOnce 0)).2.toOption.map fun response => response.refreshToken),
          (plainService.hashing.checkCurrentPassword db 1 "password ").toOption)) =
      some ([("active", none)], none, none) := by
  decide +kernel

/-- Without the blank both pass. -/
theorem accepted_password_taken :
    ∃ db', (createWith "password").perform plainService.hashing 0 IamDb.empty = .ok db' ∧
      (plainService.loginRoute plainRanking
        { iam := db', refreshTokens := [] } "first" "password" { id := 7, token := "token" }
        (.atOnce 0)).2.isOk = true ∧
      plainService.hashing.checkCurrentPassword db' 1 "password" = .ok () := by
  have hend : ((createWith "password").perform plainService.hashing 0 IamDb.empty).toOption.any
      (fun db' => (db'.loginRow "first").any fun row =>
        row.id = 1 ∧ row.status = "active" ∧ row.lockedUntil = none) = true := by
    decide +kernel
  obtain ⟨db', hcall, hrow⟩ := (Option.any_eq_true _ _).1 hend
  obtain ⟨row, hrow, hfields⟩ := (Option.any_eq_true _ _).1 hrow
  obtain ⟨hid, hactive, hunlocked⟩ := of_decide_eq_true hfields
  have hcall := toOption_eq_some.1 hcall
  have hboth := accepted_password_iff plainService plainRanking IamDb.empty db' []
    (by decide) (createWith "password") 0 hcall "first" row hrow hid (by decide) hactive (.atOnce 0)
    (by simp [hunlocked]) { id := 7, token := "token" } (by simp) (by simp)
  exact ⟨db', hcall, hboth.1.2 ⟨rfl, by decide⟩, hboth.2.2 (by decide)⟩

end OpenDefender.System.Passwords
