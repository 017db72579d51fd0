import OpenDefender.Lib.Text
import OpenDefender.Taxonomy.Activation

/-!
Users, groups and roles of the admin API (`services/admin-api/src/iam.rs`, tables of
`migrations/0008_iam_schema.sql`, `0010`, `0019` to `0021`).

An operation of the service looks at its arguments, then reads what it has to check, one query after the
other, and then makes its change with one statement. There is no transaction around these, so the queries
and the change are separate steps here:

* `IamOperation.validate` is what is decided by the arguments alone.
* `IamOperation.checks` lists the queries that follow, `IamCheck.run` is one of them; a query may ask for
  another one.
* `IamOperation.write` is the change. Only `bootstrap_local_admin` needs several statements for it, and it
  has a transaction around them.

`IamOperation.perform` is an operation that nothing else interrupts.

Timestamps that are only written, and what the operations answer when they succeed, are left out.
-/

namespace OpenDefender.Admin

open Lib Text

/-! ### The tables -/

/-- A row of `iam_users`. -/
structure IamUser where
  id : Uuid
  username : Option String
  subject : Option String
  email : Option String
  displayName : Option String
  status : String
  isProtected : Bool
  tokenVersion : ℕ
  passwordHash : Option String
  mustChangePassword : Bool
  failedLoginAttempts : ℕ := 0
  lockedUntil : Option ℕ := none
  deriving DecidableEq, Repr

/-- A row of `iam_groups`. -/
structure IamGroup where
  id : Uuid
  name : String
  description : Option String
  status : String
  deriving DecidableEq, Repr

/-- A row of `iam_roles`. -/
structure IamRole where
  id : Uuid
  name : String
  deriving DecidableEq, Repr

/-- The tables. A membership is a group and a user, an assignment a user or a group and a role. -/
structure IamDb where
  users : List IamUser
  groups : List IamGroup
  roles : List IamRole
  groupMembers : List (Uuid × Uuid)
  userRoles : List (Uuid × Uuid)
  groupRoles : List (Uuid × Uuid)
  deriving DecidableEq, Repr

/-- The tables before anything is stored. -/
def IamDb.empty : IamDb :=
  { users := [], groups := [], roles := [], groupMembers := [], userRoles := [], groupRoles := [] }

-- every query for a membership or an assignment compares pairs of ids
instance lawfulBEqPair : LawfulBEq (Uuid × Uuid) := inferInstance

/-- `IamError`. -/
inductive IamError where
  | notFound (resource : String)
  | validation (message : String)
  | db (message : String)
  | invalidCredentials
  | disabled
  | locked (time : ℕ)
  | protectedUser
  | lastActiveAdmin
  deriving DecidableEq, Repr

/-- What PostgreSQL says of a row that a constraint refuses. -/
inductive Violation where
  | check (relation constraint : String)
  | unique (constraint : String)
  | foreignKey (relation constraint : String)

/-- The message of the database. -/
def Violation.message : Violation → String
  | .check relation constraint =>
    "new row for relation \"" ++ relation ++ "\" violates check constraint \"" ++ constraint ++ "\""
  | .unique constraint => "duplicate key value violates unique constraint \"" ++ constraint ++ "\""
  | .foreignKey relation constraint =>
    "insert or update on table \"" ++ relation ++ "\" violates foreign key constraint \"" ++
      constraint ++ "\""

/-- `IamError::Db` for a violation. -/
def Violation.toDb (violation : Violation) : IamError :=
  .db ("error returned from database: " ++ violation.message)

/-- `map_db_error` for a violation. -/
def Violation.toValidation (violation : Violation) : IamError := .validation violation.message

/-- A text that is missing or made of blanks. -/
def isBlank (value : Option String) : Bool := (value.getD "").toList.all (· == ' ')

/-- Another row has the value. Nulls are all different. -/
def isTaken (value : Option String) (others : List (Option String)) : Bool :=
  value.isSome && others.contains value

/-- `LOWER`, which leaves all but the ASCII letters as they are. -/
def lower (value : Option String) : Option String := value.map toAsciiLowercase

/-- The constraint of `iam_users` that a row violates beside the other rows: checks by their names first,
then the unique indexes as they were created. -/
def IamUser.violation (others : List IamUser) (row : IamUser) : Option Violation :=
  if isBlank row.username && isBlank row.email then
    some (.check "iam_users" "iam_users_identity_not_empty")
  else if row.status ≠ "active" ∧ row.status ≠ "disabled" then
    some (.check "iam_users" "iam_users_status_check")
  else if row.id ∈ others.map (·.id) then some (.unique "iam_users_pkey")
  else if isTaken row.subject (others.map (·.subject)) then some (.unique "iam_users_subject_key")
  else if isTaken row.email (others.map (·.email)) then some (.unique "iam_users_email_key")
  else if isTaken (lower row.username) (others.map fun o => lower o.username) then
    some (.unique "iam_users_username_lower_uidx")
  else if isTaken (lower row.email) (others.map fun o => lower o.email) then
    some (.unique "iam_users_email_lower_uidx")
  else none

/-- The constraint of `iam_groups` that a row violates beside the other rows. -/
def IamGroup.violation (others : List IamGroup) (row : IamGroup) : Option Violation :=
  if row.status ≠ "active" ∧ row.status ≠ "disabled" then
    some (.check "iam_groups" "iam_groups_status_check")
  else if row.id ∈ others.map (·.id) then some (.unique "iam_groups_pkey")
  else if row.name ∈ others.map (·.name) then some (.unique "iam_groups_name_key")
  else none

/-! ### The policy admins -/

variable (db : IamDb) (userId : Uuid)

/-- The role `policy-admin` is assigned to the user. -/
def IamDb.HoldsDirectly : Prop :=
  ∃ role ∈ db.roles, role.name = "policy-admin" ∧ (userId, role.id) ∈ db.userRoles

/-- The role is assigned to a group of the user. The status of the group does not count. -/
def IamDb.HoldsThroughGroup : Prop :=
  ∃ member ∈ db.groupMembers, member.2 = userId ∧
    ∃ role ∈ db.roles, role.name = "policy-admin" ∧ (member.1, role.id) ∈ db.groupRoles

/-- The condition both queries on policy admins have. -/
def IamDb.IsActivePolicyAdmin (user : IamUser) : Prop :=
  user.status = "active" ∧ (db.HoldsDirectly user.id ∨ db.HoldsThroughGroup user.id)

instance : Decidable (db.HoldsDirectly userId) :=
  inferInstanceAs (Decidable (∃ _ ∈ _, _))

instance : Decidable (db.HoldsThroughGroup userId) :=
  inferInstanceAs (Decidable (∃ _ ∈ _, _))

instance (user : IamUser) : Decidable (db.IsActivePolicyAdmin user) :=
  inferInstanceAs (Decidable (_ ∧ _))

/-- `user_is_active_policy_admin`. -/
def IamDb.userIsActivePolicyAdmin : Bool :=
  db.users.any fun user => user.id = userId ∧ db.IsActivePolicyAdmin user

/-- `active_policy_admin_count`. -/
def IamDb.activePolicyAdminCount : ℕ :=
  (db.users.filter fun user => db.IsActivePolicyAdmin user).length

/-! ### Operations -/

/-- `CreateUserRequest`. -/
structure CreateUserRequest where
  username : String
  subject : Option String
  email : Option String
  displayName : Option String
  status : Option String
  password : String
  mustChangePassword : Option Bool

/-- `UpdateUserRequest`. -/
structure UpdateUserRequest where
  username : Option String
  subject : Option String
  email : Option String
  displayName : Option String
  status : Option String

/-- `CreateGroupRequest`. -/
structure CreateGroupRequest where
  name : String
  description : Option String
  status : Option String

/-- `UpdateGroupRequest`. -/
structure UpdateGroupRequest where
  name : Option String
  description : Option String
  status : Option String

/-- The operations that write these tables. New rows come with the id drawn for them, and passwords with
their hash. `change_password` writes through `setUserPassword`. -/
inductive IamOperation where
  | createUser (id : Uuid) (payload : CreateUserRequest) (passwordHash : String)
  | updateUser (id : Uuid) (payload : UpdateUserRequest)
  | disableUser (id : Uuid)
  | enableUser (id : Uuid)
  | hardDeleteUser (id : Uuid)
  | createGroup (id : Uuid) (payload : CreateGroupRequest)
  | updateGroup (id : Uuid) (payload : UpdateGroupRequest)
  | deleteGroup (id : Uuid)
  | addGroupMember (groupId userId : Uuid)
  | removeGroupMember (groupId userId : Uuid)
  | assignRoleToUser (userId : Uuid) (role : String)
  | revokeRoleFromUser (userId : Uuid) (role : String)
  | assignRoleToGroup (groupId : Uuid) (role : String)
  | revokeRoleFromGroup (groupId : Uuid) (role : String)
  | setUserPassword (userId : Uuid) (password passwordHash : String) (mustChangePassword : Bool)
  | bootstrapLocalAdmin (id : Uuid) (defaultPassword passwordHash : String)

/-- The checks on a new password. -/
def checkPassword (password required : String) : Except IamError Unit :=
  if (trim password).isEmpty then .error (.validation required)
  else if (trim password).utf8ByteSize < 8 then
    .error (.validation "password must be at least 8 characters")
  else .ok ()

/-- What an operation refuses before it asks the database. -/
def IamOperation.validate : IamOperation → Except IamError Unit
  | .createUser _ payload _ =>
    if (trim payload.username).isEmpty then .error (.validation "username required")
    else checkPassword payload.password "password is required for user creation"
  | .createGroup _ payload =>
    if (trim payload.name).isEmpty then .error (.validation "name required") else .ok ()
  | .setUserPassword _ password _ _ => checkPassword password "password is required"
  | .bootstrapLocalAdmin _ defaultPassword _ =>
    if (trim defaultPassword).isEmpty then
      .error (.validation "OD_DEFAULT_ADMIN_PASSWORD cannot be empty")
    else .ok ()
  | _ => .ok ()

/-- The queries: `user_is_protected`, `user_is_active_policy_admin`, `active_policy_admin_count`,
`role_id_by_name`, and the one that `bootstrap_local_admin` starts with. -/
inductive IamCheck where
  | notProtected (userId : Uuid)
  | activeAdmin (userId : Uuid)
  | adminCount
  | roleId (name : String)
  | noDirectAdmin
  deriving DecidableEq

/-- What follows from a query: other queries come first and the id of a role may be known; or the
operation is over, with or without an error. -/
inductive CheckResult where
  | goOn (first : List IamCheck) (roleId : Option Uuid)
  | done
  | failed (error : IamError)

/-- One query. -/
def IamCheck.run : IamCheck → CheckResult
  | .notProtected userId =>
    match db.users.find? fun user => user.id = userId with
    | none => .failed (.notFound "user")
    | some user => if user.isProtected then .failed .protectedUser else .goOn [] none
  | .activeAdmin userId =>
    if db.userIsActivePolicyAdmin userId then .goOn [.adminCount] none else .goOn [] none
  | .adminCount =>
    if db.activePolicyAdminCount ≤ 1 then .failed .lastActiveAdmin else .goOn [] none
  | .roleId name =>
    match db.roles.find? fun role => role.name = name with
    | none => .failed (.validation ("unknown role: " ++ name))
    | some role => .goOn [] (some role.id)
  | .noDirectAdmin =>
    if db.users.any fun user => user.status = "active" ∧ db.HoldsDirectly user.id then .done
    else .goOn [] none

/-- `ensure_user_mutation_allowed`, as all callers use it. -/
def ensureUserMutationAllowed : List IamCheck :=
  [.notProtected userId, .activeAdmin userId]

/-- The update asks for the user to be disabled. -/
def UpdateUserRequest.disableRequested (payload : UpdateUserRequest) : Bool :=
  payload.status.any fun value => eqIgnoreAsciiCase value "disabled"

/-- The queries an operation starts with. -/
def IamOperation.checks : IamOperation → List IamCheck
  | .updateUser id payload =>
    (if payload.disableRequested then ensureUserMutationAllowed id else []) ++
      if payload.username.isSome then [.notProtected id] else []
  | .disableUser id => ensureUserMutationAllowed id
  | .hardDeleteUser id => ensureUserMutationAllowed id
  | .revokeRoleFromUser userId role =>
    (if eqIgnoreAsciiCase role "policy-admin" then ensureUserMutationAllowed userId else []) ++
      [.roleId role]
  | .assignRoleToUser _ role => [.roleId role]
  | .assignRoleToGroup _ role => [.roleId role]
  | .revokeRoleFromGroup _ role => [.roleId role]
  | .bootstrapLocalAdmin _ _ _ => [.noDirectAdmin]
  | _ => []

/-! ### Changes -/

/-- `INSERT INTO iam_users`. -/
def IamDb.insertUser (row : IamUser) (refuse : Violation → IamError) : Except IamError IamDb :=
  match row.violation db.users with
  | some violation => .error (refuse violation)
  | none => .ok { db with users := db.users ++ [row] }

/-- `UPDATE iam_users … WHERE id = userId`. -/
def IamDb.updateUserRow (change : IamUser → IamUser) : Except IamError IamDb :=
  match db.users.find? fun user => user.id = userId with
  | none => .error (.notFound "user")
  | some user =>
    match (change user).violation (db.users.filter fun other => other.id ≠ userId) with
    | some violation => .error violation.toDb
    | none =>
      .ok { db with users := db.users.map fun u => if u.id = userId then change u else u }

/-- `INSERT … ON CONFLICT DO NOTHING` of a pair. -/
def insertPair (pairs : List (Uuid × Uuid)) (pair : Uuid × Uuid) : List (Uuid × Uuid) :=
  if pair ∈ pairs then pairs else pairs ++ [pair]

/-- The row `create_user` inserts. -/
def CreateUserRequest.row (payload : CreateUserRequest) (id : Uuid) (passwordHash : String) :
    IamUser where
  id
  username := some (trim payload.username)
  subject := payload.subject
  email := (payload.email.map trim).filter fun value => !value.isEmpty
  displayName := payload.displayName
  status := payload.status.getD "active"
  isProtected := false
  tokenVersion := 1
  passwordHash := some passwordHash
  mustChangePassword := payload.mustChangePassword.getD true

/-- The columns `update_user` sets. -/
def IamUser.assign (user : IamUser) (payload : UpdateUserRequest) : IamUser :=
  { user with
    username := payload.username.or user.username
    subject := payload.subject.or user.subject
    email := payload.email.or user.email
    displayName := payload.displayName.or user.displayName
    status := payload.status.getD user.status
    tokenVersion :=
      if payload.status.getD user.status = "disabled" ∧ user.status ≠ "disabled" then
        user.tokenVersion + 1
      else user.tokenVersion }

/-- `DELETE FROM iam_users`, with the rows that refer to the user. -/
def IamDb.hardDeleteUser : Except IamError IamDb :=
  if userId ∈ db.users.map (·.id) then
    .ok { db with
      users := db.users.filter fun user => user.id ≠ userId
      groupMembers := db.groupMembers.filter fun member => member.2 ≠ userId
      userRoles := db.userRoles.filter fun assigned => assigned.1 ≠ userId }
  else .error (.notFound "user")

/-- The `INSERT` of `create_group`. -/
def IamDb.createGroup (id : Uuid) (payload : CreateGroupRequest) : Except IamError IamDb :=
  let row : IamGroup :=
    { id, name := trim payload.name, description := payload.description
      status := payload.status.getD "active" }
  match row.violation db.groups with
  | some violation => .error violation.toValidation
  | none => .ok { db with groups := db.groups ++ [row] }

/-- The columns `update_group` sets. -/
def IamGroup.assign (group : IamGroup) (payload : UpdateGroupRequest) : IamGroup :=
  { group with
    name := payload.name.getD group.name
    description := payload.description.or group.description
    status := payload.status.getD group.status }

/-- `update_group`. -/
def IamDb.updateGroup (id : Uuid) (payload : UpdateGroupRequest) : Except IamError IamDb :=
  match db.groups.find? fun group => group.id = id with
  | none => .error (.notFound "group")
  | some group =>
    match (group.assign payload).violation (db.groups.filter fun other => other.id ≠ id) with
    | some violation => .error violation.toDb
    | none =>
      .ok { db with groups := db.groups.map fun g => if g.id = id then g.assign payload else g }

/-- `delete_group`, with the rows that refer to the group. -/
def IamDb.deleteGroup (groupId : Uuid) : Except IamError IamDb :=
  if groupId ∈ db.groups.map (·.id) then
    .ok { db with
      groups := db.groups.filter fun group => group.id ≠ groupId
      groupMembers := db.groupMembers.filter fun member => member.1 ≠ groupId
      groupRoles := db.groupRoles.filter fun assigned => assigned.1 ≠ groupId }
  else .error (.notFound "group")

/-- `add_group_member`. -/
def IamDb.addGroupMember (groupId userId : Uuid) : Except IamError IamDb :=
  if groupId ∉ db.groups.map (·.id) then
    .error (Violation.foreignKey "iam_group_members" "iam_group_members_group_id_fkey").toDb
  else if userId ∉ db.users.map (·.id) then
    .error (Violation.foreignKey "iam_group_members" "iam_group_members_user_id_fkey").toDb
  else .ok { db with groupMembers := insertPair db.groupMembers (groupId, userId) }

/-- `remove_group_member`. -/
def IamDb.removeGroupMember (groupId userId : Uuid) : Except IamError IamDb :=
  if (groupId, userId) ∈ db.groupMembers then
    .ok { db with groupMembers := db.groupMembers.filter fun member => member ≠ (groupId, userId) }
  else .error (.notFound "membership")

/-- The `INSERT` of `assign_role_to_user`. -/
def IamDb.assignRoleToUser (userId roleId : Uuid) : Except IamError IamDb :=
  if userId ∉ db.users.map (·.id) then
    .error (Violation.foreignKey "iam_user_roles" "iam_user_roles_user_id_fkey").toDb
  else if roleId ∉ db.roles.map (·.id) then
    .error (Violation.foreignKey "iam_user_roles" "iam_user_roles_role_id_fkey").toDb
  else .ok { db with userRoles := insertPair db.userRoles (userId, roleId) }

/-- The `DELETE` of `revoke_role_from_user`. -/
def IamDb.revokeRoleFromUser (userId roleId : Uuid) : IamDb :=
  { db with userRoles := db.userRoles.filter fun assigned => assigned ≠ (userId, roleId) }

/-- The `INSERT` of `assign_role_to_group`. -/
def IamDb.assignRoleToGroup (groupId roleId : Uuid) : Except IamError IamDb :=
  if groupId ∉ db.groups.map (·.id) then
    .error (Violation.foreignKey "iam_group_roles" "iam_group_roles_group_id_fkey").toDb
  else if roleId ∉ db.roles.map (·.id) then
    .error (Violation.foreignKey "iam_group_roles" "iam_group_roles_role_id_fkey").toDb
  else .ok { db with groupRoles := insertPair db.groupRoles (groupId, roleId) }

/-- The `DELETE` of `revoke_role_from_group`. -/
def IamDb.revokeRoleFromGroup (groupId roleId : Uuid) : IamDb :=
  { db with groupRoles := db.groupRoles.filter fun assigned => assigned ≠ (groupId, roleId) }

/-- The user of `bootstrap_local_admin`: a new one, or the one with its email, which keeps what it has. -/
def IamDb.upsertLocalAdmin (id : Uuid) (passwordHash : String) : Except IamError (IamDb × Uuid) :=
  match db.users.find? fun user => user.email = some "admin@local" with
  | some user => do
    let db ← db.updateUserRow user.id fun user =>
      { user with
        username := user.username.or (some "admin")
        passwordHash := user.passwordHash.or (some passwordHash)
        isProtected := true }
    return (db, user.id)
  | none => do
    let db ← db.insertUser
      { id, username := some "admin", subject := none, email := some "admin@local"
        displayName := some "Default Admin", status := "active", isProtected := true
        tokenVersion := 1, passwordHash := some passwordHash, mustChangePassword := true }
      Violation.toDb
    return (db, id)

/-- The transaction of `bootstrap_local_admin`. -/
def IamDb.bootstrapLocalAdmin (id : Uuid) (passwordHash : String) : Except IamError IamDb := do
  let (db, adminId) ← db.upsertLocalAdmin id passwordHash
  match db.roles.find? fun role => role.name = "policy-admin" with
  | none => .error (.db "no rows returned by a query that expected to return at least one row")
  | some role => db.assignRoleToUser adminId role.id

/-- The change of an operation. The id of a role is what `role_id_by_name` has found. -/
def IamOperation.write (roleId : Option Uuid) : IamOperation → Except IamError IamDb
  | .createUser id payload passwordHash =>
    db.insertUser (payload.row id passwordHash) Violation.toValidation
  | .updateUser id payload => db.updateUserRow id fun user => user.assign payload
  | .disableUser id => db.updateUserRow id fun user =>
    { user with status := "disabled", tokenVersion := user.tokenVersion + 1 }
  | .enableUser id => db.updateUserRow id fun user => { user with status := "active" }
  | .hardDeleteUser id => db.hardDeleteUser id
  | .createGroup id payload => db.createGroup id payload
  | .updateGroup id payload => db.updateGroup id payload
  | .deleteGroup id => db.deleteGroup id
  | .addGroupMember groupId userId => db.addGroupMember groupId userId
  | .removeGroupMember groupId userId => db.removeGroupMember groupId userId
  | .assignRoleToUser userId role =>
    match roleId with
    | some roleId => db.assignRoleToUser userId roleId
    | none => .error (.validation ("unknown role: " ++ role))
  | .revokeRoleFromUser userId role =>
    match roleId with
    | some roleId => .ok (db.revokeRoleFromUser userId roleId)
    | none => .error (.validation ("unknown role: " ++ role))
  | .assignRoleToGroup groupId role =>
    match roleId with
    | some roleId => db.assignRoleToGroup groupId roleId
    | none => .error (.validation ("unknown role: " ++ role))
  | .revokeRoleFromGroup groupId role =>
    match roleId with
    | some roleId => .ok (db.revokeRoleFromGroup groupId roleId)
    | none => .error (.validation ("unknown role: " ++ role))
  | .setUserPassword userId _ passwordHash mustChangePassword => db.updateUserRow userId fun user =>
    { user with
      passwordHash := some passwordHash
      mustChangePassword
      tokenVersion := user.tokenVersion + 1
      failedLoginAttempts := 0
      lockedUntil := none }
  | .bootstrapLocalAdmin id _ passwordHash => db.bootstrapLocalAdmin id passwordHash

/-! ### Without interruption -/

/-- A query together with the one it asks for. -/
def IamCheck.settle : IamCheck → CheckResult
  | .activeAdmin userId =>
    if db.userIsActivePolicyAdmin userId then IamCheck.adminCount.run db else .goOn [] none
  | check => check.run db

/-- The queries in order, with the id of the role that has been found before: the one found in the end, or
the error, if there is one, with which the operation is over. -/
def settleChecks (db : IamDb) :
    List IamCheck → Option Uuid → Except (Option IamError) (Option Uuid)
  | [], roleId => .ok roleId
  | check :: rest, roleId =>
    match check.settle db with
    | .goOn _ found => settleChecks db rest (found.or roleId)
    | .done => .error none
    | .failed error => .error (some error)

/-- An operation. -/
def IamOperation.perform (operation : IamOperation) : Except IamError IamDb := do
  operation.validate
  match settleChecks db operation.checks none with
  | .ok roleId => operation.write db roleId
  | .error none => .ok db
  | .error (some error) => .error error

/-- The tables after an operation: a failed one has changed nothing. -/
def IamDb.after (operation : IamOperation) : IamDb :=
  (operation.perform db).toOption.getD db

end OpenDefender.Admin
