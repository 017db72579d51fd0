import OpenDefender.Admin.LocalAuth
import OpenDefender.Lib.Table

/-!
Service accounts of the admin API (`services/admin-api/src/iam.rs`, tables of
`migrations/0008_iam_schema.sql` and `0024_iam_service_account_expiry.sql`): accounts with a secret that
is shown once, when it is issued, and is kept as a hash and a hint.

An operation writes the account with one statement, and its roles in a transaction that comes afterwards.
Each of these statements may fail, and one that fails has no effect; `Faults` says which do.

* `replaceServiceAccountRoles_ok_iff` says when the roles are written, and what they are then.
* `operation_keeps_on_error_iff`: an operation that answers with an error has left the tables as they were
  exactly when the error came before the account was written. An unknown role is noticed after that.

Timestamps that are only written and the log of events are left out.
-/

namespace OpenDefender.Admin

open Lib Text Lib.Outcome Lib.Table List

/-! ### Secrets and hints -/

/-- The last `n` bytes of a text, if they start with a character: to cut anywhere else is a panic. -/
def lastBytes (n : ℕ) : List Char → Option (List Char)
  | [] => if n = 0 then some [] else none
  | c :: rest => if ((c :: rest).map Char.utf8Size).sum = n then some (c :: rest) else lastBytes n rest

/-- `token_hint`; it may panic. -/
def tokenHint (token : String) : Option String :=
  if (trim token).utf8ByteSize ≤ 8 then some (trim token)
  else (lastBytes 8 (trim token).toList).map String.ofList

/-- What `generate_token` draws. -/
structure ServiceToken where
  text : String
  length_eq : text.toList.length = 48
  alphanumeric : ∀ c ∈ text.toList, isAsciiAlphanumeric c = true
  deriving DecidableEq

lemma utf8Size_of_alphanumeric {c : Char} (h : isAsciiAlphanumeric c = true) : c.utf8Size = 1 := by
  have hle : c.toNat ≤ 122 := (toNat_of_alphanumeric h).2
  rw [Char.utf8Size, if_pos]
  rw [UInt32.le_iff_toNat_le]
  exact hle.trans (by decide)

/-- A text of characters of one byte can be cut anywhere. -/
lemma lastBytes_isSome {n : ℕ} (hsize : ∀ c ∈ l, c.utf8Size = 1) (hn : n ≤ l.length) :
    (lastBytes n l).isSome := by
  induction l with
  | nil =>
    obtain rfl := Nat.le_zero.1 hn
    rfl
  | cons c l ih =>
    have hsum : ((c :: l).map Char.utf8Size).sum = l.length + 1 := by
      rw [map_congr_left hsize]
      simp [Nat.add_comm]
    rw [lastBytes, hsum]
    split_ifs with heq
    · rfl
    · refine ih (fun d hd => hsize d (mem_cons_of_mem c hd)) ?_
      rw [length_cons] at hn
      omega

/-- The hint of a drawn secret is no panic. -/
lemma ServiceToken.tokenHint_isSome (token : ServiceToken) : (tokenHint token.text).isSome := by
  have htrim : trim token.text = token.text :=
    trim_eq_self fun c hc => isWhitespace_of_alphanumeric (token.alphanumeric c hc)
  rw [tokenHint, htrim]
  split_ifs
  · rfl
  · rw [Option.isSome_map]
    refine lastBytes_isSome (fun c hc => utf8Size_of_alphanumeric (token.alphanumeric c hc)) ?_
    rw [token.length_eq]
    decide

/-- The hint of a drawn secret. -/
def ServiceToken.hint (token : ServiceToken) : String :=
  (tokenHint token.text).get token.tokenHint_isSome

lemma ServiceToken.tokenHint_text (token : ServiceToken) :
    tokenHint token.text = some token.hint :=
  (Option.some_get _).symm

/-! ### The tables -/

/-- A row of `iam_service_accounts`. -/
structure ServiceAccount where
  id : Uuid
  name : String
  description : Option String
  tokenHash : String
  tokenHint : Option String
  status : String
  expiresAt : Option ℤ
  deriving DecidableEq, Repr

/-- The tables of service accounts, beside that of the roles. An assignment is an account and a role. -/
structure ServiceAccountDb where
  roles : List IamRole
  roleKeys : Unique IamRole.id roles
  accounts : List ServiceAccount
  accountRoles : List (Uuid × Uuid)
  deriving DecidableEq

/-- The constraint of `iam_service_accounts` that a row violates beside the other rows. -/
def ServiceAccount.violation (others : List ServiceAccount) (row : ServiceAccount) : Option Violation :=
  if row.status ≠ "active" ∧ row.status ≠ "disabled" then
    some (.check "iam_service_accounts" "iam_service_accounts_status_check")
  else if row.id ∈ others.map (·.id) then some (.unique "iam_service_accounts_pkey")
  else if row.name ∈ others.map (·.name) then some (.unique "iam_service_accounts_name_key")
  else none

variable (db : ServiceAccountDb)

/-- The constraint of `iam_service_account_roles` that an assignment violates beside the others. -/
def ServiceAccountDb.roleViolation (others : List (Uuid × Uuid))
    (assignment : Uuid × Uuid) : Option Violation :=
  if assignment ∈ others then some (.unique "iam_service_account_roles_pkey")
  else if assignment.1 ∉ db.accounts.map (·.id) then
    some (.foreignKey "iam_service_account_roles" "iam_service_account_roles_service_account_id_fkey")
  else if assignment.2 ∉ db.roles.map (·.id) then
    some (.foreignKey "iam_service_account_roles" "iam_service_account_roles_role_id_fkey")
  else none

/-- Which statements of an operation fail, with the message of the database: the one that writes the
account, and those of `replace_service_account_roles`. -/
structure Faults where
  writeAccount : Option String
  selectRoles : Option String
  beginRoles : Option String
  deleteRoles : Option String
  insertRole : ℕ → Option String
  commitRoles : Option String

/-- No statement fails. -/
def Faults.none : Faults where
  writeAccount := .none
  selectRoles := .none
  beginRoles := .none
  deleteRoles := .none
  insertRole := fun _ => .none
  commitRoles := .none

/-- A statement that may fail instead of giving its answer. -/
def statement {α : Type} (fault : Option String) (answer : Except IamError α) : Except IamError α :=
  match fault with
  | some message => .error (.db message)
  | none => answer

/-! ### Roles of an account -/

/-- The rows of the roles with these names. -/
def ServiceAccountDb.rolesNamed (names : List String) : List IamRole :=
  db.roles.filter fun role => role.name ∈ names

/-- `role_ids_by_name`. -/
def ServiceAccountDb.roleIdsByName (faults : Faults) (names : List String) : Except IamError (List Uuid) :=
  if names.isEmpty then .ok []
  else do
    let rows ← statement faults.selectRoles (.ok (db.rolesNamed names))
    let missing := names.filter fun name => name ∉ rows.map (·.name)
    if missing.isEmpty then .ok (rows.map (·.id))
    else .error (.validation ("unknown role(s): " ++ join ", " missing))

/-- `INSERT INTO iam_service_account_roles`, one statement for each role. -/
def ServiceAccountDb.insertRoles (db : ServiceAccountDb) (faults : Faults) (id : Uuid) :
    ℕ → List (Uuid × Uuid) → List Uuid → Except IamError (List (Uuid × Uuid))
  | _, assignments, [] => .ok assignments
  | n, assignments, roleId :: rest => do
    let assignments ← statement (faults.insertRole n)
      (match db.roleViolation assignments (id, roleId) with
        | some violation => .error violation.toDb
        | none => .ok (assignments ++ [(id, roleId)]))
    db.insertRoles faults id (n + 1) assignments rest

/-- `replace_service_account_roles`. What it writes is in a transaction. -/
def ServiceAccountDb.replaceServiceAccountRoles (faults : Faults) (id : Uuid)
    (names : List String) : Except IamError ServiceAccountDb := do
  let roleIds ← db.roleIdsByName faults names
  statement faults.beginRoles (.ok ())
  let others ← statement faults.deleteRoles
    (.ok (db.accountRoles.filter fun assignment => assignment.1 ≠ id))
  let accountRoles ← db.insertRoles faults id 0 others roleIds
  statement faults.commitRoles (.ok { db with accountRoles })

/-! ### Operations -/

/-- `CreateServiceAccountRequest`. -/
structure CreateServiceAccountRequest where
  name : String
  description : Option String
  roles : List String
  status : Option String
  expiresAt : Option ℤ

/-- `UpdateServiceAccountRoles`. -/
structure UpdateServiceAccountRoles where
  roles : List String
  expiresAt : Option ℤ

/-- What an operation draws for a secret, and the time it starts at (microseconds). -/
structure SecretDraw where
  token : ServiceToken
  salt : ℕ
  now : ℤ

/-- How secrets are hashed, `OD_IAM_SERVICE_TOKEN_TTL_DAYS`, and the rows of `iam_role_permissions`, which
no operation writes. -/
structure ServiceAccountService where
  hashing : PasswordHashing
  tokenTtlDays : Option ℤ
  rolePermissions : List (Uuid × String)

variable (service : ServiceAccountService) (db : ServiceAccountDb) (faults : Faults)

/-- `default_service_account_expiry`. -/
def ServiceAccountService.defaultServiceAccountExpiry (now : ℤ) : ℤ :=
  now + max (service.tokenTtlDays.getD 90) 1 * (86400 * second)

/-- What an operation answers, and the tables it leaves. -/
abbrev ServiceAccountResult (α : Type) := Except IamError α × ServiceAccountDb

/-- The end of an operation: the account has been written, and its roles follow if there are any. -/
def ServiceAccountDb.finish (row : ServiceAccount)
    (names : List String) (token : ServiceToken) : ServiceAccountResult (ServiceAccount × String) :=
  if names.isEmpty then (.ok (row, token.text), db)
  else
    match db.replaceServiceAccountRoles faults row.id names with
    | .error error => (.error error, db)
    | .ok db => (.ok (row, token.text), db)

/-- `INSERT INTO iam_service_accounts`. -/
def ServiceAccountDb.insertAccount (row : ServiceAccount) : Except IamError ServiceAccountDb :=
  match row.violation db.accounts with
  | some violation => .error violation.toValidation
  | none => .ok { db with accounts := db.accounts ++ [row] }

variable (id : Uuid) (draw : SecretDraw)

/-- The row of a new account. -/
def ServiceAccountService.newAccount (payload : CreateServiceAccountRequest) : ServiceAccount where
  id := id
  name := trim payload.name
  description := payload.description
  tokenHash := service.hashing.hash draw.salt draw.token.text
  tokenHint := some draw.token.hint
  status := payload.status.getD "active"
  expiresAt := some (payload.expiresAt.getD (service.defaultServiceAccountExpiry draw.now))

/-- `create_service_account`. -/
def ServiceAccountService.createServiceAccount (payload : CreateServiceAccountRequest) :
    ServiceAccountResult (ServiceAccount × String) :=
  if (trim payload.name).isEmpty then (.error (.validation "name required"), db)
  else
    let row := service.newAccount id draw payload
    match statement faults.writeAccount (db.insertAccount row) with
    | .error error => (.error error, db)
    | .ok db => db.finish faults row payload.roles draw.token

/-- The row of an account with a new secret. -/
def ServiceAccountService.rotated
    (payload : Option UpdateServiceAccountRoles) (row : ServiceAccount) : ServiceAccount :=
  { row with
    tokenHash := service.hashing.hash draw.salt draw.token.text
    tokenHint := some draw.token.hint
    expiresAt := some
      ((payload.bind (·.expiresAt)).getD (service.defaultServiceAccountExpiry draw.now)) }

/-- `UPDATE iam_service_accounts … WHERE id = id RETURNING …`: the row that has been changed, if there is
one. -/
def ServiceAccountDb.updateAccount
    (change : ServiceAccount → ServiceAccount) : Option ServiceAccount × ServiceAccountDb :=
  ((db.accounts.find? fun row => row.id = id).map change,
    { db with accounts := db.accounts.map fun row => if row.id = id then change row else row })

/-- The roles of an update, if there are any. -/
def rolesOfUpdate (payload : Option UpdateServiceAccountRoles) : List String :=
  match payload with
  | some update => update.roles
  | none => []

/-- `rotate_service_account`. -/
def ServiceAccountService.rotateServiceAccount (id : Uuid) (payload : Option UpdateServiceAccountRoles) :
    ServiceAccountResult (ServiceAccount × String) :=
  match statement faults.writeAccount (.ok (db.updateAccount id (service.rotated draw payload))) with
  | .error error => (.error error, db)
  | .ok (none, db) => (.error (.notFound "service_account"), db)
  | .ok (some row, db) => db.finish faults row (rolesOfUpdate payload) draw.token

/-- `disable_service_account`. -/
def ServiceAccountDb.disableServiceAccount : ServiceAccountResult Unit :=
  match statement faults.writeAccount
    (.ok (db.updateAccount id fun row => { row with status := "disabled" })) with
  | .error error => (.error error, db)
  | .ok (none, db) => (.error (.notFound "service_account"), db)
  | .ok (some _, db) => (.ok (), db)

/-- The operations that write service accounts. -/
inductive ServiceAccountOperation where
  | create (id : Uuid) (draw : SecretDraw) (payload : CreateServiceAccountRequest)
  | rotate (draw : SecretDraw) (id : Uuid) (payload : Option UpdateServiceAccountRoles)
  | disable (id : Uuid)

/-- An operation: its error, if it has one, and the tables it leaves. -/
def ServiceAccountService.perform : ServiceAccountOperation → ServiceAccountResult Unit
  | .create id draw payload =>
    let result := service.createServiceAccount db faults id draw payload
    (result.1.map fun _ => (), result.2)
  | .rotate draw id payload =>
    let result := service.rotateServiceAccount db faults draw id payload
    (result.1.map fun _ => (), result.2)
  | .disable id => db.disableServiceAccount faults id

/-! ### Checking a secret -/

/-- The roles that are assigned to an account. -/
def ServiceAccountDb.rolesOf : List IamRole :=
  db.roles.filter fun role => (id, role.id) ∈ db.accountRoles

/-- `effective_permissions_for_service_account`. -/
def ServiceAccountService.effectivePermissionsForServiceAccount : EffectiveAccess where
  roles := ((db.rolesOf id).map (·.name)).dedup
  permissions := ((service.rolePermissions.filter fun granted =>
    granted.1 ∈ (db.rolesOf id).map (·.id)).map (·.2)).dedup

/-- `ServiceAccountPrincipal`. -/
structure ServiceAccountPrincipal where
  id : Uuid
  name : String
  roles : List String
  permissions : List String
  deriving DecidableEq, Repr

/-- The order in which the database gives the rows of a query that asks for none. -/
structure Scan where
  arrange : List ServiceAccount → List ServiceAccount
  perm : ∀ rows, (arrange rows).Perm rows

/-- The accounts that `verify_service_token` asks for. -/
def ServiceAccountDb.candidates (now : ℤ) (hint : String) : List ServiceAccount :=
  db.accounts.filter fun row =>
    row.status = "active" ∧ row.tokenHint = some hint ∧ row.expiresAt.all (now < ·)

/-- `verify_service_token`: the first candidate whose hash fits. It panics where `token_hint` does. -/
def ServiceAccountService.verifyServiceToken (scan : Scan)
    (db : ServiceAccountDb) (now : ℤ) (token : String) : Option (Option ServiceAccountPrincipal) :=
  (tokenHint token).map fun hint =>
    ((scan.arrange (db.candidates now hint)).find? fun row =>
      service.hashing.verify token row.tokenHash).map fun row =>
        let access := service.effectivePermissionsForServiceAccount db row.id
        { id := row.id, name := row.name, roles := access.roles, permissions := access.permissions }

/-! ### When the roles are written -/

lemma statement_ok {α : Type} {fault : Option String} {answer : Except IamError α} {a : α} :
    statement fault answer = .ok a ↔ fault = none ∧ answer = .ok a := by
  cases fault <;> simp [statement]

/-- All names are those of roles, and no statement on the way fails. -/
structure ServiceAccountDb.RolesAssignable (db : ServiceAccountDb) (faults : Faults)
    (names : List String) : Prop where
  known : ∀ name ∈ names, name ∈ db.roles.map (·.name)
  selectRoles : faults.selectRoles = none
  beginRoles : faults.beginRoles = none
  deleteRoles : faults.deleteRoles = none
  insertRole : ∀ n < (db.rolesNamed names).length, faults.insertRole n = none
  commitRoles : faults.commitRoles = none

/-- The assignments with those of an account replaced. -/
def ServiceAccountDb.assignmentsWith (names : List String) : List (Uuid × Uuid) :=
  (db.accountRoles.filter fun assignment => assignment.1 ≠ id) ++
    (db.rolesNamed names).map fun role => (id, role.id)

lemma ServiceAccountDb.known_iff (names : List String) :
    (names.filter fun name => name ∉ (db.rolesNamed names).map (·.name)).isEmpty = true ↔
      ∀ name ∈ names, name ∈ db.roles.map (·.name) := by
  simp only [List.isEmpty_iff, List.filter_eq_nil_iff, decide_eq_true_eq, not_not]
  refine forall₂_congr fun name hname => ?_
  simp only [rolesNamed, List.mem_map, List.mem_filter, decide_eq_true_eq]
  constructor
  · rintro ⟨role, ⟨hrole, -⟩, rfl⟩
    exact ⟨role, hrole, rfl⟩
  · rintro ⟨role, hrole, rfl⟩
    exact ⟨role, ⟨hrole, hname⟩, rfl⟩

variable {db : ServiceAccountDb} {faults : Faults} {names : List String}

lemma ServiceAccountDb.roleIdsByName_ok (hnames : names ≠ []) {roleIds : List Uuid} :
    db.roleIdsByName faults names = .ok roleIds ↔
      faults.selectRoles = none ∧ (∀ name ∈ names, name ∈ db.roles.map (·.name)) ∧
        roleIds = (db.rolesNamed names).map (·.id) := by
  rw [roleIdsByName, if_neg (by simpa using hnames), bind_ok]
  constructor
  · rintro ⟨rows, hrows, h⟩
    obtain ⟨hselect, hrows⟩ := statement_ok.1 hrows
    cases hrows
    simp only at h
    split_ifs at h with hmissing
    exact ⟨hselect, (db.known_iff names).1 hmissing, (Except.ok.inj h).symm⟩
  · rintro ⟨hselect, hknown, rfl⟩
    refine ⟨db.rolesNamed names, statement_ok.2 ⟨hselect, rfl⟩, ?_⟩
    exact if_pos ((db.known_iff names).2 hknown)

variable {id : Uuid}

/-- New assignments of roles to an account are refused only by a fault. -/
lemma ServiceAccountDb.insertRoles_ok (hid : id ∈ db.accounts.map (·.id)) {roleIds : List Uuid} {n : ℕ}
    {assignments result : List (Uuid × Uuid)} (hnodup : roleIds.Nodup)
    (hnew : ∀ roleId ∈ roleIds, (id, roleId) ∉ assignments)
    (hroles : ∀ roleId ∈ roleIds, roleId ∈ db.roles.map (·.id)) :
    db.insertRoles faults id n assignments roleIds = .ok result ↔
      (∀ k < roleIds.length, faults.insertRole (n + k) = none) ∧
        result = assignments ++ roleIds.map fun roleId => (id, roleId) := by
  induction roleIds generalizing n assignments with
  | nil =>
    rw [insertRoles]
    simp [eq_comm]
  | cons roleId rest ih =>
    obtain ⟨hnot, hrest⟩ := nodup_cons.1 hnodup
    have hviolation : db.roleViolation assignments (id, roleId) = none := by
      rw [roleViolation, if_neg (hnew roleId mem_cons_self), if_neg (by simpa using hid),
        if_neg (by simpa using hroles roleId mem_cons_self)]
    have hstill : ∀ other ∈ rest, (id, other) ∉ assignments ++ [(id, roleId)] := by
      intro other hother hmem
      obtain hmem | hmem := mem_append.1 hmem
      · exact hnew other (mem_cons_of_mem _ hother) hmem
      · obtain rfl : other = roleId := by simpa using hmem
        exact hnot hother
    have hfaults : (∀ k < (roleId :: rest).length, faults.insertRole (n + k) = none) ↔
        faults.insertRole n = none ∧
          ∀ k < rest.length, faults.insertRole (n + 1 + k) = none := by
      rw [length_cons, Nat.forall_lt_succ_left]
      simp only [Nat.add_zero, Nat.add_assoc, Nat.add_comm 1]
    rw [insertRoles, hviolation, bind_ok, hfaults]
    constructor
    · rintro ⟨assignments', hfirst, h⟩
      obtain ⟨hfault, hfirst⟩ := statement_ok.1 hfirst
      cases hfirst
      obtain ⟨hlater, rfl⟩ := (ih hrest hstill
        fun other hother => hroles other (mem_cons_of_mem _ hother)).1 h
      exact ⟨⟨hfault, hlater⟩, by simp⟩
    · rintro ⟨⟨hfault, hlater⟩, rfl⟩
      refine ⟨assignments ++ [(id, roleId)], statement_ok.2 ⟨hfault, rfl⟩, ?_⟩
      exact (ih hrest hstill fun other hother => hroles other (mem_cons_of_mem _ hother)).2
        ⟨hlater, by simp⟩

variable {db' : ServiceAccountDb}

/-- The roles of an account that exists are written if they can be assigned. -/
lemma ServiceAccountDb.replaceServiceAccountRoles_ok_iff (hid : id ∈ db.accounts.map (·.id))
    (hnames : names ≠ []) :
    db.replaceServiceAccountRoles faults id names = .ok db' ↔
      db.RolesAssignable faults names ∧
        db' = { db with accountRoles := db.assignmentsWith id names } := by
  have hnodup : ((db.rolesNamed names).map (·.id)).Nodup := db.roleKeys.filter _
  have hnew : ∀ roleId ∈ (db.rolesNamed names).map (·.id),
      (id, roleId) ∉ db.accountRoles.filter fun assignment => assignment.1 ≠ id := by
    intro roleId _ hmem
    simpa using (List.mem_filter.1 hmem).2
  have hroles : ∀ roleId ∈ (db.rolesNamed names).map (·.id), roleId ∈ db.roles.map (·.id) := by
    intro roleId hmem
    obtain ⟨role, hrole, rfl⟩ := List.mem_map.1 hmem
    exact mem_map_of_mem (mem_of_mem_filter hrole)
  have hresult : db.assignmentsWith id names =
      (db.accountRoles.filter fun assignment => assignment.1 ≠ id) ++
        ((db.rolesNamed names).map (·.id)).map fun roleId => (id, roleId) := by
    rw [assignmentsWith, map_map]
    rfl
  simp only [replaceServiceAccountRoles, bind_ok, statement_ok, roleIdsByName_ok hnames]
  constructor
  · rintro ⟨roleIds, ⟨hselect, hknown, rfl⟩, -, ⟨hbegin, -⟩, others, ⟨hdelete, hothers⟩,
      accountRoles, hinsert, hcommit, hdb⟩
    cases hothers
    cases hdb
    obtain ⟨hinserts, rfl⟩ := (db.insertRoles_ok hid hnodup hnew hroles).1 hinsert
    refine ⟨⟨hknown, hselect, hbegin, hdelete, fun n hn => ?_, hcommit⟩, by rw [hresult]⟩
    simpa using hinserts n (by simpa using hn)
  · rintro ⟨h, rfl⟩
    refine ⟨_, ⟨h.selectRoles, h.known, rfl⟩, (), ⟨h.beginRoles, trivial⟩, _, ⟨h.deleteRoles, rfl⟩,
      db.assignmentsWith id names, ?_, h.commitRoles, rfl⟩
    refine (db.insertRoles_ok hid hnodup hnew hroles).2 ⟨fun k hk => ?_, hresult⟩
    rw [Nat.zero_add]
    exact h.insertRole k (by simpa using hk)

/-! ### What an operation leaves -/

/-- An operation that writes no roles, or can write them. -/
def ServiceAccountDb.CanFinish (db : ServiceAccountDb) (faults : Faults) (names : List String) : Prop :=
  names = [] ∨ db.RolesAssignable faults names

/-- The tables with the roles of an account replaced, if there are any to write. -/
def ServiceAccountDb.withRoles (db : ServiceAccountDb) (id : Uuid) (names : List String) :
    ServiceAccountDb :=
  if names = [] then db else { db with accountRoles := db.assignmentsWith id names }

variable {row : ServiceAccount}

/-- The end of an operation on an account that exists: its roles, or an error and what was there. -/
lemma ServiceAccountDb.finish_cases (db : ServiceAccountDb) (hrow : row.id ∈ db.accounts.map (·.id))
    (faults : Faults) (names : List String) (token : ServiceToken) :
    (db.CanFinish faults names ∧
        db.finish faults row names token = (.ok (row, token.text), db.withRoles row.id names)) ∨
      (¬ db.CanFinish faults names ∧ ∃ error, db.finish faults row names token = (.error error, db)) := by
  by_cases hnames : names = []
  · refine Or.inl ⟨Or.inl hnames, ?_⟩
    rw [finish, withRoles, if_pos (by simp [hnames]), if_pos hnames]
  · have hnil : ¬ names.isEmpty = true := by simpa using hnames
    rw [finish, withRoles, if_neg hnil, if_neg hnames]
    cases hreplace : db.replaceServiceAccountRoles faults row.id names with
    | error error =>
      refine Or.inr ⟨?_, error, rfl⟩
      rintro (h | h)
      · exact hnames h
      · rw [(replaceServiceAccountRoles_ok_iff hrow hnames).2 ⟨h, rfl⟩] at hreplace
        cases hreplace
    | ok db' =>
      obtain ⟨h, rfl⟩ := (replaceServiceAccountRoles_ok_iff hrow hnames).1 hreplace
      exact Or.inl ⟨Or.inr h, rfl⟩

/-- Only the table of roles and the faults decide whether roles can be assigned. -/
lemma ServiceAccountDb.canFinish_withAccounts (db : ServiceAccountDb) (accounts : List ServiceAccount)
    (faults : Faults) (names : List String) :
    { db with accounts }.CanFinish faults names ↔ db.CanFinish faults names :=
  or_congr_right
    ⟨fun h => ⟨h.known, h.selectRoles, h.beginRoles, h.deleteRoles, h.insertRole, h.commitRoles⟩,
      fun h => ⟨h.known, h.selectRoles, h.beginRoles, h.deleteRoles, h.insertRole, h.commitRoles⟩⟩

variable {answer : ServiceAccount × String}

lemma ServiceAccountDb.finish_ok (hrow : row.id ∈ db.accounts.map (·.id)) {token : ServiceToken}
    (h : db.finish faults row names token = (.ok answer, db')) :
    db.CanFinish faults names ∧ db' = db.withRoles row.id names := by
  obtain ⟨hcan, hfinish⟩ | ⟨-, error, hfinish⟩ := db.finish_cases hrow faults names token
  · rw [hfinish] at h
    exact ⟨hcan, (Prod.ext_iff.1 h).2.symm⟩
  · rw [hfinish] at h
    cases (Prod.ext_iff.1 h).1

/-! ### Errors -/

/-- If there is an error, the accounts and their roles are as they were before. -/
def KeepsOnError {α : Type} (db : ServiceAccountDb) (result : ServiceAccountResult α) : Prop :=
  ∀ error, result.1 = .error error →
    result.2.accounts = db.accounts ∧ result.2.accountRoles = db.accountRoles

/-- The error of an operation comes before the account is written: the write is refused or changes
nothing, or nothing can fail after it. -/
def ServiceAccountService.FailsEarly (service : ServiceAccountService) (db : ServiceAccountDb)
    (faults : Faults) : ServiceAccountOperation → Prop
  | .create id draw payload =>
    (trim payload.name).isEmpty = true ∨ faults.writeAccount.isSome = true ∨
      ((service.newAccount id draw payload).violation db.accounts).isSome = true ∨
      db.CanFinish faults payload.roles
  | .rotate draw id payload =>
    faults.writeAccount.isSome = true ∨
      (∀ row ∈ db.accounts, row.id = id → service.rotated draw payload row = row) ∨
      db.CanFinish faults (rolesOfUpdate payload)
  | .disable _ => True

lemma keepsOnError_self {α : Type} (db : ServiceAccountDb) (answer : Except IamError α) :
    KeepsOnError db (answer, db) :=
  fun _ _ => ⟨rfl, rfl⟩

/-- What is decided by the error alone does not change with the rest of the answer. -/
lemma keepsOnError_map {α β : Type} {result : ServiceAccountResult α} {f : α → β} :
    KeepsOnError db (result.1.map f, result.2) ↔ KeepsOnError db result := by
  obtain ⟨answer, db'⟩ := result
  cases answer <;> simp [KeepsOnError, Except.map]

/-- Once the accounts have been written, an error shows unless the write changed nothing. -/
lemma ServiceAccountDb.finish_keeps_iff (db : ServiceAccountDb) {accounts : List ServiceAccount}
    (hrow : row.id ∈ accounts.map (·.id)) (faults : Faults) (names : List String) (token : ServiceToken) :
    KeepsOnError db ({ db with accounts }.finish faults row names token) ↔
      accounts = db.accounts ∨ db.CanFinish faults names := by
  rw [← db.canFinish_withAccounts accounts]
  obtain ⟨hcan, hfinish⟩ | ⟨hcannot, error, hfinish⟩ :=
    { db with accounts }.finish_cases hrow faults names token
  · rw [hfinish]
    exact iff_of_true (fun error h => by cases h) (Or.inr hcan)
  · rw [hfinish, or_iff_left hcannot]
    exact ⟨fun h => (h error rfl).1, fun h _ _ => ⟨h, rfl⟩⟩

lemma ServiceAccountService.createServiceAccount_keeps_iff (service : ServiceAccountService)
    (db : ServiceAccountDb) (faults : Faults) (id : Uuid) (draw : SecretDraw)
    (payload : CreateServiceAccountRequest) :
    KeepsOnError db (service.createServiceAccount db faults id draw payload) ↔
      service.FailsEarly db faults (.create id draw payload) := by
  rw [createServiceAccount, FailsEarly]
  split_ifs with hname
  · exact iff_of_true (keepsOnError_self db _) (Or.inl hname)
  rw [or_iff_right hname]
  cases faults.writeAccount with
  | some message => exact iff_of_true (keepsOnError_self db _) (Or.inl rfl)
  | none =>
    simp only [statement, ServiceAccountDb.insertAccount]
    cases (service.newAccount id draw payload).violation db.accounts with
    | some violation => exact iff_of_true (keepsOnError_self db _) (Or.inr (Or.inl rfl))
    | none =>
      refine (db.finish_keeps_iff ?_ faults payload.roles draw.token).trans ?_
      · simp
      · simp

/-- An update of one row changes nothing exactly when it leaves this row as it is. -/
lemma ServiceAccountDb.updateAccount_accounts_eq_iff (db : ServiceAccountDb) (id : Uuid)
    (change : ServiceAccount → ServiceAccount) :
    (db.updateAccount id change).2.accounts = db.accounts ↔
      ∀ row ∈ db.accounts, row.id = id → change row = row := by
  have hself : db.accounts.map (fun row => row) = db.accounts := map_id' _
  calc (db.updateAccount id change).2.accounts = db.accounts
      ↔ (db.updateAccount id change).2.accounts = db.accounts.map fun row => row := by rw [hself]
    _ ↔ _ := map_inj_left
    _ ↔ _ := ?_
  refine forall₂_congr fun row _ => ?_
  by_cases hid : row.id = id <;> simp [hid]

variable {change : ServiceAccount → ServiceAccount}

lemma ServiceAccountDb.updateAccount_none (h : (db.updateAccount id change).1 = none) :
    (db.updateAccount id change).2.accounts = db.accounts := by
  rw [db.updateAccount_accounts_eq_iff]
  intro row hrow hid
  exact absurd (decide_eq_true hid) (find?_eq_none.1 (Option.map_eq_none_iff.1 h) row hrow)

lemma ServiceAccountDb.updateAccount_some (h : (db.updateAccount id change).1 = some row) :
    row ∈ (db.updateAccount id change).2.accounts := by
  obtain ⟨found, hfind, rfl⟩ := Option.map_eq_some_iff.1 h
  have hid : found.id = id := by simpa using find?_some hfind
  refine List.mem_map.2 ⟨found, mem_of_find?_eq_some hfind, ?_⟩
  rw [if_pos hid]

lemma ServiceAccountService.rotateServiceAccount_keeps_iff (service : ServiceAccountService)
    (db : ServiceAccountDb) (faults : Faults) (draw : SecretDraw) (id : Uuid)
    (payload : Option UpdateServiceAccountRoles) :
    KeepsOnError db (service.rotateServiceAccount db faults draw id payload) ↔
      service.FailsEarly db faults (.rotate draw id payload) := by
  rw [rotateServiceAccount, FailsEarly, ← db.updateAccount_accounts_eq_iff]
  cases faults.writeAccount with
  | some message => exact iff_of_true (keepsOnError_self db _) (Or.inl rfl)
  | none =>
    rw [or_iff_right (by simp)]
    simp only [statement]
    split
    · rename_i hwrite
      cases hwrite
    · rename_i hwrite
      obtain ⟨hnone, rfl⟩ := Prod.ext_iff.1 (Except.ok.inj hwrite)
      have hsame := ServiceAccountDb.updateAccount_none hnone
      exact iff_of_true (fun _ _ => ⟨hsame, rfl⟩) (Or.inl hsame)
    · rename_i hwrite
      obtain ⟨hsome, rfl⟩ := Prod.ext_iff.1 (Except.ok.inj hwrite)
      have hrow := ServiceAccountDb.updateAccount_some hsome
      exact db.finish_keeps_iff (mem_map_of_mem hrow) faults (rolesOfUpdate payload) draw.token

lemma ServiceAccountDb.disableServiceAccount_keeps (db : ServiceAccountDb) (faults : Faults)
    (id : Uuid) : KeepsOnError db (db.disableServiceAccount faults id) := by
  rw [disableServiceAccount]
  split
  · exact keepsOnError_self db _
  · rename_i hwrite
    obtain ⟨-, hwrite⟩ := statement_ok.1 hwrite
    obtain ⟨hnone, rfl⟩ := Prod.ext_iff.1 (Except.ok.inj hwrite)
    exact fun _ _ => ⟨updateAccount_none hnone, rfl⟩
  · exact fun _ h => nomatch h

/-- **Errors of operations on service accounts.** The tables are as before exactly when the error comes
before the account is written. -/
theorem operation_keeps_on_error_iff (service : ServiceAccountService) (db : ServiceAccountDb)
    (faults : Faults) (operation : ServiceAccountOperation) :
    KeepsOnError db (service.perform db faults operation) ↔ service.FailsEarly db faults operation := by
  cases operation with
  | create id draw payload =>
    exact keepsOnError_map.trans (service.createServiceAccount_keeps_iff db faults id draw payload)
  | rotate draw id payload =>
    exact keepsOnError_map.trans (service.rotateServiceAccount_keeps_iff db faults draw id payload)
  | disable id =>
    exact iff_of_true (db.disableServiceAccount_keeps faults id) trivial

/-! ### Success -/

/-- What an operation that succeeds does: it writes the account, and the roles if there are any. -/
inductive ServiceAccountService.Performs (service : ServiceAccountService) (db : ServiceAccountDb) :
    ServiceAccountOperation → ServiceAccountDb → Prop
  | create {id : Uuid} {draw : SecretDraw} {payload : CreateServiceAccountRequest}
      (hnew : id ∉ db.accounts.map (·.id))
      (hknown : ∀ name ∈ payload.roles, name ∈ db.roles.map (·.name)) :
      service.Performs db (.create id draw payload)
        ({ db with accounts := db.accounts ++ [service.newAccount id draw payload] }.withRoles id
          payload.roles)
  | rotate {draw : SecretDraw} {id : Uuid} {payload : Option UpdateServiceAccountRoles}
      (hid : id ∈ db.accounts.map (·.id))
      (hknown : ∀ name ∈ rolesOfUpdate payload, name ∈ db.roles.map (·.name)) :
      service.Performs db (.rotate draw id payload)
        ((db.updateAccount id (service.rotated draw payload)).2.withRoles id (rolesOfUpdate payload))
  | disable {id : Uuid} (hid : id ∈ db.accounts.map (·.id)) :
      service.Performs db (.disable id)
        (db.updateAccount id fun row => { row with status := "disabled" }).2

lemma ServiceAccountDb.CanFinish.known (h : db.CanFinish faults names) :
    ∀ name ∈ names, name ∈ db.roles.map (·.name) := by
  obtain rfl | h := h
  · simp
  · exact h.known

lemma ServiceAccount.violation_none {others : List ServiceAccount} (h : row.violation others = none) :
    row.id ∉ others.map (·.id) := by
  rw [violation] at h
  split_ifs at h with _ hid
  exact hid

/-- The row that an update gives back has the id it was asked for, and it was there before. -/
lemma ServiceAccountDb.id_of_updateAccount (h : (db.updateAccount id change).1 = some row)
    (hchange : ∀ row, (change row).id = row.id) :
    row.id = id ∧ id ∈ db.accounts.map (·.id) := by
  obtain ⟨found, hfind, rfl⟩ := Option.map_eq_some_iff.1 h
  have hid : found.id = id := by simpa using find?_some hfind
  exact ⟨(hchange found).trans hid, hid ▸ mem_map_of_mem (mem_of_find?_eq_some hfind)⟩

variable {service : ServiceAccountService}

lemma ServiceAccountService.performs_of_create {draw : SecretDraw} {payload : CreateServiceAccountRequest}
    (h : service.createServiceAccount db faults id draw payload = (.ok answer, db')) :
    service.Performs db (.create id draw payload) db' := by
  rw [createServiceAccount] at h
  split_ifs at h
  · cases (Prod.ext_iff.1 h).1
  simp only at h
  split at h
  · cases (Prod.ext_iff.1 h).1
  · rename_i hwrite
    obtain ⟨-, hinsert⟩ := statement_ok.1 hwrite
    rw [ServiceAccountDb.insertAccount] at hinsert
    split at hinsert
    · cases hinsert
    · rename_i hviolation
      cases hinsert
      obtain ⟨hcan, rfl⟩ := ServiceAccountDb.finish_ok (by simp) h
      exact .create (ServiceAccount.violation_none hviolation) hcan.known

lemma ServiceAccountService.performs_of_rotate {draw : SecretDraw}
    {payload : Option UpdateServiceAccountRoles}
    (h : service.rotateServiceAccount db faults draw id payload = (.ok answer, db')) :
    service.Performs db (.rotate draw id payload) db' := by
  rw [rotateServiceAccount] at h
  split at h
  · cases (Prod.ext_iff.1 h).1
  · cases (Prod.ext_iff.1 h).1
  · rename_i hwrite
    obtain ⟨-, hwrite⟩ := statement_ok.1 hwrite
    obtain ⟨hsome, rfl⟩ := Prod.ext_iff.1 (Except.ok.inj hwrite)
    have hrow := ServiceAccountDb.updateAccount_some hsome
    obtain ⟨rfl, hid⟩ := ServiceAccountDb.id_of_updateAccount hsome fun _ => rfl
    obtain ⟨hcan, rfl⟩ := ServiceAccountDb.finish_ok (mem_map_of_mem hrow) h
    exact .rotate hid hcan.known

lemma ServiceAccountService.performs_of_disable (h : db.disableServiceAccount faults id = (.ok (), db')) :
    service.Performs db (.disable id) db' := by
  rw [ServiceAccountDb.disableServiceAccount] at h
  split at h
  · cases (Prod.ext_iff.1 h).1
  · cases (Prod.ext_iff.1 h).1
  · rename_i hwrite
    obtain ⟨-, hwrite⟩ := statement_ok.1 hwrite
    obtain ⟨-, rfl⟩ := Prod.mk.inj h
    obtain ⟨hsome, rfl⟩ := Prod.ext_iff.1 (Except.ok.inj hwrite)
    obtain ⟨-, hid⟩ := ServiceAccountDb.id_of_updateAccount hsome fun _ => rfl
    exact .disable hid

lemma ServiceAccountService.performs_of_perform {operation : ServiceAccountOperation}
    (h : service.perform db faults operation = (.ok (), db')) : service.Performs db operation db' := by
  cases operation with
  | create id draw payload =>
    obtain ⟨hanswer, hdb⟩ := Prod.mk.inj h
    obtain ⟨answer, hok, -⟩ := map_ok.1 hanswer
    exact performs_of_create (Prod.ext hok hdb)
  | rotate draw id payload =>
    obtain ⟨hanswer, hdb⟩ := Prod.mk.inj h
    obtain ⟨answer, hok, -⟩ := map_ok.1 hanswer
    exact performs_of_rotate (Prod.ext hok hdb)
  | disable id => exact performs_of_disable h

/-! ### Fixed inputs -/

/-- Secrets are stored as they are, and last for the default time. -/
def plainAccounts : ServiceAccountService :=
  { hashing := plainService.hashing, tokenTtlDays := none, rolePermissions := [] }

/-- A secret. -/
def sampleToken : ServiceToken where
  text := "abcdefghijklmnopqrstuvwxyzABCDEFGHIJKLMNOPQRSTUV"
  length_eq := by decide
  alphanumeric := all_eq_true.1 (by decide +kernel)

/-- One role, and no accounts. -/
def noAccounts : ServiceAccountDb :=
  { roles := [⟨1, "auditor"⟩], roleKeys := by decide, accounts := [], accountRoles := [] }

/-- **A failed creation that creates**: the name of a role is mistyped, the answer is an error, and the
account is there all the same. -/
theorem failed_creation_leaves_account :
    let result := plainAccounts.createServiceAccount noAccounts .none 7
      { token := sampleToken, salt := 0, now := 0 }
      { name := "ci", description := none, roles := ["auditer"], status := none, expiresAt := none }
    (match result.1 with
      | .error error => some error
      | .ok _ => none) = some (.validation "unknown role(s): auditer") ∧
    result.2.accounts.map (fun row => (row.id, row.name, row.status)) = [(7, "ci", "active")] := by
  decide +kernel

end OpenDefender.Admin
