import OpenDefender.Admin.Iam
import OpenDefender.Lib.Outcome
import OpenDefender.Lib.Table

/-!
What the changes of the IAM service leave alone.

* `IamOperation.demoted` is the user whose standing as a policy admin an operation can end: it
  disables or deletes the user or takes the role from them. `Regroups` are the operations that can
  end it for users who have the role through a group, and `Cuts` the memberships it ends it for;
  `Renames` are those that can set a username.
* `Leaves` collects what an operation leaves alone: the roles, the primary keys, and the rows,
  assignments and memberships of every user it does not demote. `leaves_write` proves it of whatever
  an operation writes, and is the only place where the operations are told apart.
-/

namespace OpenDefender.Admin

open Lib Text Table Lib.Outcome List

/-! ### What operations are about -/

/-- The user that the operation can make lose the role or the status `active`. -/
def IamOperation.demoted : IamOperation → Option Uuid
  | .updateUser id payload => if payload.disableRequested then some id else none
  | .disableUser id => some id
  | .hardDeleteUser id => some id
  | .revokeRoleFromUser userId role =>
    if eqIgnoreAsciiCase role "policy-admin" then some userId else none
  | _ => none

/-- The operation can take the role from the members of a group. -/
def IamOperation.Regroups : IamOperation → Prop
  | .deleteGroup _ => True
  | .removeGroupMember _ _ => True
  | .revokeRoleFromGroup _ role => role = "policy-admin"
  | _ => False

instance (operation : IamOperation) : Decidable operation.Regroups := by
  unfold IamOperation.Regroups
  split <;> infer_instance

/-- The operation ends the membership, or takes the role from its group. -/
def IamOperation.Cuts (member : Uuid × Uuid) : IamOperation → Prop
  | .deleteGroup id => member.1 = id
  | .removeGroupMember groupId userId => member = (groupId, userId)
  | .revokeRoleFromGroup groupId role => role = "policy-admin" ∧ member.1 = groupId
  | _ => False

instance (member : Uuid × Uuid) (operation : IamOperation) : Decidable (operation.Cuts member) := by
  unfold IamOperation.Cuts
  split <;> infer_instance

/-- The operation can give the user a username. -/
def IamOperation.Renames (userId : Uuid) : IamOperation → Prop
  | .updateUser id payload => id = userId ∧ payload.username.isSome = true
  | .bootstrapLocalAdmin _ _ _ => True
  | _ => False

/-- The role that the operation looks up. -/
def IamOperation.roleName : IamOperation → Option String
  | .assignRoleToUser _ role => some role
  | .revokeRoleFromUser _ role => some role
  | .assignRoleToGroup _ role => some role
  | .revokeRoleFromGroup _ role => some role
  | _ => none

/-- The id of a role that an operation goes on with is the one of the role it names. -/
def Resolved (db : IamDb) (operation : IamOperation) (roleId : Option Uuid) : Prop :=
  ∀ id ∈ roleId, ∃ role ∈ db.roles, operation.roleName = some role.name ∧ role.id = id

/-- The primary keys. -/
structure Keyed (db : IamDb) : Prop where
  users : Unique IamUser.id db.users
  roles : Unique IamRole.id db.roles

instance (db : IamDb) : Decidable (Keyed db) :=
  decidable_of_iff (Unique IamUser.id db.users ∧ Unique IamRole.id db.roles)
    ⟨fun h => ⟨h.1, h.2⟩, fun h => ⟨h.users, h.roles⟩⟩

/-! ### What operations ask -/

variable {operation : IamOperation}

/-- An operation that demotes a user asks whether it may. -/
lemma ensureUserMutationAllowed_subset (h : operation.demoted = some userId) :
    ensureUserMutationAllowed userId ⊆ operation.checks := by
  cases operation with
  | updateUser id payload =>
    obtain ⟨hrequested, h⟩ := Option.ite_none_right_eq_some.1 h
    cases h
    rw [IamOperation.checks, if_pos hrequested]
    exact subset_append_left _ _
  | disableUser id | hardDeleteUser id =>
    cases h
    exact List.Subset.refl _
  | revokeRoleFromUser id role =>
    obtain ⟨hadmin, h⟩ := Option.ite_none_right_eq_some.1 h
    cases h
    rw [IamOperation.checks, if_pos hadmin]
    exact subset_append_left _ _
  | _ => cases h

/-- It asks nothing else but for the role it names and whether a user it renames is protected. -/
lemma mem_checks (h : check ∈ operation.checks) :
    (∃ userId, operation.demoted = some userId ∧ check ∈ ensureUserMutationAllowed userId) ∨
      (∃ name, operation.roleName = some name ∧ check = .roleId name) ∨
      (∃ userId, operation.Renames userId ∧ check = .notProtected userId) ∨
      check = .noDirectAdmin := by
  cases operation with
  | updateUser id payload =>
    obtain h | h := mem_append.1 h
    · obtain ⟨hrequested, h⟩ := mem_ite_nil_right.1 h
      exact Or.inl ⟨id, if_pos hrequested, h⟩
    · obtain ⟨husername, h⟩ := mem_ite_nil_right.1 h
      exact Or.inr (Or.inr (Or.inl ⟨id, ⟨rfl, husername⟩, mem_singleton.1 h⟩))
  | disableUser id | hardDeleteUser id => exact Or.inl ⟨id, rfl, h⟩
  | revokeRoleFromUser id role =>
    obtain h | h := mem_append.1 h
    · obtain ⟨hadmin, h⟩ := mem_ite_nil_right.1 h
      exact Or.inl ⟨id, if_pos hadmin, h⟩
    · exact Or.inr (Or.inl ⟨role, rfl, mem_singleton.1 h⟩)
  | assignRoleToUser id role | assignRoleToGroup id role | revokeRoleFromGroup id role =>
    exact Or.inr (Or.inl ⟨role, rfl, mem_singleton.1 h⟩)
  | bootstrapLocalAdmin id password passwordHash =>
    exact Or.inr (Or.inr (Or.inr (mem_singleton.1 h)))
  | _ => cases h

lemma roleName_of_mem_checks (h : .roleId name ∈ operation.checks) :
    operation.roleName = some name := by
  obtain ⟨userId, -, h⟩ | ⟨name', hname, h⟩ | ⟨userId, -, h⟩ | h := mem_checks h
  · simp [ensureUserMutationAllowed] at h
  · rw [hname, IamCheck.roleId.inj h]
  · cases h
  · cases h

lemma demoted_of_mem_checks (h : .activeAdmin userId ∈ operation.checks) :
    operation.demoted = some userId := by
  obtain ⟨userId', hdemoted, h⟩ | ⟨name, -, h⟩ | ⟨userId', -, h⟩ | h := mem_checks h
  · have heq : userId = userId' := by simpa [ensureUserMutationAllowed] using h
    rw [hdemoted, heq]
  · cases h
  · cases h
  · cases h

variable {db db' : IamDb} {userId : Uuid} {change : IamUser → IamUser} {row : IamUser}

/-! ### The statements -/

lemma insertUser_ok (h : db.insertUser row refuse = .ok db') :
    row.violation db.users = none ∧ db' = { db with users := db.users ++ [row] } := by
  revert h
  fun_cases db.insertUser row refuse <;> rintro ⟨⟩
  exact ⟨‹_›, rfl⟩

lemma updateUserRow_ok (h : db.updateUserRow userId change = .ok db') :
    ∃ row ∈ db.users, row.id = userId ∧
      (change row).violation (db.users.filter fun other => other.id ≠ userId) = none ∧
      db' = { db with users := db.users.map fun u => if u.id = userId then change u else u } := by
  revert h
  fun_cases db.updateUserRow userId change <;> rintro ⟨⟩
  rename_i row hfind hnone
  exact ⟨row, mem_of_find?_eq_some hfind, by simpa using find?_some hfind, hnone, rfl⟩

lemma hardDeleteUser_ok (h : db.hardDeleteUser userId = .ok db') :
    db' = { db with
      users := db.users.filter fun user => user.id ≠ userId
      groupMembers := db.groupMembers.filter fun member => member.2 ≠ userId
      userRoles := db.userRoles.filter fun assigned => assigned.1 ≠ userId } := by
  revert h
  fun_cases db.hardDeleteUser userId <;> rintro ⟨⟩
  rfl

variable {id : Uuid}

lemma createGroup_ok (h : db.createGroup id payload = .ok db') :
    ∃ groups, db' = { db with groups } := by
  revert h
  fun_cases db.createGroup id payload <;> rintro ⟨⟩
  exact ⟨_, rfl⟩

lemma updateGroup_ok (h : db.updateGroup id payload = .ok db') :
    ∃ groups, db' = { db with groups } := by
  revert h
  fun_cases db.updateGroup id payload <;> rintro ⟨⟩
  exact ⟨_, rfl⟩

variable {groupId : Uuid}

lemma deleteGroup_ok (h : db.deleteGroup groupId = .ok db') :
    ∃ groups, db' = { db with
      groups
      groupMembers := db.groupMembers.filter fun member => member.1 ≠ groupId
      groupRoles := db.groupRoles.filter fun assigned => assigned.1 ≠ groupId } := by
  revert h
  fun_cases db.deleteGroup groupId <;> rintro ⟨⟩
  exact ⟨_, rfl⟩

lemma addGroupMember_ok (h : db.addGroupMember groupId userId = .ok db') :
    db' = { db with groupMembers := insertPair db.groupMembers (groupId, userId) } := by
  revert h
  fun_cases db.addGroupMember groupId userId <;> rintro ⟨⟩
  rfl

lemma removeGroupMember_ok (h : db.removeGroupMember groupId userId = .ok db') :
    db' = { db with
      groupMembers := db.groupMembers.filter fun member => member ≠ (groupId, userId) } := by
  revert h
  fun_cases db.removeGroupMember groupId userId <;> rintro ⟨⟩
  rfl

variable {roleId : Uuid}

lemma assignRoleToUser_ok (h : db.assignRoleToUser userId roleId = .ok db') :
    db' = { db with userRoles := insertPair db.userRoles (userId, roleId) } := by
  revert h
  fun_cases db.assignRoleToUser userId roleId <;> rintro ⟨⟩
  rfl

lemma assignRoleToGroup_ok (h : db.assignRoleToGroup groupId roleId = .ok db') :
    db' = { db with groupRoles := insertPair db.groupRoles (groupId, roleId) } := by
  revert h
  fun_cases db.assignRoleToGroup groupId roleId <;> rintro ⟨⟩
  rfl

variable {pairs : List (Uuid × Uuid)}

lemma mem_insertPair : other ∈ insertPair pairs pair ↔ other ∈ pairs ∨ other = pair := by
  rw [insertPair]
  split_ifs with h
  · exact ⟨Or.inl, fun ho => ho.elim id fun heq => heq ▸ h⟩
  · rw [mem_append, mem_singleton]

/-- A row that the constraints of `iam_users` let in beside the others. -/
structure Allowed (others : List IamUser) (row : IamUser) : Prop where
  status : row.status = "active" ∨ row.status = "disabled"
  id : row.id ∉ others.map (·.id)
  username : isTaken (lower row.username) (others.map fun o => lower o.username) = false
  email : isTaken (lower row.email) (others.map fun o => lower o.email) = false

lemma allowed_of_violation (h : row.violation others = none) : Allowed others row := by
  simp only [IamUser.violation, ite_eq_iff, reduceCtorEq, and_false, false_or, and_true] at h
  obtain ⟨-, hstatus, hid, -, -, husername, hemail⟩ := h
  refine ⟨?_, hid, Bool.eq_false_iff.2 husername, Bool.eq_false_iff.2 hemail⟩
  by_contra hne
  exact hstatus (not_or.1 hne)

/-! ### What is left alone -/

/-- An active user is still there: the row before and after an operation. -/
structure Stays (operation : IamOperation) (row row' : IamUser) : Prop where
  id : row'.id = row.id
  status : row'.status = "active"
  isProtected : row.isProtected = true → row'.isProtected = true
  username : ¬ operation.Renames row.id → row'.username = row.username

/-- The tables before and after an operation. -/
structure Leaves (operation : IamOperation) (db db' : IamDb) : Prop where
  roles : db'.roles = db.roles
  users : Unique IamUser.id db'.users
  row : ∀ row ∈ db.users, row.status = "active" → operation.demoted ≠ some row.id →
    ∃ row' ∈ db'.users, Stays operation row row'
  userRoles : ∀ role ∈ db.roles, role.name = "policy-admin" →
    ∀ userId, operation.demoted ≠ some userId →
      (userId, role.id) ∈ db.userRoles → (userId, role.id) ∈ db'.userRoles
  groupMembers : ∀ member ∈ db.groupMembers, operation.demoted ≠ some member.2 →
    ¬ operation.Cuts member → member ∈ db'.groupMembers
  groupRoles : ∀ role ∈ db.roles, role.name = "policy-admin" → ∀ member : Uuid × Uuid,
    ¬ operation.Cuts member → (member.1, role.id) ∈ db.groupRoles → (member.1, role.id) ∈ db'.groupRoles

variable {operation : IamOperation}

lemma Stays.refl (hactive : row.status = "active") : Stays operation row row :=
  ⟨rfl, hactive, fun h => h, fun _ => rfl⟩

lemma Stays.trans (h : Stays operation row₁ row₂) (h' : Stays operation row₂ row₃) :
    Stays operation row₁ row₃ where
  id := h'.id.trans h.id
  status := h'.status
  isProtected := fun hprotected => h'.isProtected (h.isProtected hprotected)
  username := fun hname => (h'.username (h.id ▸ hname)).trans (h.username hname)

lemma Leaves.refl (hkey : Keyed db) : Leaves operation db db where
  roles := rfl
  users := hkey.users
  row := fun row hrow hactive _ => ⟨row, hrow, Stays.refl hactive⟩
  userRoles := fun _ _ _ _ _ h => h
  groupMembers := fun _ h _ _ => h
  groupRoles := fun _ _ _ _ _ h => h

lemma Leaves.trans (h : Leaves operation db₁ db₂) (h' : Leaves operation db₂ db₃) :
    Leaves operation db₁ db₃ where
  roles := h'.roles.trans h.roles
  users := h'.users
  row := by
    intro row hrow hactive hdemoted
    obtain ⟨row₂, hrow₂, hstays⟩ := h.row row hrow hactive hdemoted
    obtain ⟨row₃, hrow₃, hstays'⟩ := h'.row row₂ hrow₂ hstays.status (hstays.id ▸ hdemoted)
    exact ⟨row₃, hrow₃, hstays.trans hstays'⟩
  userRoles := fun role hrole hname userId hdemoted hmem =>
    h'.userRoles role (h.roles ▸ hrole) hname userId hdemoted
      (h.userRoles role hrole hname userId hdemoted hmem)
  groupMembers := fun member hmem hdemoted hcuts =>
    h'.groupMembers member (h.groupMembers member hmem hdemoted hcuts) hdemoted hcuts
  groupRoles := fun role hrole hname member hcuts hmem =>
    h'.groupRoles role (h.roles ▸ hrole) hname member hcuts
      (h.groupRoles role hrole hname member hcuts hmem)

/-- The primary keys are kept. -/
lemma Leaves.keyed (hkey : Keyed db) (h : Leaves operation db db') : Keyed db' :=
  ⟨h.users, h.roles ▸ hkey.roles⟩

lemma leaves_insertUser (hkey : Keyed db) (h : db.insertUser row refuse = .ok db') :
    Leaves operation db db' := by
  obtain ⟨hnone, rfl⟩ := insertUser_ok h
  refine { Leaves.refl hkey with users := ?_, row := ?_ }
  · exact hkey.users.concat (allowed_of_violation hnone).id
  · intro r hr hactive _
    exact ⟨r, mem_append_left _ hr, Stays.refl hactive⟩

/-- It is enough to look at the row that is changed, if the operation does not demote the user. -/
lemma leaves_updateUserRow (hkey : Keyed db) (h : db.updateUserRow userId change = .ok db')
    (hid : ∀ row, (change row).id = row.id)
    (hstays : ∀ row others, row.id = userId → operation.demoted ≠ some row.id →
      row.status = "active" → (change row).violation others = none →
      Stays operation row (change row)) : Leaves operation db db' := by
  obtain ⟨found, hfound, hfoundId, hnone, rfl⟩ := updateUserRow_ok h
  refine { Leaves.refl hkey with users := ?_, row := ?_ }
  · refine hkey.users.map fun row => ?_
    split
    · exact hid row
    · rfl
  · intro row hrow hactive hdemoted
    refine ⟨_, mem_map_of_mem hrow, ?_⟩
    split
    · rename_i hrowId
      -- the row is the one whose new version passed the constraints
      obtain rfl := hkey.users.eq hrow hfound (hrowId.trans hfoundId.symm)
      exact hstays row _ hrowId hdemoted hactive hnone
    · exact Stays.refl hactive

lemma leaves_hardDeleteUser (hkey : Keyed db) (hdemoted : operation.demoted = some userId)
    (h : db.hardDeleteUser userId = .ok db') : Leaves operation db db' := by
  obtain rfl := hardDeleteUser_ok h
  have hne : ∀ {id : Uuid}, operation.demoted ≠ some id → id ≠ userId := by
    rintro id hother rfl
    exact hother hdemoted
  refine { Leaves.refl hkey with users := ?_, row := ?_, userRoles := ?_, groupMembers := ?_ }
  · exact hkey.users.filter _
  · intro row hrow hactive hother
    exact ⟨row, mem_filter.2 ⟨hrow, decide_eq_true (hne hother)⟩, Stays.refl hactive⟩
  · intro role _ _ id hother hmem
    exact mem_filter.2 ⟨hmem, decide_eq_true (hne hother)⟩
  · intro member hmem hother _
    exact mem_filter.2 ⟨hmem, decide_eq_true (hne hother)⟩

lemma leaves_assignRoleToUser (hkey : Keyed db) (h : db.assignRoleToUser userId roleId = .ok db') :
    Leaves operation db db' := by
  obtain rfl := assignRoleToUser_ok h
  exact { Leaves.refl hkey with userRoles := fun _ _ _ _ _ hmem => mem_insertPair.2 (Or.inl hmem) }

/-- The role `policy-admin` is not the one that an operation on another role has looked up. -/
lemma id_ne_of_resolved (hkey : Keyed db) (hresolved : Resolved db operation (some roleId))
    (hname : operation.roleName = some name) (hne : name ≠ "policy-admin") (hrole : role ∈ db.roles)
    (hadmin : role.name = "policy-admin") : role.id ≠ roleId := by
  intro heq
  obtain ⟨found, hfound, hfoundName, hfoundId⟩ := hresolved roleId rfl
  obtain rfl := hkey.roles.eq hrole hfound (heq.trans hfoundId.symm)
  rw [hname] at hfoundName
  exact hne ((Option.some.inj hfoundName).trans hadmin)

lemma leaves_revokeRoleFromUser (hkey : Keyed db)
    (hresolved : Resolved db (.revokeRoleFromUser userId role) (some roleId)) :
    Leaves (.revokeRoleFromUser userId role) db (db.revokeRoleFromUser userId roleId) := by
  refine { Leaves.refl hkey with userRoles := ?_ }
  intro adminRole hadminRole hadmin id hdemoted hmem
  refine mem_filter.2 ⟨hmem, decide_eq_true fun heq => ?_⟩
  obtain ⟨rfl, hroleId⟩ := Prod.mk.inj heq
  refine id_ne_of_resolved hkey hresolved rfl ?_ hadminRole hadmin hroleId
  rintro rfl
  exact hdemoted rfl

lemma leaves_revokeRoleFromGroup (hkey : Keyed db)
    (hresolved : Resolved db (.revokeRoleFromGroup groupId role) (some roleId)) :
    Leaves (.revokeRoleFromGroup groupId role) db (db.revokeRoleFromGroup groupId roleId) := by
  refine { Leaves.refl hkey with groupRoles := ?_ }
  intro adminRole hadminRole hadmin member hcuts hmem
  refine mem_filter.2 ⟨hmem, decide_eq_true fun heq => ?_⟩
  obtain ⟨hgroupId, hroleId⟩ := Prod.mk.inj heq
  refine id_ne_of_resolved hkey hresolved rfl ?_ hadminRole hadmin hroleId
  exact fun hrole => hcuts ⟨hrole, hgroupId⟩

variable {passwordHash : String}

/-- `bootstrap_local_admin` writes the user with the email `admin@local`, or a new one, and gives
them the role. -/
lemma upsertLocalAdmin_ok (h : db.upsertLocalAdmin id passwordHash = .ok (db', adminId)) :
    (∃ user, db.users.find? (fun user => user.email = some "admin@local") = some user ∧
      adminId = user.id ∧ db.updateUserRow user.id (fun user => { user with
        username := user.username.or (some "admin")
        passwordHash := user.passwordHash.or (some passwordHash)
        isProtected := true }) = .ok db') ∨
    (db.users.find? (fun user => user.email = some "admin@local") = none ∧ adminId = id ∧
      ∃ row : IamUser, row.id = id ∧ row.status = "active" ∧
        db.insertUser row Violation.toDb = .ok db') := by
  rw [IamDb.upsertLocalAdmin] at h
  split at h
  · rename_i user hfind
    obtain ⟨updated, hupdate, h⟩ := bind_ok.1 h
    cases h
    exact Or.inl ⟨user, hfind, rfl, hupdate⟩
  · rename_i hfind
    obtain ⟨inserted, hinsert, h⟩ := bind_ok.1 h
    cases h
    exact Or.inr ⟨hfind, rfl, _, rfl, rfl, hinsert⟩

lemma bootstrapLocalAdmin_ok (h : db.bootstrapLocalAdmin id passwordHash = .ok db') :
    ∃ upserted adminId, db.upsertLocalAdmin id passwordHash = .ok (upserted, adminId) ∧
      ∃ role ∈ upserted.roles, role.name = "policy-admin" ∧
        upserted.assignRoleToUser adminId role.id = .ok db' := by
  obtain ⟨⟨upserted, adminId⟩, hupsert, h⟩ := bind_ok.1 h
  refine ⟨upserted, adminId, hupsert, ?_⟩
  dsimp only at h
  split at h
  · cases h
  · rename_i role hfind
    exact ⟨role, mem_of_find?_eq_some hfind, by simpa using find?_some hfind, h⟩

lemma leaves_upsertLocalAdmin (hkey : Keyed db)
    (h : db.upsertLocalAdmin id passwordHash = .ok (db', adminId)) :
    Leaves (.bootstrapLocalAdmin newId password passwordHash) db db' := by
  obtain ⟨user, -, -, hupdate⟩ | ⟨-, -, row, -, -, hinsert⟩ := upsertLocalAdmin_ok h
  · refine leaves_updateUserRow hkey hupdate (fun _ => rfl) ?_
    intro row _ _ _ hactive _
    exact ⟨rfl, hactive, fun _ => rfl, fun hname => absurd trivial hname⟩
  · exact leaves_insertUser hkey hinsert

lemma leaves_bootstrapLocalAdmin (hkey : Keyed db)
    (h : db.bootstrapLocalAdmin id passwordHash = .ok db') :
    Leaves (.bootstrapLocalAdmin newId password passwordHash) db db' := by
  obtain ⟨upserted, adminId, hupsert, role, -, -, hassign⟩ := bootstrapLocalAdmin_ok h
  have hleaves : Leaves (.bootstrapLocalAdmin newId password passwordHash) db upserted :=
    leaves_upsertLocalAdmin hkey hupsert
  exact hleaves.trans (leaves_assignRoleToUser (hleaves.keyed hkey) hassign)

/-- An update that does not ask for the user to be disabled leaves an active user active: the table
takes no third status. -/
lemma stays_assign (hid : row.id = id)
    (hdemoted : (IamOperation.updateUser id payload).demoted ≠ some row.id)
    (hactive : row.status = "active") (hnone : (row.assign payload).violation others = none) :
    Stays (.updateUser id payload) row (row.assign payload) where
  id := rfl
  status := by
    refine (allowed_of_violation hnone).status.resolve_right fun hdisabled => ?_
    have hstatus : payload.status.getD row.status = "disabled" := hdisabled
    cases hpayload : payload.status with
    | none =>
      rw [hpayload, Option.getD_none, hactive] at hstatus
      exact absurd hstatus (by decide)
    | some status =>
      rw [hpayload, Option.getD_some] at hstatus
      subst hstatus
      have hrequested : payload.disableRequested = true := by
        rw [UpdateUserRequest.disableRequested, hpayload]
        decide
      exact hdemoted (by rw [IamOperation.demoted, if_pos hrequested, hid])
  isProtected := fun h => h
  username := by
    intro hname
    cases husername : payload.username with
    | none => simp [IamUser.assign, husername]
    | some username => exact absurd ⟨hid.symm, by simp [husername]⟩ hname

/-- **What an operation writes** leaves alone all that is not its own. -/
theorem leaves_write {roleId : Option Uuid} (hkey : Keyed db)
    (hresolved : Resolved db operation roleId) (h : operation.write db roleId = .ok db') :
    Leaves operation db db' := by
  cases operation with
  | createUser id payload passwordHash =>
    rw [IamOperation.write] at h
    exact leaves_insertUser hkey h
  | updateUser id payload =>
    exact leaves_updateUserRow hkey h (fun _ => rfl) fun _ _ => stays_assign
  | disableUser id =>
    refine leaves_updateUserRow hkey h (fun _ => rfl) ?_
    rintro row _ rfl hdemoted
    exact absurd rfl hdemoted
  | enableUser id =>
    refine leaves_updateUserRow hkey h (fun _ => rfl) ?_
    intro row _ _ _ _ _
    exact ⟨rfl, rfl, fun h => h, fun _ => rfl⟩
  | hardDeleteUser id => exact leaves_hardDeleteUser hkey rfl h
  | createGroup id payload =>
    obtain ⟨groups, rfl⟩ := createGroup_ok h
    exact { Leaves.refl hkey with }
  | updateGroup id payload =>
    obtain ⟨groups, rfl⟩ := updateGroup_ok h
    exact { Leaves.refl hkey with }
  | deleteGroup id =>
    obtain ⟨groups, rfl⟩ := deleteGroup_ok h
    exact { Leaves.refl hkey with
      groupMembers := fun _ hmem _ hcuts => mem_filter.2 ⟨hmem, decide_eq_true hcuts⟩
      groupRoles := fun _ _ _ _ hcuts hmem => mem_filter.2 ⟨hmem, decide_eq_true hcuts⟩ }
  | addGroupMember groupId userId =>
    obtain rfl := addGroupMember_ok h
    exact { Leaves.refl hkey with groupMembers := fun _ hmem _ _ => mem_insertPair.2 (Or.inl hmem) }
  | removeGroupMember groupId userId =>
    obtain rfl := removeGroupMember_ok h
    exact { Leaves.refl hkey with
      groupMembers := fun _ hmem _ hcuts => mem_filter.2 ⟨hmem, decide_eq_true hcuts⟩ }
  | assignRoleToUser userId role =>
    cases roleId with
    | none => cases h
    | some roleId => exact leaves_assignRoleToUser hkey h
  | revokeRoleFromUser userId role =>
    cases roleId with
    | none => cases h
    | some roleId =>
      cases h
      exact leaves_revokeRoleFromUser hkey hresolved
  | assignRoleToGroup groupId role =>
    cases roleId with
    | none => cases h
    | some roleId =>
      obtain rfl := assignRoleToGroup_ok h
      exact { Leaves.refl hkey with groupRoles := fun _ _ _ _ _ hmem => mem_insertPair.2 (Or.inl hmem) }
  | revokeRoleFromGroup groupId role =>
    cases roleId with
    | none => cases h
    | some roleId =>
      cases h
      exact leaves_revokeRoleFromGroup hkey hresolved
  | setUserPassword userId password passwordHash mustChangePassword =>
    refine leaves_updateUserRow hkey h (fun _ => rfl) ?_
    intro row _ _ _ hactive _
    exact ⟨rfl, hactive, fun h => h, fun _ => rfl⟩
  | bootstrapLocalAdmin id password passwordHash => exact leaves_bootstrapLocalAdmin hkey h

/-! ### Policy admins -/

lemma Leaves.holdsDirectly (h : Leaves operation db db') (hdemoted : operation.demoted ≠ some userId)
    (hdirect : db.HoldsDirectly userId) : db'.HoldsDirectly userId := by
  obtain ⟨role, hrole, hname, hmem⟩ := hdirect
  exact ⟨role, h.roles ▸ hrole, hname, h.userRoles role hrole hname userId hdemoted hmem⟩

/-- An active user holds the role in a way that the operation does not touch. -/
def IamDb.KeepsRole (db : IamDb) (operation : IamOperation) (user : IamUser) : Prop :=
  user.status = "active" ∧ (db.HoldsDirectly user.id ∨
    ∃ member ∈ db.groupMembers, member.2 = user.id ∧ ¬ operation.Cuts member ∧
      ∃ role ∈ db.roles, role.name = "policy-admin" ∧ (member.1, role.id) ∈ db.groupRoles)

instance (db : IamDb) (operation : IamOperation) (user : IamUser) :
    Decidable (db.KeepsRole operation user) :=
  inferInstanceAs (Decidable (_ ∧ (_ ∨ ∃ _ ∈ _, _)))

lemma not_cuts (h : ¬ operation.Regroups) (member : Uuid × Uuid) : ¬ operation.Cuts member := by
  cases operation with
  | deleteGroup id | removeGroupMember groupId userId => exact absurd trivial h
  | revokeRoleFromGroup groupId role => exact fun hcuts => h hcuts.1
  | _ => exact fun hcuts => hcuts

lemma keepsRole_of_not_regroups (h : ¬ operation.Regroups) (hadmin : db.IsActivePolicyAdmin row) :
    db.KeepsRole operation row := by
  refine ⟨hadmin.1, hadmin.2.imp_right ?_⟩
  rintro ⟨member, hmember, huser, hrole⟩
  exact ⟨member, hmember, huser, not_cuts h member, hrole⟩

/-- An active policy admin stays one if the operation is not about them. -/
lemma Leaves.isActivePolicyAdmin (h : Leaves operation db db') (hrow : row ∈ db.users)
    (hdemoted : operation.demoted ≠ some row.id) (hkeeps : db.KeepsRole operation row) :
    ∃ row' ∈ db'.users, row'.id = row.id ∧ db'.IsActivePolicyAdmin row' := by
  obtain ⟨hactive, hholds⟩ := hkeeps
  obtain ⟨row', hrow', hstays⟩ := h.row row hrow hactive hdemoted
  refine ⟨row', hrow', hstays.id, hstays.status, ?_⟩
  rw [hstays.id]
  obtain hdirect | ⟨member, hmember, huser, hcuts, role, hrole, hname, hassigned⟩ := hholds
  · exact Or.inl (h.holdsDirectly hdemoted hdirect)
  · exact Or.inr ⟨member, h.groupMembers member hmember (huser ▸ hdemoted) hcuts, huser, role,
      h.roles ▸ hrole, hname, h.groupRoles role hrole hname member hcuts hassigned⟩

end OpenDefender.Admin
