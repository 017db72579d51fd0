import OpenDefender.System.IamCalls

/-!
Whether an active policy admin is left. The operations on users ask for the number of active admins
before they take the standing from one, and refuse at one. Two things are missing:

* operations on groups do not ask, so that the last admin can be one through a group that is deleted,
  that they are removed from, or that loses the role;
* the question is not asked together with the change, so that two operations on two admins can both
  find two, and then leave none.

`active_admin_remains`: an active admin is left by every run in which no standing is taken while another
operation is between its question and its change (`Cleared`), and groups only lose what some active admin
does not need.

`active_admin_after_bootstrap_iff`: when `bootstrap_local_admin` leaves one, which has to find or make
one at the start of the service.
-/

namespace OpenDefender.System.PolicyAdmins

open Lib Run Pool Table Admin IamCalls Lib.Outcome List

/-- Some active user holds `policy-admin`, directly or through a group. -/
def HasActiveAdmin (db : IamDb) : Prop := ∃ row ∈ db.users, db.IsActivePolicyAdmin row

instance (db : IamDb) : Decidable (HasActiveAdmin db) := inferInstanceAs (Decidable (∃ _ ∈ _, _))

/-- The two queries about active admins. -/
def Counts : IamCheck → Prop
  | .activeAdmin _ => True
  | .adminCount => True
  | _ => False

instance : (check : IamCheck) → Decidable (Counts check)
  | .activeAdmin _ | .adminCount => inferInstanceAs (Decidable True)
  | .notProtected _ | .roleId _ | .noDirectAdmin => inferInstanceAs (Decidable False)

/-- The operation has been allowed to take a user's standing, and has not done it yet. -/
def Cleared (p : Pending) : Prop :=
  p.operation.demoted.isSome = true ∧ ∀ check ∈ p.checks, ¬ Counts check

instance (p : Pending) : Decidable (Cleared p) := inferInstanceAs (Decidable (_ ∧ ∀ _ ∈ _, _))

/-- The operation can take a standing from someone. -/
def TakesRole (operation : IamOperation) : Prop :=
  operation.demoted.isSome = true ∨ operation.Regroups

instance (operation : IamOperation) : Decidable (TakesRole operation) :=
  inferInstanceAs (Decidable (_ ∨ _))

/-- **The condition** on a step: a change that can take a standing is not made while another operation
is cleared for one, and one on groups leaves some active user their way to the role. -/
def Orderly (s : State) : Event → Prop
  | .write i => ∀ p ∈ s.pending[i]?,
      (TakesRole p.operation → ∀ other ∈ s.pending.eraseIdx i, ¬ Cleared other) ∧
      (p.operation.Regroups → ∃ row ∈ s.db.users, s.db.KeepsRole p.operation row)
  | _ => True

instance (s : State) : (e : Event) → Decidable (Orderly s e)
  | .write i => inferInstanceAs (Decidable (∀ p ∈ s.pending[i]?, _))
  | .begin _ | .check _ | .giveUp _ => inferInstanceAs (Decidable True)

/-! ### Questions -/

variable {operation : IamOperation}

/-- An operation on groups demotes no single user. -/
lemma demoted_of_regroups (h : operation.Regroups) : operation.demoted = none := by
  cases operation with
  | deleteGroup id | removeGroupMember groupId userId | revokeRoleFromGroup groupId role => rfl
  | _ => exact h.elim

/-- An active admin is left when the operation has taken the standing of its user. -/
def Spare (db : IamDb) (operation : IamOperation) : Prop :=
  ∃ row ∈ db.users, db.IsActivePolicyAdmin row ∧ operation.demoted ≠ some row.id

variable {db : IamDb}

/-- If a user is not an admin, the admin there is is another one. -/
lemma spare_of_not_admin (hadmin : HasActiveAdmin db) (hdemoted : operation.demoted = some userId)
    (hnot : db.userIsActivePolicyAdmin userId = false) : Spare db operation := by
  obtain ⟨row, hrow, hrowAdmin⟩ := hadmin
  refine ⟨row, hrow, hrowAdmin, fun hsame => ?_⟩
  obtain rfl := Option.some.inj (hdemoted.symm.trans hsame)
  have hyes : db.userIsActivePolicyAdmin row.id = true :=
    any_eq_true.2 ⟨row, hrow, decide_eq_true ⟨rfl, hrowAdmin⟩⟩
  rw [hnot] at hyes
  cases hyes

/-- Of two admins, one is another. -/
lemma spare_of_two_admins (hkey : Keyed db) (operation : IamOperation)
    (hcount : 2 ≤ db.activePolicyAdminCount) : Spare db operation := by
  by_contra hnone
  have hall : ∀ row ∈ db.users, db.IsActivePolicyAdmin row → operation.demoted = some row.id :=
    fun row hrow hadmin => not_not.1 fun hne => hnone ⟨row, hrow, hadmin, hne⟩
  have hle : db.activePolicyAdminCount ≤ 1 :=
    (at_most_one_iff hkey.users).2 fun row hrow row' hrow' hadmin hadmin' =>
      Option.some.inj ((hall row hrow hadmin).symm.trans (hall row' hrow' hadmin'))
  omega

/-! ### The invariant -/

/-- An active admin is there, and one is left for every operation that is cleared. -/
structure Inv (s : State) : Prop where
  sound : Sound s
  admin : HasActiveAdmin s.db
  targets : ∀ p ∈ s.pending, ∀ userId, .activeAdmin userId ∈ p.checks → p.operation.demoted = some userId
  spare : ∀ p ∈ s.pending, Cleared p → Spare s.db p.operation

lemma not_cleared_begin (operation : IamOperation) : ¬ Cleared ⟨operation, operation.checks, none⟩ := by
  rintro ⟨hdemoted, hchecks⟩
  obtain ⟨userId, hdemoted⟩ := Option.isSome_iff_exists.1 hdemoted
  have hmem : .activeAdmin userId ∈ ensureUserMutationAllowed userId := mem_cons_of_mem _ mem_cons_self
  exact hchecks _ (ensureUserMutationAllowed_subset hdemoted hmem) trivial

/-- A query that lets an operation pass does not clear it without an admin to spare. -/
lemma spare_goOn (hs : Inv s) {i : ℕ} {roleId found : Option Uuid}
    (hi : s.pending[i]? = some ⟨operation, check :: rest, roleId⟩)
    (hrun : check.run s.db = .goOn first found)
    (hcleared : Cleared ⟨operation, first ++ rest, found.or roleId⟩) : Spare s.db operation := by
  have hmem := mem_of_getElem? hi
  obtain ⟨hdemoted, hchecks⟩ := hcleared
  by_cases hcounts : Counts check
  · cases check with
    | activeAdmin userId =>
      obtain ⟨-, rfl | ⟨-, hnot⟩⟩ := goOn_activeAdmin hrun
      · exact absurd trivial (hchecks .adminCount mem_cons_self)
      · exact spare_of_not_admin hs.admin (hs.targets _ hmem userId mem_cons_self) hnot
    | adminCount =>
      exact spare_of_two_admins hs.sound.keyed operation (goOn_adminCount hrun).2
    | notProtected _ | roleId _ | noDirectAdmin => exact hcounts.elim
  · -- another query: the operation was cleared before it
    refine hs.spare _ hmem ⟨hdemoted, fun c hc => ?_⟩
    obtain rfl | hc := mem_cons.1 hc
    · exact hcounts
    · exact hchecks c (mem_append_right _ hc)

lemma targets_goOn {rest first : List IamCheck}
    (h : ∀ userId, .activeAdmin userId ∈ check :: rest → demoted = some userId)
    (hrun : check.run db = .goOn first found) :
    ∀ userId, .activeAdmin userId ∈ first ++ rest → demoted = some userId := by
  intro userId hmem
  obtain hmem | hmem := mem_append.1 hmem
  · cases (goOn_spec hrun).1 _ hmem
  · exact h userId (mem_cons_of_mem _ hmem)

lemma Spare.of_leaves (h : Spare db other) (hleaves : Leaves operation db db')
    (htakes : ¬ TakesRole operation) : Spare db' other := by
  obtain ⟨hdemoted, hregroups⟩ := not_or.1 htakes
  obtain ⟨row, hrow, hadmin, hother⟩ := h
  obtain ⟨row', hrow', hid, hadmin'⟩ := hleaves.isActivePolicyAdmin hrow
    (fun hsome => hdemoted (by rw [hsome]; rfl)) (keepsRole_of_not_regroups hregroups hadmin)
  exact ⟨row', hrow', hadmin', hid ▸ hother⟩

/-- An active admin is left by a change that meets the condition. -/
lemma hasActiveAdmin_write (hs : Inv s) {i : ℕ} (hi : s.pending[i]? = some ⟨operation, [], roleId⟩)
    (hwrite : operation.write s.db roleId = .ok db)
    (hkeeps : operation.Regroups → ∃ row ∈ s.db.users, s.db.KeepsRole operation row) :
    HasActiveAdmin db := by
  obtain ⟨row, hrow, hdemoted, hrole⟩ : ∃ row ∈ s.db.users,
      operation.demoted ≠ some row.id ∧ s.db.KeepsRole operation row := by
    by_cases hregroups : operation.Regroups
    · obtain ⟨row, hrow, hrole⟩ := hkeeps hregroups
      refine ⟨row, hrow, ?_, hrole⟩
      rw [demoted_of_regroups hregroups]
      exact (Option.some_ne_none _).symm
    · have hspare : Spare s.db operation := by
        cases hdemoted : operation.demoted with
        | none =>
          obtain ⟨row, hrow, hadmin⟩ := hs.admin
          exact ⟨row, hrow, hadmin, hdemoted ▸ (Option.some_ne_none _).symm⟩
        | some userId =>
          refine hs.spare _ (mem_of_getElem? hi) ⟨?_, by simp⟩
          rw [hdemoted]
          rfl
      obtain ⟨row, hrow, hadmin, hdemoted⟩ := hspare
      exact ⟨row, hrow, hdemoted, keepsRole_of_not_regroups hregroups hadmin⟩
  obtain ⟨row', hrow', -, hadmin⟩ := (hs.sound.leaves hi hwrite).isActivePolicyAdmin hrow hdemoted hrole
  exact ⟨row', hrow', hadmin⟩

lemma inv_next {e : Event} (hs : Inv s) (hok : Orderly s e) (h : next s e = some s') : Inv s' := by
  have hsound := sound_next hs.sound h
  cases step_of_next h with
  | refuse operation => exact hs
  | begin operation =>
    exact ⟨hsound, hs.admin, forall_concat (fun _ => demoted_of_mem_checks) hs.targets,
      forall_concat (fun hcleared => absurd hcleared (not_cleared_begin operation)) hs.spare⟩
  | goOn hi hrun =>
    exact ⟨hsound, hs.admin, forall_set (targets_goOn (hs.targets _ (mem_of_getElem? hi)) hrun)
        (forall_eraseIdx hs.targets),
      forall_set (spare_goOn hs hi hrun) (forall_eraseIdx hs.spare)⟩
  | leave _ i =>
    exact ⟨hsound, hs.admin, forall_eraseIdx hs.targets, forall_eraseIdx hs.spare⟩
  | write hi hwrite =>
    obtain ⟨halone, hkeeps⟩ := hok _ hi
    refine ⟨hsound, hasActiveAdmin_write hs hi hwrite hkeeps, forall_eraseIdx hs.targets, ?_⟩
    intro other hother hcleared
    refine (hs.spare other (mem_of_mem_eraseIdx hother) hcleared).of_leaves
      (hs.sound.leaves hi hwrite) fun htakes => ?_
    exact halone htakes other hother hcleared

/-- **An active policy admin remains** in every run whose changes meet the condition. -/
theorem active_admin_remains (db : IamDb) (hkey : Keyed db) (hadmin : HasActiveAdmin db)
    (es : List Event) (t : State) (hok : Guarded next Orderly (start db) es)
    (hrun : run next (start db) es = some t) : HasActiveAdmin t.db :=
  (hok.invariant Inv (fun _ _ _ => inv_next)
    ⟨sound_start hkey, hadmin, by simp [start], by simp [start]⟩ hrun).admin

/-- An active user without a protection. -/
def activeUser (id : Uuid) (username : String) : IamUser :=
  { id, username := some username, subject := none, email := none, displayName := none
    status := "active", isProtected := false, tokenVersion := 1, passwordHash := some "hash"
    mustChangePassword := false }

/-- One admin, through a group. -/
def groupAdminDb : IamDb :=
  { users := [activeUser 1 "first"]
    groups := [{ id := 10, name := "admins", description := none, status := "active" }]
    roles := [{ id := 101, name := "policy-admin" }]
    groupMembers := [(10, 1)]
    userRoles := []
    groupRoles := [(10, 101)] }

/-- Two admins, directly. -/
def twoAdminsDb : IamDb :=
  { users := [activeUser 1 "first", activeUser 2 "second"]
    groups := []
    roles := [{ id := 101, name := "policy-admin" }]
    groupMembers := []
    userRoles := [(1, 101), (2, 101)]
    groupRoles := [] }

/-- The group of the last admin is deleted. -/
def groupDeleted : List Event := [.begin (.deleteGroup 10), .write 0]

/-- Both admins are disabled: each operation counts two before the other has written. -/
def bothDisabled : List Event :=
  [.begin (.disableUser 1), .begin (.disableUser 2), .check 0, .check 0, .check 0,
    .check 1, .check 1, .check 1, .write 0, .write 0]

/-- Either leaves no active admin. -/
theorem no_active_admin_left : (Keyed groupAdminDb ∧ HasActiveAdmin groupAdminDb ∧
      (run next (start groupAdminDb) groupDeleted).map (fun t => decide (HasActiveAdmin t.db)) =
        some false) ∧
    Keyed twoAdminsDb ∧ HasActiveAdmin twoAdminsDb ∧
      (run next (start twoAdminsDb) bothDisabled).map (fun t => decide (HasActiveAdmin t.db)) =
        some false := by
  refine ⟨⟨?_, ?_, ?_⟩, ?_, ?_, ?_⟩ <;> decide +kernel

/-- One after the other: the first is disabled, and the second is then the last one. -/
def disabledInOrder : List Event :=
  [.begin (.disableUser 1), .begin (.disableUser 2), .check 0, .check 0, .check 0, .write 0,
    .check 0, .check 0, .check 0]

/-- The second operation has been refused. -/
theorem active_admin_after_disabling : ∃ t, run next (start twoAdminsDb) disabledInOrder = some t ∧
      t.db.users.map (fun row => (row.id, row.status)) = [(1, "disabled"), (2, "active")] ∧
      t.pending.length = 0 ∧ HasActiveAdmin t.db := by
  refine exists_of_any (fun t =>
    t.db.users.map (fun row => (row.id, row.status)) = [(1, "disabled"), (2, "active")] ∧
      t.pending.length = 0) (by decide +kernel) fun t hrun hresult => ?_
  obtain ⟨husers, hpending⟩ := of_decide_eq_true hresult
  refine ⟨husers, hpending, ?_⟩
  exact active_admin_remains twoAdminsDb (by decide) (by decide) disabledInOrder t
    (by decide +kernel) hrun

/-! ### Bootstrapping -/

/-- `bootstrap_local_admin` does nothing while an active user holds the role directly. -/
lemma perform_bootstrap {id : Uuid}
    (h : (IamOperation.bootstrapLocalAdmin id password passwordHash).perform db = .ok db') :
    (db' = db ∧ HasActiveAdmin db) ∨ db.bootstrapLocalAdmin id passwordHash = .ok db' := by
  obtain ⟨_, -, h⟩ := bind_ok.1 h
  by_cases hdirect : (db.users.any fun user => user.status = "active" ∧ db.HoldsDirectly user.id)
  · simp only [IamOperation.checks, settleChecks, IamCheck.settle, IamCheck.run, hdirect, if_true] at h
    obtain ⟨user, huser, hholds⟩ := any_eq_true.1 hdirect
    obtain ⟨hactive, hholds⟩ := of_decide_eq_true hholds
    exact Or.inl ⟨(Except.ok.inj h).symm, user, huser, hactive, Or.inl hholds⟩
  · simp only [IamOperation.checks, settleChecks, IamCheck.settle, IamCheck.run, hdirect] at h
    exact Or.inr h

/-- A user that the role was not given to now held it before. -/
lemma isActivePolicyAdmin_of_insertPair (hne : row.id ≠ adminId) (h : IamDb.IsActivePolicyAdmin
      { db with users, userRoles := insertPair db.userRoles (adminId, roleId) } row) :
    db.IsActivePolicyAdmin row := by
  obtain ⟨hactive, ⟨role, hrole, hname, hmem⟩ | hgroup⟩ := h
  · refine ⟨hactive, Or.inl ⟨role, hrole, hname, ?_⟩⟩
    exact (mem_insertPair.1 hmem).resolve_right fun heq => hne (congrArg Prod.fst heq)
  · exact ⟨hactive, Or.inr hgroup⟩

/-- **Bootstrapping leaves an active policy admin** exactly when there was one, or the user with the
email `admin@local`, if there is one, is active: an existing user keeps their status. -/
theorem active_admin_after_bootstrap_iff (db db' : IamDb) (hkey : Keyed db) (id : Uuid)
    (password passwordHash : String)
    (h : (IamOperation.bootstrapLocalAdmin id password passwordHash).perform db = .ok db') :
    HasActiveAdmin db' ↔ HasActiveAdmin db ∨
      ∀ user ∈ db.users.find? (fun user => user.email = some "admin@local"), user.status = "active" := by
  obtain ⟨rfl, hadmin⟩ | h := perform_bootstrap h
  · exact ⟨fun h => Or.inl h, fun _ => hadmin⟩
  have hleaves : Leaves (.bootstrapLocalAdmin id password passwordHash) db db' :=
    leaves_bootstrapLocalAdmin hkey h
  have hstays : HasActiveAdmin db → HasActiveAdmin db' := by
    rintro ⟨row, hrow, hadmin⟩
    obtain ⟨row', hrow', -, hadmin'⟩ := hleaves.isActivePolicyAdmin hrow (by simp [IamOperation.demoted])
      (keepsRole_of_not_regroups (fun h => h) hadmin)
    exact ⟨row', hrow', hadmin'⟩
  obtain ⟨upserted, adminId, hupsert, role, hrole, hname, hassign⟩ := bootstrapLocalAdmin_ok h
  obtain rfl := assignRoleToUser_ok hassign
  obtain ⟨user, hfind, rfl, hupdate⟩ | ⟨hfind, rfl, row, hid, hactive, hinsert⟩ :=
    upsertLocalAdmin_ok hupsert
  · obtain ⟨found, hfound, hfoundId, -, rfl⟩ := updateUserRow_ok hupdate
    have huser := mem_of_find?_eq_some hfind
    simp only [hfind, Option.mem_def, Option.some.injEq, forall_eq']
    constructor
    · rintro ⟨row', hrow', hadmin⟩
      obtain ⟨row, hrow, rfl⟩ := mem_map.1 hrow'
      split at hadmin
      · -- the user of the bootstrap, whose status has not changed
        rename_i hsame
        obtain rfl := hkey.users.eq hrow huser hsame
        exact Or.inr hadmin.1
      · rename_i hother
        exact Or.inl ⟨row, hrow, isActivePolicyAdmin_of_insertPair hother hadmin⟩
    · rintro (hadmin | hactive)
      · exact hstays hadmin
      · refine ⟨_, mem_map_of_mem huser, ?_⟩
        rw [if_pos rfl]
        exact ⟨hactive, Or.inl ⟨role, hrole, hname, mem_insertPair.2 (Or.inr rfl)⟩⟩
  · obtain ⟨-, rfl⟩ := insertUser_ok hinsert
    simp only [hfind, Option.mem_def, reduceCtorEq, false_imp_iff, implies_true, or_true, iff_true]
    exact ⟨row, mem_append_right _ mem_cons_self, hactive,
      Or.inl ⟨role, hrole, hname, hid ▸ mem_insertPair.2 (Or.inr rfl)⟩⟩

/-- The local admin exists and is disabled. -/
def disabledLocalAdminDb : IamDb :=
  { users := [{ activeUser 1 "admin" with email := some "admin@local", status := "disabled" }]
    groups := []
    roles := [{ id := 101, name := "policy-admin" }]
    groupMembers := []
    userRoles := [(1, 101)]
    groupRoles := [] }

/-- Bootstrapping ends well and leaves nobody. -/
theorem bootstrap_without_active_admin : Keyed disabledLocalAdminDb ∧
      ((IamOperation.bootstrapLocalAdmin 2 "changeme" "hash").perform disabledLocalAdminDb).toOption.map
        (fun db => (db.users.map fun user => (user.id, user.status, user.isProtected),
          decide (HasActiveAdmin db))) = some ([(1, "disabled", true)], false) := by
  refine ⟨?_, ?_⟩ <;> decide +kernel

/-- In an empty table the new local admin is an active one. -/
theorem bootstrap_with_new_admin : ∃ db', (IamOperation.bootstrapLocalAdmin 2 "changeme" "hash").perform
        { disabledLocalAdminDb with users := [], userRoles := [] } = .ok db' ∧
      db'.users.map (fun user => (user.id, user.username)) = [(2, some "admin")] ∧
      HasActiveAdmin db' := by
  have hend : ((IamOperation.bootstrapLocalAdmin 2 "changeme" "hash").perform
      { disabledLocalAdminDb with users := [], userRoles := [] }).toOption.any (fun db' =>
        db'.users.map (fun user => (user.id, user.username)) = [(2, some "admin")]) = true := by
    decide +kernel
  obtain ⟨db', hperform, husers⟩ := (Option.any_eq_true _ _).1 hend
  have hperform := Outcome.toOption_eq_some.1 hperform
  refine ⟨db', hperform, of_decide_eq_true husers, ?_⟩
  exact (active_admin_after_bootstrap_iff _ db' (by decide) 2 "changeme" "hash" hperform).2
    (Or.inr (by decide))

end OpenDefender.System.PolicyAdmins
