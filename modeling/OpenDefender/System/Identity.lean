import OpenDefender.Admin.Auth
import OpenDefender.Lib.Outcome
import OpenDefender.Lib.Table

/-!
Who a caller is and which roles they have.

* `effective_roles_iff`: the effective roles of a user; the query does not look at the status of a group.
* `claims_roles_iff`: the roles of a caller with a token of the identity provider; claims which name none and
  resolve to nobody stand for a full administrator.
* `claims_subject_iff`: who is resolved from a subject; the email leads to a user bound to another one as
  well.
-/

namespace OpenDefender.System.Identity

open Lib Text Table Admin Lib.Outcome List

/-! ### Effective roles -/

/-- The group exists and is active. -/
def ActiveGroup (db : IamDb) (groupId : Uuid) : Prop :=
  ∃ group ∈ db.groups, group.id = groupId ∧ group.status = "active"

instance (db : IamDb) (groupId : Uuid) : Decidable (ActiveGroup db groupId) :=
  inferInstanceAs (Decidable (∃ _ ∈ _, _))

/-- A role of this name is assigned to the user or to an active group of theirs. -/
def Granted (db : IamDb) (userId : Uuid) (name : String) : Prop :=
  ∃ role ∈ db.roles, role.name = name ∧ ((userId, role.id) ∈ db.userRoles ∨
    ∃ member ∈ db.groupMembers, member.2 = userId ∧ ActiveGroup db member.1 ∧
      (member.1, role.id) ∈ db.groupRoles)

instance (db : IamDb) (userId : Uuid) (name : String) : Decidable (Granted db userId name) :=
  inferInstanceAs (Decidable (∃ _ ∈ _, _))

lemma mem_effective_roles {db : IamDb} :
    name ∈ (db.effectivePermissionsForUser rolePermissions userId).roles ↔
      ∃ role ∈ db.roles, role.name = name ∧ ((userId, role.id) ∈ db.userRoles ∨
        ∃ member ∈ db.groupMembers, member.2 = userId ∧ (member.1, role.id) ∈ db.groupRoles) := by
  simp only [IamDb.effectivePermissionsForUser, IamDb.rolesOf, mem_dedup, mem_map,
    mem_filter, decide_eq_true_eq]
  constructor
  · rintro ⟨role, ⟨hrole, hassigned⟩, hname⟩
    exact ⟨role, hrole, hname, hassigned⟩
  · rintro ⟨role, hrole, hname, hassigned⟩
    exact ⟨role, ⟨hrole, hassigned⟩, hname⟩

/-- **The effective roles of a user** are those assigned to the user and to active groups of theirs
exactly when a group that is not active gives them no further role. -/
theorem effective_roles_iff (db : IamDb) (rolePermissions : List (Uuid × String)) (userId : Uuid) :
    (∀ name, name ∈ (db.effectivePermissionsForUser rolePermissions userId).roles ↔
      Granted db userId name) ↔
    ∀ member ∈ db.groupMembers, member.2 = userId → ¬ ActiveGroup db member.1 →
      ∀ role ∈ db.roles, (member.1, role.id) ∈ db.groupRoles → Granted db userId role.name := by
  constructor
  · intro hroles member hmember huser _ role hrole hassigned
    exact (hroles role.name).1
      (mem_effective_roles.2 ⟨role, hrole, rfl, Or.inr ⟨member, hmember, huser, hassigned⟩⟩)
  · intro hinactive name
    rw [mem_effective_roles]
    constructor
    · rintro ⟨role, hrole, rfl, hdirect | ⟨member, hmember, huser, hassigned⟩⟩
      · exact ⟨role, hrole, rfl, Or.inl hdirect⟩
      · by_cases hactive : ActiveGroup db member.1
        · exact ⟨role, hrole, rfl, Or.inr ⟨member, hmember, huser, hactive, hassigned⟩⟩
        · exact hinactive member hmember huser hactive role hrole hassigned
    · rintro ⟨role, hrole, rfl, hdirect | ⟨member, hmember, huser, -, hassigned⟩⟩
      · exact ⟨role, hrole, rfl, Or.inl hdirect⟩
      · exact ⟨role, hrole, rfl, Or.inr ⟨member, hmember, huser, hassigned⟩⟩

/-- The tables after the migrations: roles, and nobody. -/
def migratedDb : IamDb :=
  { users := []
    groups := []
    roles := [{ id := 101, name := "policy-admin" }, { id := 103, name := "policy-viewer" }]
    groupMembers := []
    userRoles := []
    groupRoles := [] }

/-- A user joins a group that has the role `policy-admin`, and the group is disabled. -/
def groupDisabled : List IamOperation :=
  [.createUser 1 { username := "first", subject := none, email := none, displayName := none
                   status := none, password := "password", mustChangePassword := none } "hash",
    .createGroup 10 { name := "admins", description := none, status := none },
    .assignRoleToGroup 10 "policy-admin",
    .addGroupMember 10 1,
    .updateGroup 10 { name := none, description := none, status := some "disabled" }]

/-- The tables after that. -/
def groupDisabledDb : IamDb := groupDisabled.foldl IamDb.after migratedDb

/-- The user keeps the role of the disabled group. -/
theorem disabled_group_grants_role :
    groupDisabledDb.groups.map (fun group => (group.id, group.status)) = [(10, "disabled")] ∧
      (groupDisabledDb.effectivePermissionsForUser [] 1).roles = ["policy-admin"] ∧
      ¬ Granted groupDisabledDb 1 "policy-admin" := by
  decide +kernel

/-! ### Resolving claims -/

/-- The user that claims resolve to. -/
def provisionedUser (db : IamDb) (claims : Claims) : Option IamUser :=
  (db.findUserBySubject claims.sub).or (claims.email.bind db.findUserByEmail)

lemma mem_of_provisionedUser (h : provisionedUser db claims = some user) : user ∈ db.users := by
  obtain h | ⟨-, h⟩ := Option.or_eq_some_iff.1 h
  · exact mem_of_find?_eq_some h
  · obtain ⟨email, -, h⟩ := Option.bind_eq_some_iff.1 h
    exact mem_of_find?_eq_some h

section Claims

variable {auth : AdminAuth} {rolePermissions : List (Uuid × String)} {db : IamDb} {claims : Claims}
  {ctx : UserContext}

lemma contextOf_ok (h : claims.contextOf rolePermissions db user = .ok ctx) :
    ctx.principalId = some user.id ∧
      ctx.roles = (db.effectivePermissionsForUser rolePermissions user.id).roles := by
  rw [Claims.contextOf] at h
  split at h
  · cases h
  · cases h
    exact ⟨rfl, rfl⟩

/-- A caller is the user that the claims resolve to, or stands for themselves. -/
lemma resolveClaims_ok (h : auth.resolveClaims rolePermissions db claims = .ok ctx) :
    (∃ user, provisionedUser db claims = some user ∧ ctx.principalId = some user.id ∧
      ctx.roles = (db.effectivePermissionsForUser rolePermissions user.id).roles) ∨
    (provisionedUser db claims = none ∧ ctx.principalId = none ∧
      ctx.roles = claims.computeRoles) := by
  rw [AdminAuth.resolveClaims] at h
  split at h
  · rename_i user hsubject
    exact Or.inl ⟨user, by rw [provisionedUser, hsubject, Option.some_or], contextOf_ok h⟩
  · rename_i hsubject
    have hprovisioned : provisionedUser db claims = claims.email.bind db.findUserByEmail := by
      rw [provisionedUser, hsubject, Option.none_or]
    rw [hprovisioned]
    split at h
    · rename_i user hemail
      exact Or.inl ⟨user, hemail, contextOf_ok h⟩
    · rename_i hemail
      split at h
      · cases h
        exact Or.inr ⟨hemail, rfl, rfl⟩
      · cases h

/-- A token of the identity provider that is let in has been resolved. -/
lemma authenticate_oidc (h : auth.authenticate rolePermissions db now (.oidcJwt claims) = .ok ctx) :
    auth.resolveClaims rolePermissions db claims = .ok ctx := by
  have hlocal : validateLocalJwt now (.oidcJwt claims) = .error .invalidSignature := rfl
  rw [AdminAuth.authenticate, hlocal] at h
  split at h
  · rename_i hclaims
    cases hclaims
  · split at h
    · rename_i jwt _ _
      obtain ⟨validated, hvalidated, h⟩ := bind_ok.1 (mapError_ok.1 h)
      obtain ⟨_, -, rfl⟩ := map_ok.1 hvalidated
      exact h
    · cases h

end Claims

/-! ### Roles -/

/-- A role is stored for the user that the claims resolve to. -/
def StoredRole (db : IamDb) (rolePermissions : List (Uuid × String)) (claims : Claims)
    (role : String) : Prop :=
  ∃ user ∈ provisionedUser db claims,
    role ∈ (db.effectivePermissionsForUser rolePermissions user.id).roles

/-- A role stands in the field `roles` or `scope` of the claims. -/
def NamedRole (claims : Claims) (role : String) : Prop :=
  (∃ roles ∈ claims.roles, role ∈ roles) ∨ ∃ scope ∈ claims.scope, role ∈ splitWhitespace scope

/-- The claims have roles, or a scope. -/
def HasRoleField (claims : Claims) : Prop :=
  (∃ roles ∈ claims.roles, roles ≠ []) ∨ claims.scope.isSome = true

instance (claims : Claims) : Decidable (HasRoleField claims) :=
  inferInstanceAs (Decidable ((∃ _ ∈ _, _) ∨ _))

/-- The list of roles comes first, if it is there and not empty. -/
lemma computeRoles_cases (claims : Claims) :
    (∃ roles ∈ claims.roles, roles ≠ [] ∧ claims.computeRoles = roles) ∨
      ((∀ roles ∈ claims.roles, roles = []) ∧
        claims.computeRoles = (claims.scope.map splitWhitespace).getD defaultStaticRoles) := by
  rw [Claims.computeRoles]
  rcases claims.roles with _ | (_ | ⟨role, rest⟩)
  · exact Or.inr ⟨by simp, by cases claims.scope <;> rfl⟩
  · exact Or.inr ⟨by simp, by cases claims.scope <;> rfl⟩
  · exact Or.inl ⟨role :: rest, rfl, cons_ne_nil _ _, rfl⟩

/-- Claims with one of these fields name the roles they are given. -/
lemma namedRole_of_computeRoles (hfield : HasRoleField claims) (h : role ∈ claims.computeRoles) :
    NamedRole claims role := by
  obtain ⟨roles, hroles, -, hcompute⟩ | ⟨hempty, hcompute⟩ := computeRoles_cases claims
  · exact Or.inl ⟨roles, hroles, hcompute ▸ h⟩
  · obtain ⟨roles, hroles, hne⟩ | hscope := hfield
    · exact absurd (hempty roles hroles) hne
    · obtain ⟨scope, hscope⟩ := Option.isSome_iff_exists.1 hscope
      rw [hcompute, hscope] at h
      exact Or.inr ⟨scope, hscope, h⟩

/-- Claims without them are given all roles of an administrator. -/
lemma computeRoles_of_not_hasRoleField (hfield : ¬ HasRoleField claims) :
    claims.computeRoles = defaultStaticRoles ∧ ∀ role, ¬ NamedRole claims role := by
  obtain ⟨hroles, hscope⟩ := not_or.1 hfield
  have hnone : claims.scope = none := by simpa using hscope
  obtain ⟨roles, hmem, hne, -⟩ | ⟨hempty, hcompute⟩ := computeRoles_cases claims
  · exact absurd ⟨roles, hmem, hne⟩ hroles
  · refine ⟨by rw [hcompute, hnone]; rfl, ?_⟩
    rintro role (⟨roles, hmem, hrole⟩ | ⟨scope, hmem, -⟩)
    · rw [hempty roles hmem] at hrole
      cases hrole
    · rw [hnone] at hmem
      cases hmem

/-- **Where the roles come from.** The roles of a caller are stored for the user that the claims resolve
to or named by the claims, exactly when there is such a user or the claims have a field for roles. -/
theorem claims_roles_iff (auth : AdminAuth) (rolePermissions : List (Uuid × String)) (db : IamDb)
    (now : ℕ) (claims : Claims) (ctx : UserContext)
    (h : auth.authenticate rolePermissions db now (.oidcJwt claims) = .ok ctx) :
    (∀ role ∈ ctx.roles, StoredRole db rolePermissions claims role ∨ NamedRole claims role) ↔
      (provisionedUser db claims).isSome = true ∨ HasRoleField claims := by
  obtain ⟨user, huser, -, hroles⟩ | ⟨hnone, -, hroles⟩ := resolveClaims_ok (authenticate_oidc h)
  · rw [hroles, huser]
    exact ⟨fun _ => Or.inl rfl, fun _ role hrole => Or.inl ⟨user, huser, hrole⟩⟩
  · have hnot : ∀ role, ¬ StoredRole db rolePermissions claims role := by
      rintro role ⟨user, huser, -⟩
      rw [hnone] at huser
      cases huser
    rw [hroles, hnone]
    constructor
    · intro hall
      refine Or.inr (not_not.1 fun hfield => ?_)
      obtain ⟨hdefault, hunnamed⟩ := computeRoles_of_not_hasRoleField hfield
      obtain hstored | hnamed := hall "policy-admin" (by simp [hdefault, defaultStaticRoles])
      · exact hnot _ hstored
      · exact hunnamed _ hnamed
    · rintro (hsome | hfield) role hrole
      · cases hsome
      · exact Or.inr (namedRole_of_computeRoles hfield hrole)

/-- The settings of a service with an identity provider. -/
def oidcAuth : AdminAuth :=
  { mode := .oidc, allowClaimFallback := true, localJwtTtlSeconds := 3600, maxFailedAttempts := 5
    lockoutSeconds := 900, refreshTtlSeconds := 604800, refreshMaxSessions := 5
    jwt := some { issuer := "https://issuer", audience := "admin" } }

/-- Claims of a caller, with a subject and an email only. -/
def plainClaims (sub : String) (email : Option String) : Claims :=
  { sub, iss := "https://issuer", aud := some "admin", exp := some 100, preferredUsername := none
    email, roles := none, scope := none }

/-- A caller who is nobody and names no role is let in as an administrator. -/
theorem unknown_caller_is_admin :
    (oidcAuth.authenticate [] migratedDb 0 (.oidcJwt (plainClaims "stranger" none))).toOption.map
        (fun ctx => (ctx.principalId, ctx.roles)) =
      some (none, ["policy-admin", "policy-editor", "policy-viewer", "auditor"]) := by
  decide +kernel

/-- A caller who names a role has this one. -/
theorem named_role_given :
    ∃ ctx, oidcAuth.authenticate [] migratedDb 0
        (.oidcJwt { plainClaims "stranger" none with scope := some "policy-viewer" }) = .ok ctx ∧
      ctx.roles = ["policy-viewer"] ∧
      ∀ role ∈ ctx.roles, StoredRole migratedDb []
        { plainClaims "stranger" none with scope := some "policy-viewer" } role ∨
          NamedRole { plainClaims "stranger" none with scope := some "policy-viewer" } role := by
  have hend : (oidcAuth.authenticate [] migratedDb 0 (.oidcJwt
      { plainClaims "stranger" none with scope := some "policy-viewer" })).toOption.any
        (fun ctx => ctx.roles = ["policy-viewer"]) = true := by
    decide +kernel
  obtain ⟨ctx, hctx, hroles⟩ := (Option.any_eq_true _ _).1 hend
  have hctx := toOption_eq_some.1 hctx
  refine ⟨ctx, hctx, of_decide_eq_true hroles, ?_⟩
  exact (claims_roles_iff oidcAuth [] migratedDb 0 _ ctx hctx).2 (Or.inr (Or.inr rfl))

/-! ### Subjects -/

/-- **Who the subject is.** A caller who is a user with a bound subject has this subject, exactly when
the user that the email leads to, for a subject nobody has, has none bound. -/
theorem claims_subject_iff (auth : AdminAuth) (rolePermissions : List (Uuid × String)) (db : IamDb)
    (hids : Unique IamUser.id db.users) (now : ℕ) (claims : Claims) (ctx : UserContext)
    (h : auth.authenticate rolePermissions db now (.oidcJwt claims) = .ok ctx) :
    (∀ user ∈ db.users, ctx.principalId = some user.id →
      ∀ subject ∈ user.subject, claims.sub = subject) ↔
    (db.findUserBySubject claims.sub = none →
      ∀ user ∈ claims.email.bind db.findUserByEmail, user.subject = none) := by
  obtain ⟨user, huser, hid, -⟩ | ⟨hnone, hid, -⟩ := resolveClaims_ok (authenticate_oidc h)
  · have hmem := mem_of_provisionedUser huser
    -- the caller is this user and no other
    have honly : (∀ other ∈ db.users, ctx.principalId = some other.id →
        ∀ subject ∈ other.subject, claims.sub = subject) ↔
        ∀ subject ∈ user.subject, claims.sub = subject := by
      constructor
      · exact fun hall => hall user hmem hid
      · intro hown other hother hotherId
        obtain rfl := hids.eq hother hmem (Option.some.inj (hotherId.symm.trans hid))
        exact hown
    rw [honly]
    obtain hsubject | ⟨hnoSubject, hemail⟩ := Option.or_eq_some_iff.1 huser
    · have hbound : user.subject = some claims.sub := by simpa using find?_some hsubject
      rw [hsubject, hbound]
      simp
    · rw [hnoSubject, hemail]
      simp only [Option.mem_def, Option.some.injEq, forall_eq', forall_const]
      constructor
      · intro hown
        by_contra hsome
        obtain ⟨subject, hbound⟩ := Option.ne_none_iff_exists'.1 hsome
        have hfound : user.subject ≠ some claims.sub := by
          simpa using find?_eq_none.1 hnoSubject user hmem
        exact hfound (hown subject hbound ▸ hbound)
      · intro hunbound subject hbound
        rw [hunbound] at hbound
        cases hbound
  · obtain ⟨hnoSubject, hemail⟩ := Option.or_eq_none_iff.1 hnone
    rw [hid, hemail]
    simp

/-- A user who is bound to a subject and has an email. -/
def boundUserDb : IamDb :=
  { migratedDb with
    users := [{ id := 1, username := some "first", subject := some "subject-1"
                email := some "first@example.com", displayName := none, status := "active"
                isProtected := false, tokenVersion := 1, passwordHash := none
                mustChangePassword := false }]
    userRoles := [(1, 101)] }

/-- Another subject with this email is let in as the user. -/
theorem other_subject_is_user :
    (oidcAuth.authenticate [] boundUserDb 0
        (.oidcJwt (plainClaims "subject-2" (some "first@example.com")))).toOption.map
        (fun ctx => (ctx.principalId, ctx.roles)) = some (some 1, ["policy-admin"]) ∧
      boundUserDb.users.map (·.subject) = [some "subject-1"] := by
  decide +kernel

/-- The subject itself is the user. -/
theorem bound_subject_is_user :
    ∃ ctx, oidcAuth.authenticate [] boundUserDb 0
        (.oidcJwt (plainClaims "subject-1" (some "first@example.com"))) = .ok ctx ∧
      ctx.principalId = some 1 ∧
      ∀ user ∈ boundUserDb.users, ctx.principalId = some user.id →
        ∀ subject ∈ user.subject, "subject-1" = subject := by
  have hend : (oidcAuth.authenticate [] boundUserDb 0 (.oidcJwt
      (plainClaims "subject-1" (some "first@example.com")))).toOption.any
        (fun ctx => ctx.principalId = some 1) = true := by
    decide +kernel
  obtain ⟨ctx, hctx, hid⟩ := (Option.any_eq_true _ _).1 hend
  have hctx := toOption_eq_some.1 hctx
  refine ⟨ctx, hctx, of_decide_eq_true hid, ?_⟩
  exact (claims_subject_iff oidcAuth [] boundUserDb (by decide) 0 _ ctx hctx).2 (by decide +kernel)

end OpenDefender.System.Identity
