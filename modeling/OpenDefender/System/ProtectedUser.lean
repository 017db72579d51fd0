import OpenDefender.System.IamCalls

/-!
The protected local admin. An operation that could disable, delete or rename a user, or take
`policy-admin` from them, asks first whether the user is protected; the one that could rename them
without asking, `bootstrap_local_admin`, does nothing while a user with the role is active.

These questions are asked before the change and not together with it. That is enough here, since no
operation ends the protection: what a query has found of a protected user stays true.

`protected_user_kept`: the user stays one, however the operations overlap.
-/

namespace OpenDefender.System.ProtectedUser

open Lib Run Pool Admin IamCalls List

/-- The user exists, is active and protected, has the username and holds `policy-admin` directly. -/
def Kept (userId : Uuid) (username : Option String) (db : IamDb) : Prop :=
  (∃ row ∈ db.users, row.id = userId ∧ row.status = "active" ∧ row.isProtected = true ∧
    row.username = username) ∧ db.HoldsDirectly userId

instance (userId : Uuid) (username : Option String) (db : IamDb) :
    Decidable (Kept userId username db) :=
  inferInstanceAs (Decidable ((∃ _ ∈ _, _) ∧ _))

/-- The operation could end this. -/
def Threatens (userId : Uuid) (operation : IamOperation) : Prop :=
  operation.demoted = some userId ∨ operation.Renames userId

/-- The queries that a protected active user with the role does not let pass. -/
def Blocks (userId : Uuid) (check : IamCheck) : Prop :=
  check = .notProtected userId ∨ check = .noDirectAdmin

variable {userId : Uuid} {username : Option String} {db db' : IamDb}

/-- An operation that threatens the user starts with such a query. -/
lemma exists_blocks_of_threatens (h : Threatens userId operation) :
    ∃ check ∈ operation.checks, Blocks userId check := by
  obtain hdemoted | hrenames := h
  · exact ⟨.notProtected userId, ensureUserMutationAllowed_subset hdemoted mem_cons_self,
      Or.inl rfl⟩
  · cases operation with
    | updateUser id payload =>
      obtain ⟨rfl, husername⟩ := hrenames
      refine ⟨.notProtected id, ?_, Or.inl rfl⟩
      rw [IamOperation.checks, if_pos husername]
      exact mem_append_right _ mem_cons_self
    | bootstrapLocalAdmin id password passwordHash =>
      exact ⟨.noDirectAdmin, mem_cons_self, Or.inr rfl⟩
    | _ => exact hrenames.elim

/-- The user stops an operation at such a query. -/
lemma not_goOn_of_blocks (hkey : Keyed db) (h : Kept userId username db)
    (hblocks : Blocks userId check) : check.run db ≠ .goOn first found := by
  obtain ⟨⟨row, hrow, hid, hactive, hprotected, -⟩, hdirect⟩ := h
  intro hrun
  obtain rfl | rfl := hblocks
  · obtain ⟨-, other, hother, hotherId, hnot⟩ := goOn_notProtected hrun
    obtain rfl := hkey.users.eq hrow hother (hid.trans hotherId.symm)
    rw [hprotected] at hnot
    cases hnot
  · exact (goOn_noDirectAdmin hrun).2 row hrow hactive (hid ▸ hdirect)

/-- A change that does not threaten the user. -/
lemma Kept.of_leaves (h : Kept userId username db) (hleaves : Leaves operation db db')
    (hsafe : ¬ Threatens userId operation) : Kept userId username db' := by
  obtain ⟨hdemoted, hrenames⟩ := not_or.1 hsafe
  obtain ⟨⟨row, hrow, rfl, hactive, hprotected, rfl⟩, hdirect⟩ := h
  obtain ⟨row', hrow', hstays⟩ := hleaves.row row hrow hactive hdemoted
  exact ⟨⟨row', hrow', hstays.id, hstays.status, hstays.isProtected hprotected,
    hstays.username hrenames⟩, hleaves.holdsDirectly hdemoted hdirect⟩

/-- The user is kept, and every operation under way that threatens them has still to ask. -/
structure Inv (userId : Uuid) (username : Option String) (s : State) : Prop where
  sound : Sound s
  kept : Kept userId username s.db
  blocked : ∀ p ∈ s.pending, Threatens userId p.operation → ∃ check ∈ p.checks, Blocks userId check

lemma inv_next (hs : Inv userId username s) (h : next s e = some s') : Inv userId username s' := by
  have hsound := sound_next hs.sound h
  cases step_of_next h with
  | refuse operation => exact hs
  | begin operation =>
    exact ⟨hsound, hs.kept, forall_concat exists_blocks_of_threatens hs.blocked⟩
  | @goOn i operation check rest first roleId found hi hrun =>
    refine ⟨hsound, hs.kept, forall_set (fun hthreat => ?_) (forall_eraseIdx hs.blocked)⟩
    -- the query that let the operation pass is not the one that stops it
    obtain ⟨blocking, hmem, hblocks⟩ := hs.blocked _ (mem_of_getElem? hi) hthreat
    obtain rfl | hmem := mem_cons.1 hmem
    · exact absurd hrun (not_goOn_of_blocks hs.sound.keyed hs.kept hblocks)
    · exact ⟨blocking, mem_append_right _ hmem, hblocks⟩
  | leave _ i => exact ⟨hsound, hs.kept, forall_eraseIdx hs.blocked⟩
  | write hi hwrite =>
    refine ⟨hsound, hs.kept.of_leaves (hs.sound.leaves hi hwrite) fun hthreat => ?_,
      forall_eraseIdx hs.blocked⟩
    obtain ⟨_, hmem, -⟩ := hs.blocked _ (mem_of_getElem? hi) hthreat
    cases hmem

lemma inv_run (hkey : Keyed db) (hkept : Kept userId username db)
    (hrun : run next (start db) es = some t) : Inv userId username t :=
  invariant_of_step (Inv userId username) (fun _ _ _ => inv_next)
    ⟨sound_start hkey, hkept, by simp [start]⟩ hrun

/-- **The protected admin is kept.** A user that is protected, active and directly assigned
`policy-admin` still is, with the same username, after any steps of any operations. -/
theorem protected_user_kept (db : IamDb) (userId : Uuid) (username : Option String)
    (hkey : Keyed db) (hkept : Kept userId username db) (es : List Event) (t : State)
    (hrun : run next (start db) es = some t) : Kept userId username t.db :=
  (inv_run hkey hkept hrun).kept

/-- The local admin, and a second user with the role. -/
def localAdminDb : IamDb :=
  { users :=
      [{ id := 1, username := some "admin", subject := none, email := some "admin@local"
         displayName := some "Default Admin", status := "active", isProtected := true
         tokenVersion := 1, passwordHash := some "hash", mustChangePassword := true },
       { id := 2, username := some "second", subject := none, email := none, displayName := none
         status := "active", isProtected := false, tokenVersion := 1, passwordHash := some "hash"
         mustChangePassword := false }]
    groups := []
    roles := [{ id := 101, name := "policy-admin" }, { id := 103, name := "policy-viewer" }]
    groupMembers := []
    userRoles := [(1, 101), (2, 101)]
    groupRoles := [] }

/-- The local admin is to be disabled, while the second user is deleted and the local admin gets
another email. -/
def attempts : List Event :=
  [.begin (.disableUser 1), .begin (.hardDeleteUser 2), .check 1, .check 1, .check 1,
    .begin (.updateUser 1
      { username := none, subject := none, email := some "root@local", displayName := none
        status := some "active" }),
    .write 2, .write 1, .check 0]

/-- What these leave. -/
theorem local_admin_kept :
    ∃ t, run next (start localAdminDb) attempts = some t ∧
      t.db.users.map (fun row => (row.id, row.email)) = [(1, some "root@local")] ∧
      Kept 1 (some "admin") t.db := by
  refine exists_of_run (by decide +kernel) fun t hrun _ => ?_
  exact protected_user_kept localAdminDb 1 (some "admin") (by decide) (by decide) attempts t hrun

end OpenDefender.System.ProtectedUser
