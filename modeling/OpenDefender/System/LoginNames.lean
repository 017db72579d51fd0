import OpenDefender.Admin.LocalAuth
import OpenDefender.System.IamCalls

/-!
Which user a login name belongs to.

A login looks for a user by email or username, and both columns are unique each for itself, whatever the
case of the letters. Nothing keeps the email of one user from being the username of another. `login_names_unique`: as
long as no row is written that `Crosses` another one, every login name belongs to at most one user.
-/

namespace OpenDefender.System.LoginNames

open Lib Run Pool Text Table Admin IamCalls List

/-- The email of one is the username of the other. -/
def Crosses (a b : IamUser) : Prop :=
  (∃ name, lower a.email = some name ∧ lower b.username = some name) ∨
    ∃ name, lower a.username = some name ∧ lower b.email = some name

instance (a b : IamUser) : Decidable (Crosses a b) :=
  decidable_of_iff
    ((a.email.isSome = true ∧ lower a.email = lower b.username) ∨
      (a.username.isSome = true ∧ lower a.username = lower b.email)) (by
    refine or_congr ?_ ?_
    · cases a.email <;> simp [lower, eq_comm]
    · cases a.username <;> simp [lower, eq_comm])

/-- No login finds both. -/
def Apart (a b : IamUser) : Prop :=
  ∀ identifier, ¬ (a.MatchesLogin identifier ∧ b.MatchesLogin identifier)

lemma Apart.symm (h : Apart a b) : Apart b a :=
  fun identifier hboth => h identifier hboth.symm

/-- The calls that give users their names. -/
def NamingCall : IamOperation → Prop
  | .createUser _ _ _ => True
  | .updateUser _ _ => True
  | _ => False

/-- The rows such a call writes. -/
def newRows (db : IamDb) : IamOperation → List IamUser
  | .createUser id payload passwordHash => [payload.row id passwordHash]
  | .updateUser id payload => (db.users.filter fun user => user.id = id).map (·.assign payload)
  | _ => []

/-- Only these calls are made. -/
def Naming : Event → Prop
  | .begin operation => NamingCall operation
  | _ => True

/-- A row that is written crosses no other one. -/
def Uncrossed (s : State) : Event → Prop
  | .write i => ∀ p ∈ s.pending[i]?, ∀ row ∈ newRows s.db p.operation, ∀ other ∈ s.db.users,
      other.id ≠ row.id → ¬ Crosses row other
  | _ => True

instance (s : State) (e : Event) : Decidable (Uncrossed s e) := by
  unfold Uncrossed
  split <;> infer_instance

/-! ### The columns -/

section Columns

variable {row other : IamUser} {others : List IamUser}

lemma ne_of_isTaken (h : isTaken value (others.map column) = false) (hother : other ∈ others)
    (hsome : value ≠ none) : column other ≠ value := by
  rintro rfl
  simp only [isTaken, Bool.and_eq_false_iff, Option.isSome_eq_false_iff, Option.isNone_iff_eq_none] at h
  obtain h | h := h
  · exact hsome h
  · simp only [contains_eq_mem, decide_eq_false_iff_not] at h
    exact h (mem_map_of_mem hother)

/-- With a username, a login finds a user by what stands in the columns. -/
lemma matchesLogin_iff (hnamed : row.username.isSome = true) :
    row.MatchesLogin identifier ↔
      lower row.email = some (toAsciiLowercase (trim identifier)) ∨
        lower row.username = some (toAsciiLowercase (trim identifier)) := by
  obtain ⟨username, husername⟩ := Option.isSome_iff_exists.1 hnamed
  simp [IamUser.MatchesLogin, husername, lower]

/-- Rows that do not cross are apart by the unique indexes. -/
lemma apart_of_violation (hnone : row.violation others = none) (hother : other ∈ others)
    (hnamed : row.username.isSome = true) (hnamed' : other.username.isSome = true)
    (hcrosses : ¬ Crosses row other) : Apart row other := by
  rintro identifier ⟨hrow, hmatch⟩
  have hallowed := allowed_of_violation hnone
  obtain hrow | hrow := (matchesLogin_iff hnamed).1 hrow
  · obtain hmatch | hmatch := (matchesLogin_iff hnamed').1 hmatch
    · exact ne_of_isTaken hallowed.email hother (by simp [hrow]) (hmatch.trans hrow.symm)
    · exact hcrosses (Or.inl ⟨_, hrow, hmatch⟩)
  · obtain hmatch | hmatch := (matchesLogin_iff hnamed').1 hmatch
    · exact hcrosses (Or.inr ⟨_, hrow, hmatch⟩)
    · exact ne_of_isTaken hallowed.username hother (by simp [hrow]) (hmatch.trans hrow.symm)

end Columns

/-! ### Runs -/

/-- All users have a username, and any two are apart. -/
structure Separate (db : IamDb) : Prop where
  ids : Unique IamUser.id db.users
  named : ∀ row ∈ db.users, row.username.isSome = true
  apart : ∀ a ∈ db.users, ∀ b ∈ db.users, a.id ≠ b.id → Apart a b

/-- This, with only naming calls under way. -/
structure Inv (s : State) : Prop where
  separate : Separate s.db
  calls : ∀ p ∈ s.pending, NamingCall p.operation

section Writes

variable {db db' : IamDb}

lemma separate_createUser {id : Uuid} {payload : CreateUserRequest} (h : Separate db)
    (hnew : ∀ other ∈ db.users, other.id ≠ id → ¬ Crosses (payload.row id passwordHash) other)
    (hinsert : db.insertUser (payload.row id passwordHash) Violation.toValidation = .ok db') :
    Separate db' := by
  obtain ⟨hnone, rfl⟩ := insertUser_ok hinsert
  have hfresh : id ∉ db.users.map (·.id) := (allowed_of_violation hnone).id
  have hapart : ∀ other ∈ db.users, Apart (payload.row id passwordHash) other := by
    intro other hother
    have hne : other.id ≠ id := fun heq => hfresh (heq ▸ mem_map_of_mem hother)
    exact apart_of_violation hnone hother rfl (h.named other hother) (hnew other hother hne)
  refine ⟨h.ids.concat hfresh, forall_concat rfl h.named, ?_⟩
  refine forall_concat ?_ fun a ha => forall_concat (fun _ => (hapart a ha).symm) (h.apart a ha)
  exact forall_concat (fun hne => absurd rfl hne) fun b hb _ => hapart b hb

lemma named_assign {row : IamUser} (payload : UpdateUserRequest) (h : row.username.isSome = true) :
    (row.assign payload).username.isSome = true := by
  simp [IamUser.assign, h]

lemma separate_updateUser {id : Uuid} (h : Separate db)
    (hnew : ∀ row ∈ db.users, row.id = id → ∀ other ∈ db.users, other.id ≠ id →
      ¬ Crosses (row.assign payload) other)
    (hupdate : db.updateUserRow id (fun user => user.assign payload) = .ok db') : Separate db' := by
  obtain ⟨row, hrow, rfl, hnone, rfl⟩ := updateUserRow_ok hupdate
  have hapart : ∀ other ∈ db.users, other.id ≠ row.id → Apart (row.assign payload) other := by
    intro other hother hne
    have hmem : other ∈ db.users.filter fun other => other.id ≠ row.id :=
      mem_filter.2 ⟨hother, decide_eq_true hne⟩
    exact apart_of_violation hnone hmem (named_assign payload (h.named row hrow))
      (h.named other hother) (hnew row hrow rfl other hother hne)
  -- a row of the new table is the changed one, or an old one with another id
  have hmem : ∀ user ∈ db.users.map (fun u => if u.id = row.id then u.assign payload else u),
      user = row.assign payload ∨ user ∈ db.users ∧ user.id ≠ row.id := by
    intro user huser
    obtain ⟨old, hold, rfl⟩ := mem_map.1 huser
    by_cases hid : old.id = row.id
    · rw [if_pos hid, h.ids.eq hold hrow hid]
      exact Or.inl rfl
    · rw [if_neg hid]
      exact Or.inr ⟨hold, hid⟩
  refine ⟨h.ids.map fun user => ?_, fun user huser => ?_, fun a ha b hb hne => ?_⟩
  · split <;> rfl
  · obtain rfl | ⟨hold, -⟩ := hmem user huser
    · exact named_assign payload (h.named row hrow)
    · exact h.named user hold
  · obtain rfl | ⟨ha, haid⟩ := hmem a ha
    · obtain rfl | ⟨hb, hbid⟩ := hmem b hb
      · exact absurd rfl hne
      · exact hapart b hb hbid
    · obtain rfl | ⟨hb, hbid⟩ := hmem b hb
      · exact (hapart a ha haid).symm
      · exact h.apart a ha b hb hne

end Writes

lemma inv_next (s : State) (e : Event) (s' : State) (hinv : Inv s) (hok : Naming e ∧ Uncrossed s e)
    (h : next s e = some s') : Inv s' := by
  obtain ⟨hnaming, huncrossed⟩ := hok
  cases step_of_next h with
  | refuse operation => exact hinv
  | begin operation => exact ⟨hinv.separate, forall_concat hnaming hinv.calls⟩
  | @goOn i operation check rest first roleId found hi hrun =>
    have hcall := hinv.calls _ (mem_of_getElem? hi)
    exact ⟨hinv.separate, forall_set hcall (forall_eraseIdx hinv.calls)⟩
  | leave event i => exact ⟨hinv.separate, forall_eraseIdx hinv.calls⟩
  | @write i operation roleId db hi hwrite =>
    refine ⟨?_, forall_eraseIdx hinv.calls⟩
    have hnew := huncrossed _ hi
    cases operation with
    | createUser id payload passwordHash =>
      exact separate_createUser hinv.separate (hnew _ (mem_singleton.2 rfl)) hwrite
    | updateUser id payload =>
      refine separate_updateUser hinv.separate (fun row hrow hid other hother hne => ?_) hwrite
      refine hnew (row.assign payload) ?_ other hother (by rw [← hid] at hne; exact hne)
      exact mem_map_of_mem (mem_filter.2 ⟨hrow, decide_eq_true hid⟩)
    | _ => exact (hinv.calls _ (mem_of_getElem? hi)).elim

/-- A name belongs to at most one of users that are apart. -/
lemma Separate.matches_le_one (h : Separate db) (identifier : String) :
    (db.users.filter fun user => user.MatchesLogin identifier).length ≤ 1 := by
  refine (at_most_one_iff h.ids).2 fun a ha b hb hmatch hmatch' => ?_
  by_contra hne
  exact h.apart a ha b hb hne identifier ⟨hmatch, hmatch'⟩

/-- **Login names belong to one user.** In every run of `create_user` and `update_user` calls in which no
row is written that crosses another one, every login name matches at most one user, and a login reads the
same row in whatever order the rows stand. -/
theorem login_names_unique (db : IamDb) (hdb : Separate db) (es : List Event)
    (hcalls : ∀ e ∈ es, Naming e) (hguard : Guarded next Uncrossed (start db) es) (t : State)
    (hrun : run next (start db) es = some t) (identifier : String) :
    (t.db.users.filter fun user => user.MatchesLogin identifier).length ≤ 1 ∧
      ∀ users, users.Perm t.db.users →
        IamDb.loginRow { t.db with users } identifier = t.db.loginRow identifier := by
  have hinv : Inv t := Guarded.invariant Inv inv_next ⟨hdb, by simp [start]⟩
    (hguard.and_forall hcalls) hrun
  have hle := hinv.separate.matches_le_one identifier
  exact ⟨hle, fun users hperm => find?_perm hperm hle⟩

/-- A new user with a username and an email. -/
def newUser (username : String) (email : Option String) : CreateUserRequest :=
  { username, subject := none, email, displayName := none, status := none, password := "password"
    mustChangePassword := none }

/-- Two users are created, the second one with this username. -/
def twoCreated (username : String) : List Event :=
  [.begin (.createUser 1 (newUser "first" (some "first@example.com")) "hash-1"), .write 0,
    .begin (.createUser 2 (newUser username none) "hash-2"), .write 0]

/-- The username of the second is the email of the first; who logs in depends on the order. -/
theorem login_name_of_two_users :
    (run next (start IamDb.empty) (twoCreated "First@Example.com")).map (fun t =>
        ((t.db.users.filter fun user => user.MatchesLogin "first@example.com").map (·.id),
          (t.db.loginRow "first@example.com").map (·.id),
          (IamDb.loginRow { t.db with users := t.db.users.reverse } "first@example.com").map (·.id))) =
      some ([1, 2], some 1, some 2) := by
  decide +kernel

/-- With another username the name belongs to one. -/
theorem login_name_of_one_user :
    ∃ t, run next (start IamDb.empty) (twoCreated "second") = some t ∧ t.db.users.length = 2 ∧
      (t.db.users.filter fun user => user.MatchesLogin "first@example.com").length ≤ 1 := by
  refine exists_of_run (by decide +kernel) fun t hrun _ => ?_
  refine (login_names_unique IamDb.empty ⟨by decide, by simp [IamDb.empty], by simp [IamDb.empty]⟩
    (twoCreated "second") ?_ ?_ t hrun "first@example.com").1
  · simp [twoCreated, Naming, NamingCall]
  · decide +kernel

end OpenDefender.System.LoginNames
