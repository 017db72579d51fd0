import OpenDefender.Admin.IamEffects
import OpenDefender.Lib.Pool
import OpenDefender.Lib.Run

/-!
Operations of the IAM service that overlap. Each of their queries and changes is a statement of its
own on the pool of connections, so between any two of them others can come; an operation may also be
given up, when its connection is lost.

* `next` is one step of one operation; `Step` says what it can do.
* `Sound` is what holds whatever the operations are: the primary keys, and that an operation knows the
  id of no role but the one it names.
-/

namespace OpenDefender.System.IamCalls

open Lib Run Pool Admin List

/-- An operation under way, the queries it has still to make, and the role it has found. -/
structure Pending where
  operation : IamOperation
  checks : List IamCheck
  roleId : Option Uuid

/-- The tables and the operations under way. -/
structure State where
  db : IamDb
  pending : List Pending

/-- The state in which nothing is under way. -/
def start (db : IamDb) : State := { db, pending := [] }

/-- The steps; an operation under way is known by its place in the list. -/
inductive Event where
  | begin (operation : IamOperation)
  | check (i : ℕ)
  | write (i : ℕ)
  | giveUp (i : ℕ)

/-- The operation is over, and has changed nothing. -/
def State.leave (s : State) (i : ℕ) : State := { s with pending := s.pending.eraseIdx i }

/-- One step. -/
def next (s : State) : Event → Option State
  | .begin operation =>
    match operation.validate with
    | .error _ => some s
    | .ok () =>
      some { s with pending := s.pending ++ [⟨operation, operation.checks, none⟩] }
  | .check i =>
    match s.pending[i]? with
    | some ⟨operation, check :: rest, roleId⟩ =>
      match check.run s.db with
      | .goOn first found =>
        some { s with
          pending := s.pending.set i ⟨operation, first ++ rest, found.or roleId⟩ }
      | .done => some (s.leave i)
      | .failed _ => some (s.leave i)
    | _ => none
  | .write i =>
    match s.pending[i]? with
    | some ⟨operation, [], roleId⟩ =>
      match operation.write s.db roleId with
      | .ok db => some { db, pending := s.pending.eraseIdx i }
      | .error _ => some (s.leave i)
    | _ => none
  | .giveUp i => some (s.leave i)

/-- What a step can do. -/
inductive Step (s : State) : Event → State → Prop
  | refuse (operation : IamOperation) : Step s (.begin operation) s
  | begin (operation : IamOperation) :
      Step s (.begin operation)
        { s with pending := s.pending ++ [⟨operation, operation.checks, none⟩] }
  | goOn {i : ℕ} {operation : IamOperation} {check : IamCheck} {rest first : List IamCheck}
      {roleId found : Option Uuid} (hi : s.pending[i]? = some ⟨operation, check :: rest, roleId⟩)
      (hrun : check.run s.db = .goOn first found) :
      Step s (.check i)
        { s with pending := s.pending.set i ⟨operation, first ++ rest, found.or roleId⟩ }
  | leave (event : Event) (i : ℕ) : Step s event (s.leave i)
  | write {i : ℕ} {operation : IamOperation} {roleId : Option Uuid} {db : IamDb}
      (hi : s.pending[i]? = some ⟨operation, [], roleId⟩)
      (hwrite : operation.write s.db roleId = .ok db) :
      Step s (.write i) { db, pending := s.pending.eraseIdx i }

theorem step_of_next (h : next s e = some s') : Step s e s' := by
  revert h
  -- there is no next state, or the branch is a step as it stands
  fun_cases next s e <;> rintro ⟨⟩ <;> constructor <;> assumption

/-! ### Queries -/

section Queries

variable {db : IamDb} {check : IamCheck} {first : List IamCheck} {found : Option Uuid}

lemma goOn_notProtected (h : (IamCheck.notProtected userId).run db = .goOn first found) :
    (first = [] ∧ found = none) ∧ ∃ row ∈ db.users, row.id = userId ∧ row.isProtected = false := by
  rw [IamCheck.run] at h
  split at h
  · cases h
  · rename_i row hfind
    split at h
    · cases h
    · rename_i hprotected
      obtain ⟨rfl, rfl⟩ := CheckResult.goOn.inj h
      exact ⟨⟨rfl, rfl⟩, row, mem_of_find?_eq_some hfind, by simpa using find?_some hfind,
        Bool.eq_false_iff.2 hprotected⟩

lemma goOn_activeAdmin (h : (IamCheck.activeAdmin userId).run db = .goOn first found) :
    found = none ∧
      (first = [.adminCount] ∨ first = [] ∧ db.userIsActivePolicyAdmin userId = false) := by
  rw [IamCheck.run] at h
  split at h
  · obtain ⟨rfl, rfl⟩ := CheckResult.goOn.inj h
    exact ⟨rfl, Or.inl rfl⟩
  · rename_i hadmin
    obtain ⟨rfl, rfl⟩ := CheckResult.goOn.inj h
    exact ⟨rfl, Or.inr ⟨rfl, Bool.eq_false_iff.2 hadmin⟩⟩

lemma goOn_adminCount (h : IamCheck.adminCount.run db = .goOn first found) :
    (first = [] ∧ found = none) ∧ 2 ≤ db.activePolicyAdminCount := by
  rw [IamCheck.run] at h
  split at h
  · cases h
  · rename_i hcount
    obtain ⟨rfl, rfl⟩ := CheckResult.goOn.inj h
    exact ⟨⟨rfl, rfl⟩, by omega⟩

lemma goOn_roleId (h : (IamCheck.roleId name).run db = .goOn first found) :
    first = [] ∧ ∃ role ∈ db.roles, role.name = name ∧ found = some role.id := by
  rw [IamCheck.run] at h
  split at h
  · cases h
  · rename_i role hfind
    obtain ⟨rfl, rfl⟩ := CheckResult.goOn.inj h
    exact ⟨rfl, role, mem_of_find?_eq_some hfind, by simpa using find?_some hfind, rfl⟩

lemma goOn_noDirectAdmin (h : IamCheck.noDirectAdmin.run db = .goOn first found) :
    (first = [] ∧ found = none) ∧
      ∀ row ∈ db.users, row.status = "active" → ¬ db.HoldsDirectly row.id := by
  rw [IamCheck.run] at h
  split at h
  · cases h
  · rename_i hnone
    obtain ⟨rfl, rfl⟩ := CheckResult.goOn.inj h
    refine ⟨⟨rfl, rfl⟩, fun row hrow hactive hdirect => hnone ?_⟩
    exact any_eq_true.2 ⟨row, hrow, decide_eq_true ⟨hactive, hdirect⟩⟩

/-- A query asks for no other than the count of admins, and only the one for a role finds one. -/
lemma goOn_spec (h : check.run db = .goOn first found) :
    (∀ c ∈ first, c = .adminCount) ∧
      ∀ id ∈ found, ∃ role ∈ db.roles, check = .roleId role.name ∧ role.id = id := by
  cases check with
  | notProtected userId =>
    obtain ⟨⟨rfl, rfl⟩, -⟩ := goOn_notProtected h
    simp
  | activeAdmin userId =>
    obtain ⟨rfl, rfl | ⟨rfl, -⟩⟩ := goOn_activeAdmin h <;> simp
  | adminCount =>
    obtain ⟨⟨rfl, rfl⟩, -⟩ := goOn_adminCount h
    simp
  | roleId name =>
    obtain ⟨rfl, role, hrole, rfl, rfl⟩ := goOn_roleId h
    refine ⟨by simp, fun id hid => ⟨role, hrole, rfl, Option.some.inj hid⟩⟩
  | noDirectAdmin =>
    obtain ⟨⟨rfl, rfl⟩, -⟩ := goOn_noDirectAdmin h
    simp

end Queries

/-! ### What holds of all operations -/

/-- The role an operation looks up, or has found, is the one it names. -/
structure Pending.Sound (db : IamDb) (p : Pending) : Prop where
  names : ∀ name, .roleId name ∈ p.checks → p.operation.roleName = some name
  resolved : Resolved db p.operation p.roleId

/-- The primary keys hold, and so does `Pending.Sound`. -/
structure Sound (s : State) : Prop where
  keyed : Keyed s.db
  pending : ∀ p ∈ s.pending, p.Sound s.db

lemma Pending.sound_begin (db : IamDb) (operation : IamOperation) :
    Pending.Sound db ⟨operation, operation.checks, none⟩ where
  names := fun _ h => roleName_of_mem_checks h
  resolved := by simp [Resolved]

lemma Pending.Sound.goOn {operation : IamOperation} {roleId found : Option Uuid}
    (h : Pending.Sound db ⟨operation, check :: rest, roleId⟩)
    (hrun : check.run db = .goOn first found) :
    Pending.Sound db ⟨operation, first ++ rest, found.or roleId⟩ := by
  obtain ⟨hfirst, hfound⟩ := goOn_spec hrun
  refine ⟨fun name hmem => ?_, ?_⟩
  · obtain hmem | hmem := mem_append.1 hmem
    · cases hfirst _ hmem
    · exact h.names name (mem_cons_of_mem _ hmem)
  · cases found with
    | none => exact h.resolved
    | some id =>
      intro id' hid
      cases hid
      obtain ⟨role, hrole, rfl, hroleId⟩ := hfound id rfl
      exact ⟨role, hrole, h.names role.name mem_cons_self, hroleId⟩

lemma Pending.Sound.of_roles {p : Pending} (h : p.Sound db) (hroles : db'.roles = db.roles) :
    p.Sound db' :=
  ⟨h.names, fun id hid => hroles ▸ h.resolved id hid⟩

/-- What an operation under way writes leaves alone what is not its own. -/
lemma Sound.leaves {i : ℕ} (h : Sound s) (hi : s.pending[i]? = some ⟨operation, checks, roleId⟩)
    (hwrite : operation.write s.db roleId = .ok db) : Leaves operation s.db db :=
  leaves_write h.keyed (h.pending _ (mem_of_getElem? hi)).resolved hwrite

lemma sound_start (hkey : Keyed db) : Sound (start db) :=
  ⟨hkey, by simp [start]⟩

lemma sound_next {e : Event} (hs : Sound s) (h : next s e = some s') : Sound s' := by
  cases step_of_next h with
  | refuse operation => exact hs
  | begin operation =>
    exact ⟨hs.keyed, forall_concat (Pending.sound_begin s.db operation) hs.pending⟩
  | goOn hi hrun =>
    have hp := hs.pending _ (mem_of_getElem? hi)
    exact ⟨hs.keyed, forall_set (hp.goOn hrun) (forall_eraseIdx hs.pending)⟩
  | leave _ i => exact ⟨hs.keyed, forall_eraseIdx hs.pending⟩
  | write hi hwrite =>
    have hleaves := hs.leaves hi hwrite
    exact ⟨hleaves.keyed hs.keyed,
      forall_eraseIdx fun p hp => (hs.pending p hp).of_roles hleaves.roles⟩

end OpenDefender.System.IamCalls
