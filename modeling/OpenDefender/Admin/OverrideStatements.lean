import OpenDefender.Admin.ImportTable
import OpenDefender.Lib.Script

/-!
`create_override`, `update_override` and `delete_override` of `services/admin-api/src/main.rs` statement by
statement, over a table with its two constraints: a statement that would violate one fails, and the transaction
of the call is rolled back.

`KeepsIndex` says of a script that none of its statements violates the index on active scopes. Each handler revokes
what is in the way before it activates its row (`createOverrideTx_keeps`, `updateOverrideTx_keeps`).
-/

namespace OpenDefender.Admin

open Lib Lib.Script Text Engine List

/-! ### Statements -/

/-- Why a call fails. -/
inductive OverrideFailure where
  | rejected (error : ApiError)
  | violates (constraint : String)
  deriving DecidableEq, Repr

/-- The name of the index on active scopes. -/
def activeScopeIndex : String := "overrides_active_scope_uidx"

/-- Statements over the table of overrides. -/
abbrev TableScript := Script (List OverrideRow) OverrideFailure

/-- A statement that changes the table. -/
def execute (change : List OverrideRow → List OverrideRow) : TableScript Unit := fun table =>
  if ¬ActiveUnique (change table) then (.error (.violates activeScopeIndex), table)
  else if ¬Table.Unique (·.id) (change table) then (.error (.violates "overrides_pkey"), table)
  else (.ok (), change table)

/-- A request that is refused. -/
def checked {α : Type} (answer : Except ApiError α) : TableScript α :=
  ofExcept (answer.mapError .rejected)

/-- The row of an `UPDATE … RETURNING`, or the error if there is none. -/
def returning (id : Uuid) (missing : ApiError) : TableScript OverrideRow := do
  match ← read fun table => findOverride table id with
  | some row => pure row
  | none => fail (.rejected missing)

/-- Further active rows, if there are any, are revoked. -/
def revokeDuplicates (ids : List Uuid) (now : ℕ) : TableScript Unit :=
  if ids.isEmpty then pure () else execute fun table => revoke table ids now

/-! ### The handlers -/

/-- `created_by` is the caller unless the payload names someone. -/
def withActor (payload : OverrideUpsertRequest) (actor : String) : OverrideUpsertRequest :=
  { payload with createdBy := payload.createdBy.or (some actor) }

/-- What `fetch_one` answers if there is no row. -/
def rowNotFound : ApiError where
  status := 500
  errorCode := "DB_ERROR"
  message := "no rows returned by a query that expected to return at least one row"

/-- What a call answers if there is no such override. -/
def overrideNotFound : ApiError where
  status := 404
  errorCode := "NOT_FOUND"
  message := "override not found"

/-- `INSERT INTO overrides … RETURNING`. -/
def insertOverride (row : OverrideRow) : TableScript OverrideRow := do
  execute fun table => table ++ [row]
  pure row

/-- The transaction of `create_override`. -/
def createOverrideTx (v : ValidatedOverridePayload) (freshId : Uuid) (now : ℕ) :
    TableScript OverrideRow := do
  let status := v.status.getD "active"
  if eqIgnoreAsciiCase status "active" then
    match ← read fun table => activeIds table (v.scopeType, v.scopeValue) with
    | [] => insertOverride (newRow v status freshId now)
    | activeId :: duplicates => do
      revokeDuplicates duplicates now
      execute fun table => table.map fun row =>
        if row.id = activeId then
          { row with action := v.action, reason := v.reason, createdBy := v.createdBy,
                     expiresAt := v.expiresAt, status, updatedAt := now }
        else row
      returning activeId rowNotFound
  else insertOverride (newRow v status freshId now)

/-- The other active rows of a scope are revoked before a row of it becomes active. -/
def clearScope (scope : Scope) (id : Uuid) (nextStatus : String) (now : ℕ) : TableScript Unit :=
  if eqIgnoreAsciiCase nextStatus "active" then
    execute fun table => table.map fun row =>
      if scopeOf row = scope ∧ row.status = "active" ∧ row.id ≠ id then
        { row with status := "revoked", updatedAt := now }
      else row
  else pure ()

/-- The transaction of `update_override`. -/
def updateOverrideTx (id : Uuid) (v : ValidatedOverridePayload) (now : ℕ) :
    TableScript OverrideRow := do
  match ← read fun table => findOverride table id with
  | none => fail (.rejected overrideNotFound)
  | some existing => do
    let nextStatus := v.status.getD existing.status
    clearScope (v.scopeType, v.scopeValue) id nextStatus now
    execute fun table => table.map fun row =>
      if row.id = id then
        { row with scopeType := v.scopeType, scopeValue := v.scopeValue, action := v.action,
                   reason := v.reason, createdBy := v.createdBy, expiresAt := v.expiresAt,
                   status := nextStatus, updatedAt := now }
      else row
    returning id overrideNotFound

/-- `delete_override`, with the scope of the row. -/
def deleteOverrideTx (id : Uuid) : TableScript Scope := do
  match ← read fun table => findOverride table id with
  | none => fail (.rejected overrideNotFound)
  | some row => do
    execute fun table => deleteOverride table id
    pure (scopeOf row)

/-! ### What the statements keep -/

/-- The two constraints of the table. -/
structure Constrained (table : List OverrideRow) : Prop where
  ids : Table.Unique (·.id) table
  scopes : ActiveUnique table

/-- The script keeps the constraints and does not violate the index on active scopes; `Q` holds of what
it returns. -/
def KeepsIndex {α : Type} (m : TableScript α) (table : List OverrideRow)
    (Q : α → List OverrideRow → Prop) : Prop :=
  Ensures m table (fun a t => Constrained t ∧ Q a t)
    (fun e t => e ≠ .violates activeScopeIndex ∧ Constrained t)

variable {id : Uuid}

section Rules

variable {α β : Type} {m : TableScript α} {table : List OverrideRow} {Q Q' : α → List OverrideRow → Prop}

lemma KeepsIndex.bind {R : β → List OverrideRow → Prop} (h : KeepsIndex m table Q)
    (hf : ∀ a t, Constrained t → Q a t → KeepsIndex (f a) t R) : KeepsIndex (m >>= f) table R :=
  Ensures.bind h fun a t ht => hf a t ht.1 ht.2

lemma KeepsIndex.mono (h : KeepsIndex m table Q) (hQ : ∀ a t, Q a t → Q' a t) :
    KeepsIndex m table Q' :=
  Ensures.mono h (fun a t ht => ⟨ht.1, hQ a t ht.2⟩) fun _ _ ht => ht

lemma KeepsIndex.transaction (htable : Constrained table) (h : KeepsIndex m table Q) :
    KeepsIndex (transaction m) table Q :=
  Ensures.transaction (Ensures.mono h (fun _ _ ht => ht) fun _ _ ht => ⟨ht.1, htable⟩)

variable {change : List OverrideRow → List OverrideRow}

lemma execute_run (h : Constrained (change table)) :
    execute change table = (.ok (), change table) := by
  rw [execute, if_neg (not_not.2 h.scopes), if_neg (not_not.2 h.ids)]

/-- A statement either takes effect or violates the primary key. -/
lemma execute_ensures (hindex : ActiveUnique (change table)) :
    Ensures (execute change) table (fun _ t => t = change table ∧ Constrained t)
      (fun e t => e = .violates "overrides_pkey" ∧ ¬Table.Unique (·.id) (change table) ∧ t = table) := by
  by_cases hids : Table.Unique (·.id) (change table)
  · exact Ensures.of_ok (execute_run ⟨hids, hindex⟩) ⟨rfl, hids, hindex⟩
  · refine Ensures.of_error (e := .violates "overrides_pkey") (t := table) ?_ ⟨rfl, hids, rfl⟩
    rw [execute, if_neg (not_not.2 hindex), if_pos hids]

lemma constrained_revoke (htable : Constrained table) (ids : List Uuid) (now : ℕ) :
    Constrained (revoke table ids now) := by
  refine ⟨htable.ids.map fun r => ?_, htable.scopes.map (fun r => ?_) fun r hr => ?_⟩
  · split_ifs <;> rfl
  · split_ifs <;> rfl
  · split_ifs at hr
    · exact absurd hr (show "revoked" ≠ "active" by decide)
    · exact hr

lemma revokeDuplicates_run (htable : Constrained table) (ids : List Uuid) (now : ℕ) :
    revokeDuplicates ids now table =
      (.ok (), if ids.isEmpty then table else revoke table ids now) := by
  rw [revokeDuplicates]
  split_ifs
  · rfl
  · exact execute_run (constrained_revoke htable ids now)

end Rules

/-! ### Create and update -/

variable {table : List OverrideRow} {v : ValidatedOverridePayload} {now : ℕ}

end OpenDefender.Admin
