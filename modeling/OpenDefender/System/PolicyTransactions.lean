import OpenDefender.Admin.Policies
import OpenDefender.Lib.Run
import OpenDefender.Lib.Table

/-!
The transactions of `publish_policy` and `update_policy`, statement by statement, at READ COMMITTED
isolation, and the statements of the engine's `insert_policy_document`, each committed by itself.

A statement sees the rows committed when it starts. An `UPDATE` writes new versions of rows, which show
when the transaction commits; until its end the transaction holds these rows, and other transactions
that come to one of them wait. An `UPDATE` that has waited looks at the newest version of the row, and
passes over it if the row no longer meets the `WHERE` clause. `NOW()` is the start of the transaction.

* `Tx.step` is one statement of a transaction, or one row of the `UPDATE` that archives the other
  policies.
* `next` is one step of the system: the steps of any number of transactions and creations, in any order.
-/

namespace OpenDefender.System.PolicyTransactions

open Lib Run Table Engine Admin List

/-- What a transaction is for. -/
inductive Request where
  | publish (policyId : Uuid) (version notes : Option String)
  | update (policyId : Uuid) (payload : PolicyUpdateRequest)

/-- The policy of a request. -/
def Request.policyId : Request → Uuid
  | .publish policyId _ _ => policyId
  | .update policyId _ => policyId

/-- How far a transaction has got. A publication that archives the other policies has still to come to
the rows that its `UPDATE` has selected; once the row of the policy is written, the version text and the
status are fixed for the row of `policy_versions`. -/
inductive Stage where
  | begun
  | found (row : PolicyRow)
  | archiving (selected : List Uuid)
  | written (version status : String)
  | recorded (replaced : Option (List PolicyRule)) (version : PolicyVersionRow)

/-- A transaction under way, with the versions of rows it has written. -/
structure Tx where
  ctx : CallContext
  request : Request
  stage : Stage
  rows : List PolicyRow

/-- The statements: the first `SELECT`, the start of the `UPDATE` that archives the other policies, that
`UPDATE` at one of its rows, the `UPDATE` of the row of the policy, and the statements on rules and
versions, of which only the first reads what others may have written. -/
inductive Statement where
  | read
  | archive
  | archiveRow (policyId : Uuid)
  | write
  | record

/-- The transaction holds the row of a policy. -/
def Tx.Holds (tx : Tx) (policyId : Uuid) : Prop := policyId ∈ tx.rows.map (·.id)

instance (tx : Tx) (policyId : Uuid) : Decidable (tx.Holds policyId) :=
  inferInstanceAs (Decidable (_ ∈ _))

/-- More rows are held when more have been written. -/
lemma Tx.holds_append (tx : Tx) (stage : Stage) (new : List PolicyRow) (policyId : Uuid) :
    ({ tx with stage, rows := tx.rows ++ new } : Tx).Holds policyId ↔
      tx.Holds policyId ∨ policyId ∈ new.map (·.id) := by
  rw [Holds, Holds, map_append, mem_append]

variable (taxonomy : TaxonomyStore) (db : PolicyDb)

/-- The row of a policy as it is committed. -/
def committedRow (policyId : Uuid) : Option PolicyRow :=
  db.policies.find? fun p => p.id = policyId

variable (others : List Tx) (tx : Tx)

/-- The `SELECT` a call starts with; without a row the call has failed. -/
def Tx.read : Option Tx :=
  match tx.stage with
  | .begun => (committedRow db tx.request.policyId).map fun row => { tx with stage := .found row }
  | _ => none

/-- The rows of `UPDATE policies SET status = 'archived' WHERE status = 'active' AND id <> …`. -/
def selected (policyId : Uuid) : List Uuid :=
  (db.policies.filter fun p => p.status = "active" ∧ p.id ≠ policyId).map (·.id)

/-- The version that this `UPDATE` writes of a row, if the row still meets its condition. -/
def archivedRows (policyId rowId : Uuid) : List PolicyRow :=
  (db.policies.filter fun p => p.id = rowId ∧ p.status = "active" ∧ p.id ≠ policyId).map
    fun p => { p with status := "archived" }

/-- This `UPDATE` starts: it selects rows. -/
def Tx.archive : Option Tx :=
  match tx.request, tx.stage with
  | .publish policyId _ _, .found _ => some { tx with stage := .archiving (selected db policyId) }
  | _, _ => none

/-- It comes to one of the rows it has selected. -/
def Tx.archiveRow (rowId : Uuid) : Option Tx :=
  match tx.request, tx.stage with
  | .publish policyId _ _, .archiving selected =>
    if rowId ∈ selected ∧ ¬ ∃ other ∈ others, other.Holds rowId then
      some { tx with
        stage := .archiving (selected.filter (· ≠ rowId))
        rows := tx.rows ++ archivedRows db policyId rowId }
    else none
  | _, _ => none

/-- An `UPDATE` of the row of the policy. -/
def Tx.put (version status : String) (change : PolicyRow → PolicyRow) : Option Tx :=
  if ∃ other ∈ others, other.Holds tx.request.policyId then none
  else (committedRow db tx.request.policyId).map fun row =>
    { tx with stage := .written version status, rows := tx.rows ++ [change row] }

/-- The row of the policy becomes active, or gets the name, version and status of the update. -/
def Tx.write : Option Tx :=
  match tx.request, tx.stage with
  | .publish _ version _, .archiving [] =>
    let version := version.getD ("release-" ++ tx.ctx.timestamp)
    tx.put db others version "active" fun p => { p with status := "active", version }
  | .update _ payload, .found existing =>
    let name := (payload.name.map Text.trim).getD existing.name
    let version := (payload.version.map Text.trim).getD existing.version
    match updatedStatus existing.status payload.status with
    | .ok status => tx.put db others version status fun p => { p with name, version, status }
    | .error _ => none
  | _, _ => none

/-- The rules of the new version, and whether they replace those of `policy_rules`. -/
def Tx.newRules : Except ApiError (Option (List PolicyRule) × List PolicyRule) :=
  match tx.request with
  | .update _ { rules := some payload, .. } =>
    (acceptRules taxonomy tx.ctx.freshIds payload).map fun rules => (some rules, rules)
  | _ => .ok (none, loadRulesFromLatestVersion db tx.request.policyId)

/-- The notes of a request. -/
def Request.notes : Request → Option String
  | .publish _ _ notes => notes
  | .update _ payload => payload.notes

/-- The row of `policy_versions`. -/
def Tx.versionRow (version status : String) (rules : List PolicyRule) : PolicyVersionRow :=
  { policyId := tx.request.policyId, version, status, createdBy := some tx.ctx.actor
    notes := tx.request.notes, rules, createdAt := tx.ctx.now }

/-- The rule rows and the version are written. -/
def Tx.record : Option Tx :=
  match tx.stage with
  | .written version status =>
    match tx.newRules taxonomy db with
    | .ok (replaced, rules) =>
      some { tx with stage := .recorded replaced (tx.versionRow version status rules) }
    | .error _ => none
  | _ => none

/-- A statement of a transaction; `none` if it is not its turn, has to wait, or fails. -/
def Tx.step : Statement → Option Tx
  | .read => tx.read db
  | .archive => tx.archive db
  | .archiveRow rowId => tx.archiveRow db others rowId
  | .write => tx.write db others
  | .record => tx.record taxonomy db

/-- The tables after the commit. -/
def Tx.commit : Option PolicyDb :=
  match tx.stage with
  | .recorded replaced version =>
    let db := { db with policies := overlay PolicyRow.id tx.rows db.policies }
    let db := (replaced.map (replacePolicyRules db tx.request.policyId)).getD db
    some { db with policyVersions := db.policyVersions ++ [version] }
  | _ => none

/-- A run of `insert_policy_document` after its first statement: the rules it has still to insert. -/
structure Creation where
  policyId : Uuid
  version : String
  createdBy : Option String
  rules : List PolicyRule
  remaining : List PolicyRule

/-- The committed tables, the time of the last beginning, and what is under way. -/
structure State where
  db : PolicyDb
  clock : ℕ
  transactions : List Tx
  creations : List Creation

/-- The state in which nothing is under way. -/
def start (clock : ℕ) : State :=
  { db, clock, transactions := [], creations := [] }

/-- The steps of the system. -/
inductive Event where
  | begin (ctx : CallContext) (request : Request)
  | statement (i : ℕ) (statement : Statement)
  | commit (i : ℕ)
  | abort (i : ℕ)
  | insertPolicy (doc : PolicyDocument) (name : String) (createdBy : Option String) (policyId : Uuid)
      (now : ℕ)
  | insertRule (i : ℕ)
  | insertVersion (i : ℕ) (now : ℕ)
  | giveUp (i : ℕ)

/-- The first statement of `insert_policy_document`. -/
def State.insertPolicy (s : State) (doc : PolicyDocument) (name : String) (createdBy : Option String)
    (policyId : Uuid) (now : ℕ) : State :=
  { s with
    db := { s.db with policies := s.db.policies ++
      [{ id := policyId, name, version := doc.version, status := "active", createdBy,
         createdAt := now }] }
    clock := now
    creations := s.creations ++
      [{ policyId, version := doc.version, createdBy, rules := doc.rules, remaining := doc.rules }] }

/-- One step of the system. -/
def next (s : State) : Event → Option State
  | .begin ctx request =>
    if s.clock ≤ ctx.now then
      some { s with
        clock := ctx.now
        transactions := s.transactions ++ [{ ctx, request, stage := .begun, rows := [] }] }
    else none
  | .statement i statement => do
    let tx ← s.transactions[i]?
    let tx ← tx.step taxonomy s.db (s.transactions.eraseIdx i) statement
    return { s with transactions := s.transactions.set i tx }
  | .commit i => do
    let tx ← s.transactions[i]?
    let db ← tx.commit s.db
    return { s with db, transactions := s.transactions.eraseIdx i }
  | .abort i => some { s with transactions := s.transactions.eraseIdx i }
  | .insertPolicy doc name createdBy policyId now =>
    if s.clock ≤ now ∧ policyId ∉ s.db.policies.map (·.id) then
      some (s.insertPolicy doc name createdBy policyId now)
    else none
  | .insertRule i =>
    match s.creations[i]? with
    | some { policyId, version, createdBy, rules, remaining := rule :: remaining } =>
      some { s with
        db := { s.db with policyRules := s.db.policyRules ++ [ruleToDbRow policyId rule] }
        creations := s.creations.set i { policyId, version, createdBy, rules, remaining } }
    | _ => none
  | .insertVersion i now =>
    match s.creations[i]? with
    | some { policyId, version, createdBy, rules, remaining := [] } =>
      if s.clock ≤ now then
        some { s with
          db := insertPolicyVersion s.db policyId version "active" createdBy none rules now
          clock := now
          creations := s.creations.eraseIdx i }
      else none
    | _ => none
  | .giveUp i => some { s with creations := s.creations.eraseIdx i }

/-! ### What a statement does -/

section Statements

variable {taxonomy : TaxonomyStore} {db : PolicyDb} {others : List Tx} {tx tx' : Tx}

lemma committedRow_eq_some (h : committedRow db policyId = some row) :
    row ∈ db.policies ∧ row.id = policyId :=
  ⟨mem_of_find?_eq_some h, by simpa using find?_some h⟩

lemma read_eq_some (h : tx.read db = some tx') :
    tx.stage = .begun ∧ ∃ row, tx' = { tx with stage := .found row } := by
  rw [Tx.read] at h
  split at h
  · rename_i hstage
    obtain ⟨row, -, rfl⟩ := Option.map_eq_some_iff.1 h
    exact ⟨hstage, row, rfl⟩
  · cases h

lemma archive_eq_some (h : tx.archive db = some tx') :
    (∃ row, tx.stage = .found row) ∧
      tx' = { tx with stage := .archiving (selected db tx.request.policyId) } := by
  rw [Tx.archive] at h
  split at h
  · rename_i policyId _ _ row hrequest hstage
    cases h
    exact ⟨⟨row, hstage⟩, by rw [hrequest]; rfl⟩
  · cases h

lemma archiveRow_eq_some (h : tx.archiveRow db others rowId = some tx') :
    ∃ unvisited, tx.stage = .archiving unvisited ∧
      tx' = { tx with
        stage := .archiving (unvisited.filter (· ≠ rowId))
        rows := tx.rows ++ archivedRows db tx.request.policyId rowId } := by
  rw [Tx.archiveRow] at h
  split at h
  · rename_i policyId _ _ unvisited hrequest hstage
    obtain rfl := Option.some.inj (Option.ite_none_right_eq_some.1 h).2
    exact ⟨unvisited, hstage, by rw [hrequest]; rfl⟩
  · cases h

lemma put_eq_some (h : tx.put db others version status change = some tx')
    (hchange : ∀ p, (change p).id = p.id) :
    (∀ other ∈ others, ¬ other.Holds tx.request.policyId) ∧
      ∃ version status, ∃ row : PolicyRow, row.id = tx.request.policyId ∧
        tx' = { tx with stage := .written version status, rows := tx.rows ++ [row] } := by
  obtain ⟨hfree, h⟩ := Option.ite_none_left_eq_some.1 h
  obtain ⟨row, hrow, rfl⟩ := Option.map_eq_some_iff.1 h
  refine ⟨fun other hother hholds => hfree ⟨other, hother, hholds⟩, version, status, change row, ?_, rfl⟩
  exact (hchange row).trans (committedRow_eq_some hrow).2

/-- The row of the policy is written, and no other transaction holds it. -/
lemma write_eq_some (h : tx.write db others = some tx') :
    (tx.stage = .archiving [] ∨ ∃ policyId payload, tx.request = .update policyId payload) ∧
      (∀ other ∈ others, ¬ other.Holds tx.request.policyId) ∧
      ∃ version status, ∃ row : PolicyRow, row.id = tx.request.policyId ∧
        tx' = { tx with stage := .written version status, rows := tx.rows ++ [row] } := by
  rw [Tx.write] at h
  split at h
  · rename_i hstage
    exact ⟨Or.inl hstage, put_eq_some h fun _ => rfl⟩
  · rename_i policyId payload _ hrequest _
    simp only at h
    split at h
    · exact ⟨Or.inr ⟨policyId, payload, hrequest⟩, put_eq_some h fun _ => rfl⟩
    · cases h
  · cases h

lemma record_eq_some (h : tx.record taxonomy db = some tx') :
    ∃ version status replaced rules, tx.stage = .written version status ∧
      tx.newRules taxonomy db = .ok (replaced, rules) ∧
      tx' = { tx with stage := .recorded replaced (tx.versionRow version status rules) } := by
  rw [Tx.record] at h
  split at h
  · rename_i version status hstage
    split at h
    · rename_i replaced rules hrules
      cases h
      exact ⟨version, status, replaced, rules, hstage, hrules, rfl⟩
    · cases h
  · cases h

lemma commit_eq_some (h : tx.commit db = some db') :
    ∃ replaced version, tx.stage = .recorded replaced version ∧
      db'.policies = overlay PolicyRow.id tx.rows db.policies ∧
      db'.policyRules =
        (replaced.map fun rules =>
          (replacePolicyRules db tx.request.policyId rules).policyRules).getD db.policyRules ∧
      db'.policyVersions = db.policyVersions ++ [version] := by
  rw [Tx.commit] at h
  split at h
  · rename_i replaced version hstage
    cases h
    refine ⟨replaced, version, hstage, ?_⟩
    cases replaced <;> exact ⟨rfl, rfl, rfl⟩
  · cases h

end Statements

end OpenDefender.System.PolicyTransactions
