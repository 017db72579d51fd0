import OpenDefender.Admin.PolicyRules
import OpenDefender.Engine.PolicyStore

/-!
The policy handlers of the admin API (`services/admin-api/src/policies.rs`) as far as they change the
policy tables: what the transaction of each call writes, or the error it answers with.

The texts and times the handlers take from the clock are arguments. After its transaction each of
these calls propagates the change; `System.PolicyPropagation` has that part.
-/

namespace OpenDefender.Admin

open Lib Text Engine List

/-- The answer for an id no policy has. -/
def policyNotFound : ApiError :=
  { status := 404, errorCode := "NOT_FOUND", message := "policy not found" }

/-- The answer of the guards on the active policy. -/
def activePolicyGuard (message : String) : ApiError :=
  { status := 409, errorCode := "ACTIVE_POLICY_GUARD", message }

/-- `map_db_error_tx`. -/
def dbError (message : String) : ApiError :=
  { status := 500, errorCode := "DB_ERROR", message }

/-- `normalize_policy_status`. -/
def normalizePolicyStatus (value : String) : Except ApiError String :=
  match toAsciiLowercase (trim value) with
  | "active" => .ok "active"
  | "draft" => .ok "draft"
  | "archived" => .ok "archived"
  | _ => .error (validationError "status must be active|draft|archived")

/-- `ensure_can_disable_status`. -/
def ensureCanDisableStatus (existingStatus nextStatus : String) : Except ApiError Unit :=
  if existingStatus = "active" ∧ nextStatus = "archived" then
    .error (activePolicyGuard
      "active policy cannot be disabled directly; activate another policy first")
  else .ok ()

/-- `ensure_can_delete_status`. -/
def ensureCanDeleteStatus (status : String) : Except ApiError Unit :=
  if status = "active" then
    .error (activePolicyGuard "active policy cannot be deleted; activate another policy first")
  else .ok ()

variable (db : PolicyDb) (policyId : Uuid)

/-- The row of a policy. -/
def findPolicy : Except ApiError PolicyRow :=
  match db.policies.find? (fun p => p.id = policyId) with
  | some row => .ok row
  | none => .error policyNotFound

lemma findPolicy_ok {db : PolicyDb} {policyId : Uuid} {row : PolicyRow} :
    findPolicy db policyId = .ok row ↔ db.policies.find? (fun p => p.id = policyId) = some row := by
  rw [findPolicy]
  cases db.policies.find? fun p => p.id = policyId <;> simp

/-- `UPDATE policies … WHERE id = policyId`. -/
def updatePolicyRow (change : PolicyRow → PolicyRow) : PolicyDb :=
  { db with policies := db.policies.map fun p => if p.id = policyId then change p else p }

/-- `replace_policy_rules`. -/
def replacePolicyRules (rules : List PolicyRule) : PolicyDb :=
  { db with policyRules :=
      db.policyRules.filter (fun r => r.policyId ≠ policyId) ++ rules.map (ruleToDbRow policyId) }

/-- The rows of a policy after its rules have been replaced. -/
lemma filter_replacePolicyRules (rules : List PolicyRule) :
    (replacePolicyRules db policyId rules).policyRules.filter (fun r => r.policyId = policyId) =
      rules.map (ruleToDbRow policyId) := by
  have hold : (db.policyRules.filter fun r => r.policyId ≠ policyId).filter
      (fun r => r.policyId = policyId) = [] := by
    simp [filter_filter]
  have hnew : (rules.map (ruleToDbRow policyId)).filter (fun r => r.policyId = policyId) =
      rules.map (ruleToDbRow policyId) := by
    simp [filter_eq_self, ruleToDbRow]
  rw [replacePolicyRules, filter_append, hold, hnew, nil_append]

/-- `insert_policy_version`. -/
def insertPolicyVersion (version status : String)
    (createdBy notes : Option String) (rules : List PolicyRule) (now : Nat) : PolicyDb :=
  { db with policyVersions := db.policyVersions ++
      [{ policyId, version, status, createdBy, notes, rules, createdAt := now }] }

/-- `load_rules_from_latest_version`: no version is no rules. -/
def loadRulesFromLatestVersion : List PolicyRule :=
  (db.loadLatestVersionRules policyId).getD []

/-- What a call takes from the clock and from the user: the time of its transaction, the time as it
is written into version texts, the actor and the texts of fresh ids. -/
structure CallContext where
  now : Nat
  timestamp : String
  actor : String
  freshIds : List String

/-- `PolicyDraftRequest`. -/
structure PolicyDraftRequest where
  name : String
  version : Option String
  createdBy : Option String
  notes : Option String
  rules : List PolicyRulePayload

/-- `PolicyUpdateRequest`. -/
structure PolicyUpdateRequest where
  name : Option String
  version : Option String
  status : Option String
  notes : Option String
  rules : Option (List PolicyRulePayload)

variable (taxonomy : TaxonomyStore) (db : PolicyDb) (ctx : CallContext)

/-- `create_policy`: a draft with its rule rows and its first version. The id is the one drawn for it; the
primary key refuses one that a policy has. -/
def createPolicy (policyId : Uuid) (payload : PolicyDraftRequest) : Except ApiError PolicyDb := do
  let createdBy := payload.createdBy.getD ctx.actor
  let rules ← acceptRules taxonomy ctx.freshIds payload.rules
  let version := payload.version.getD ("draft-" ++ ctx.timestamp)
  if policyId ∈ db.policies.map (·.id) then
    throw (dbError ("error returned from database: " ++
      "duplicate key value violates unique constraint \"policies_pkey\""))
  let db : PolicyDb :=
    { db with policies := db.policies ++
        [{ id := policyId, name := payload.name, version, status := "draft",
           createdBy := some createdBy, createdAt := ctx.now }] }
  return insertPolicyVersion (replacePolicyRules db policyId rules) policyId version "draft"
    (some createdBy) payload.notes rules ctx.now

/-- `publish_policy`: every other active policy is archived, this one becomes active and gets a new
version with the rules of its latest one. -/
def publishPolicy (policyId : Uuid) (version notes : Option String) : Except ApiError PolicyDb := do
  let _ ← findPolicy db policyId
  let archived : PolicyDb :=
    { db with policies := db.policies.map fun p =>
        if p.status = "active" ∧ p.id ≠ policyId then { p with status := "archived" } else p }
  let newVersion := version.getD ("release-" ++ ctx.timestamp)
  let db := updatePolicyRow archived policyId fun p =>
    { p with status := "active", version := newVersion }
  let rules := loadRulesFromLatestVersion db policyId
  return insertPolicyVersion db policyId newVersion "active" (some ctx.actor) notes rules ctx.now

/-- The status `update_policy` writes. -/
def updatedStatus (existing : String) : Option String → Except ApiError String
  | none => .ok existing
  | some value => do
    let status ← normalizePolicyStatus value
    if status = "active" then
      throw (validationError
        "setting status=active via update is not allowed; use publish endpoint")
    ensureCanDisableStatus existing status
    return status

/-- `update_policy`: the status of the active policy may become `draft`, but not `archived`. -/
def updatePolicy (policyId : Uuid) (payload : PolicyUpdateRequest) : Except ApiError PolicyDb := do
  let existing ← findPolicy db policyId
  let name := (payload.name.map trim).getD existing.name
  let version := (payload.version.map trim).getD existing.version
  let status ← updatedStatus existing.status payload.status
  let db := updatePolicyRow db policyId fun p => { p with name, version, status }
  match payload.rules with
  | some payloadRules => do
    let rules ← acceptRules taxonomy ctx.freshIds payloadRules
    return insertPolicyVersion (replacePolicyRules db policyId rules) policyId version status
      (some ctx.actor) payload.notes rules ctx.now
  | none =>
    return insertPolicyVersion db policyId version status (some ctx.actor) payload.notes
      (loadRulesFromLatestVersion db policyId) ctx.now

/-- `delete_policy`: the rule rows and versions of the policy go with it. -/
def deletePolicy (policyId : Uuid) : Except ApiError PolicyDb := do
  let row ← findPolicy db policyId
  ensureCanDeleteStatus row.status
  return { policies := db.policies.filter fun p => p.id ≠ policyId
           policyRules := db.policyRules.filter fun r => r.policyId ≠ policyId
           policyVersions := db.policyVersions.filter fun v => v.policyId ≠ policyId }

/-- The calls that change policies. -/
inductive PolicyChange where
  | publish (policyId : Uuid) (version notes : Option String)
  | update (policyId : Uuid) (payload : PolicyUpdateRequest)
  | delete (policyId : Uuid)

/-- The transaction of a call. -/
def PolicyChange.apply : PolicyChange → Except ApiError PolicyDb
  | .publish policyId version notes => publishPolicy db ctx policyId version notes
  | .update policyId payload => updatePolicy taxonomy db ctx policyId payload
  | .delete policyId => deletePolicy db policyId

/-- The calls that write the policy tables: those that change a policy, and `create_policy`. -/
inductive PolicyCall where
  | create (policyId : Uuid) (payload : PolicyDraftRequest)
  | change (call : PolicyChange)

/-- The transaction of a call. -/
def PolicyCall.apply (taxonomy : TaxonomyStore) (db : PolicyDb) (ctx : CallContext) :
    PolicyCall → Except ApiError PolicyDb
  | .create policyId payload => createPolicy taxonomy db ctx policyId payload
  | .change call => call.apply taxonomy db ctx

end OpenDefender.Admin
