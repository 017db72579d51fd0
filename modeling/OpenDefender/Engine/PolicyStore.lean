import OpenDefender.Engine.Hosts
import OpenDefender.Taxonomy.Activation
import OpenDefender.Taxonomy.Store

/-!
The policy store of the engine (`services/policy-engine/src/store.rs`): the rules in memory, the
matcher, first-match evaluation, and the loaders.

* `simulate` takes the first rule, in list order, whose conditions match.
* `fromDocument` and `update` sort the rules by priority; `loadFromDb` and `updateFromRules` keep
  the order they are given.
* The database holds a policy's rules twice: as the JSON snapshot of its newest version and as
  rows of `policy_rules`, where a priority is a signed 32-bit integer.
-/

namespace OpenDefender.Engine

open Lib Text FirstMatch Lib.Outcome

/-- `DecisionRequest` of the engine's API. -/
structure DecisionRequest where
  normalizedKey : String
  entityLevel : String
  sourceIp : String
  userId : Option String
  groupIds : Option (List String)
  categoryHint : Option String := none
  subcategoryHint : Option String := none
  riskHint : Option String := none
  confidenceHint : Option ℚ := none
  deriving DecidableEq, Repr

/-- `PolicyStore`. -/
structure PolicyStore where
  rules : List PolicyRule
  version : String
  policyId : Option Uuid
  taxonomy : TaxonomyStore

/-- `SimulationResult`. -/
structure SimulationResult where
  decision : PolicyDecision
  matchedRuleId : Option String
  deriving DecidableEq, Repr

/-! ### Canonical categories -/

/-- A category of a rule, replaced by its canonical id; the error is the one `canonicalize_rules`
raises for a category the taxonomy cannot place. -/
def canonicalizeCategory (taxonomy : TaxonomyStore) (ruleId category : String) :
    Except String String :=
  let validated := taxonomy.validateCategory category
  match validated.fallbackReason with
  | some .missingCategory =>
    .error ("policy rule '" ++ ruleId ++ "' references invalid category '" ++ category ++ "': "
      ++ FallbackReason.missingCategory.asStr)
  | some .unknownCategory =>
    .error ("policy rule '" ++ ruleId ++ "' references invalid category '" ++ category ++ "': "
      ++ FallbackReason.unknownCategory.asStr)
  | _ => .ok validated.category.id

/-- One rule of `canonicalize_rules`. -/
def canonicalizeRule (taxonomy : TaxonomyStore) (rule : PolicyRule) : Except String PolicyRule :=
  match rule.conditions.categories with
  | none => .ok rule
  | some categories => do
    let canonical ← categories.mapM (canonicalizeCategory taxonomy rule.id)
    return { rule with conditions := { rule.conditions with categories := some canonical } }

/-- `canonicalize_rules`. -/
def canonicalizeRules (taxonomy : TaxonomyStore) (rules : List PolicyRule) :
    Except String (List PolicyRule) :=
  rules.mapM (canonicalizeRule taxonomy)

/-! ### Matching and evaluation -/

/-- An optional condition list: an absent list accepts. -/
def conditionHolds (condition : Option (List String)) (test : List String → Bool) : Bool :=
  match condition with
  | none => true
  | some values => test values

/-- `matches_conditions`. -/
def matchesConditions (cond : Conditions) (canonicalCategory : Option String)
    (request : DecisionRequest) : Bool :=
  conditionHolds cond.domains (fun domains =>
      match storeHostFromNormalizedKey request.normalizedKey with
      | none => false
      | some host => domains.any fun pattern => domainPatternMatchesHost pattern host) &&
    conditionHolds cond.categories (fun categories =>
      canonicalCategory.any fun category => categories.any (· == category)) &&
    conditionHolds cond.users (fun users =>
      request.userId.any fun user => users.any fun u => eqIgnoreAsciiCase u user) &&
    conditionHolds cond.groups (fun groups =>
      request.groupIds.any fun reqGroups => reqGroups.any fun g => groups.contains g) &&
    conditionHolds cond.sourceIps (fun ips => ips.any (· == request.sourceIp)) &&
    conditionHolds cond.riskLevels (fun riskLevels =>
      request.riskHint.any fun risk => riskLevels.any fun rl => eqIgnoreAsciiCase rl risk)

variable (store : PolicyStore) (request : DecisionRequest)

/-- `canonicalize_request_category`. -/
def PolicyStore.canonicalizeRequestCategory (hint : String) (subcategoryHint : Option String) : String :=
  if subcategoryHint.isSome then (store.taxonomy.validateLabels hint subcategoryHint).category.id
  else (store.taxonomy.validateCategory hint).category.id

/-- The canonical category of a request, from its hints. -/
def PolicyStore.requestCategory : Option String :=
  request.categoryHint.map fun hint =>
    store.canonicalizeRequestCategory hint request.subcategoryHint

/-- `to_verdict`. -/
def toVerdict (rule : PolicyRule) (canonicalCategory : Option String) : ClassificationVerdict :=
  { primaryCategory := canonicalCategory.getD unknownCategoryId
    subcategory := rule.description.getD "Rule"
    riskLevel := request.riskHint.getD "medium"
    confidence := request.confidenceHint.getD (1 / 2)
    recommendedAction := rule.action }

/-- `to_verdict_default`. -/
def toVerdictDefault (canonicalCategory : Option String) : ClassificationVerdict :=
  { primaryCategory := canonicalCategory.getD unknownCategoryId
    subcategory := "Default"
    riskLevel := request.riskHint.getD "low"
    confidence := request.confidenceHint.getD (1 / 2)
    recommendedAction := .allow }

/-- A rule of the store matches the request. -/
def PolicyStore.ruleMatches (rule : PolicyRule) : Bool :=
  matchesConditions rule.conditions (store.requestCategory request) request

/-- The rule the loop of `simulate` stops at. -/
def PolicyStore.firstMatch : Option PolicyRule :=
  store.rules.find? (store.ruleMatches request)

/-- `PolicyStore::simulate`. -/
def PolicyStore.simulate : SimulationResult :=
  let canonicalCategory := store.requestCategory request
  match store.firstMatch request with
  | some rule =>
    { decision :=
        { action := rule.action
          cacheHit := false
          verdict := some (toVerdict request rule canonicalCategory)
          decisionSource := none }
      matchedRuleId := some rule.id }
  | none =>
    { decision :=
        { action := .allow
          cacheHit := false
          verdict := some (toVerdictDefault request canonicalCategory)
          decisionSource := none }
      matchedRuleId := none }

/-! ### The policy tables -/

/-- A row of `policies`. -/
structure PolicyRow where
  id : Uuid
  name : String
  version : String
  status : String
  createdBy : Option String
  createdAt : Nat
  deriving DecidableEq, Repr

/-- A row of `policy_rules`; the column `priority` is `INTEGER`. -/
structure PolicyRuleRow where
  policyId : Uuid
  priority : Int32
  action : String
  description : Option String
  conditions : Conditions
  deriving DecidableEq, Repr

/-- A row of `policy_versions`. -/
structure PolicyVersionRow where
  policyId : Uuid
  version : String
  status : String
  createdBy : Option String
  notes : Option String
  rules : List PolicyRule
  createdAt : Nat
  deriving DecidableEq, Repr

/-- The three policy tables. -/
structure PolicyDb where
  policies : List PolicyRow
  policyRules : List PolicyRuleRow
  policyVersions : List PolicyVersionRow
  deriving DecidableEq, Repr

variable (store : PolicyStore) (db : PolicyDb)

/-- The row `load_from_db` starts from. -/
def PolicyDb.activePolicy : Option PolicyRow :=
  newest (·.createdAt) (db.policies.filter fun p => p.status = "active")

variable (policyId : Uuid)

/-- `load_latest_version_rules`. -/
def PolicyDb.loadLatestVersionRules : Option (List PolicyRule) :=
  (newest (·.createdAt) (db.policyVersions.filter fun v => v.policyId = policyId)).map (·.rules)

/-- `db_row_to_rule`. -/
def dbRowToRule (row : PolicyRuleRow) : Except String PolicyRule :=
  match PolicyAction.ofDisplay row.action with
  | none => .error ("unknown action " ++ row.action)
  | some action =>
    .ok
      { id := "db-rule-" ++ toString row.priority ++ "-" ++ toAsciiLowercase row.action
        description := row.description
        priority := row.priority.toUInt32
        action := action
        conditions := row.conditions }

/-- The row `insert_policy_document` and `replace_policy_rules` write for a rule. -/
def ruleToDbRow (rule : PolicyRule) : PolicyRuleRow :=
  { policyId := policyId
    priority := rule.priority.toInt32
    action := rule.action.display
    description := rule.description
    conditions := rule.conditions }

/-- The rows of a policy in the order of the query, `ORDER BY priority ASC` on signed integers. -/
def PolicyDb.orderedRuleRows : List PolicyRuleRow :=
  sortBy (fun row => row.priority.toInt) (db.policyRules.filter fun r => r.policyId = policyId)

/-- `load_policy_rules_table`. -/
def PolicyDb.loadPolicyRulesTable : Except String (List PolicyRule) :=
  (db.orderedRuleRows policyId).mapM dbRowToRule

/-! ### Building and replacing a store -/

/-- The sort of `from_document` and `update`. -/
def sortByPriority (rules : List PolicyRule) : List PolicyRule :=
  sortBy (fun rule => rule.priority.toNat) rules

/-- `PolicyStore::from_document`. -/
def PolicyStore.fromDocument (doc : PolicyDocument) (taxonomy : TaxonomyStore) :
    Except String PolicyStore := do
  let rules ← canonicalizeRules taxonomy doc.rules
  return { rules := sortByPriority rules, version := doc.version, policyId := none, taxonomy }

/-- The rules `load_from_db` puts in the store before canonicalising them: the newest snapshot, or
the rows of `policy_rules` when that is empty or missing. -/
def PolicyDb.storedRules : Except String (List PolicyRule) :=
  let snapshot := (db.loadLatestVersionRules policyId).getD []
  if snapshot.isEmpty then db.loadPolicyRulesTable policyId else .ok snapshot

/-- `PolicyStore::load_from_db`. -/
def PolicyStore.loadFromDb (taxonomy : TaxonomyStore) : Except String (Option PolicyStore) :=
  match db.activePolicy with
  | none => .ok none
  | some policy => do
    let parsed ← db.storedRules policy.id
    let rules ← canonicalizeRules taxonomy parsed
    return some { rules, version := policy.version, policyId := some policy.id, taxonomy }

/-- A load that succeeds finds a store exactly when a policy is active. -/
lemma isSome_of_loadFromDb {db : PolicyDb} {taxonomy : TaxonomyStore} {found : Option PolicyStore}
    (h : PolicyStore.loadFromDb db taxonomy = .ok found) :
    found.isSome = db.activePolicy.isSome := by
  unfold PolicyStore.loadFromDb at h
  cases hactive : db.activePolicy with
  | none =>
    rw [hactive] at h
    cases h
    rfl
  | some policy =>
    rw [hactive] at h
    obtain ⟨parsed, _, h⟩ := bind_ok.1 h
    obtain ⟨rules, _, h⟩ := bind_ok.1 h
    cases h
    rfl

/-- `PolicyStore::update`. -/
def PolicyStore.update (doc : PolicyDocument) : Except String PolicyStore := do
  let rules ← canonicalizeRules store.taxonomy doc.rules
  return { store with rules := sortByPriority rules, version := doc.version, policyId := none }

/-- `PolicyStore::update_from_rules`. -/
def PolicyStore.updateFromRules (rules : List PolicyRule) (version : String)
    (policyId : Option Uuid) : Except String PolicyStore := do
  let rules ← canonicalizeRules store.taxonomy rules
  return { store with rules, version, policyId }

/-- `insert_policy_document` (and `seed_db_from_document`): the policy, its rule rows and its first
version, with the id and the time the database gives them. -/
def PolicyDb.insertPolicyDocument (doc : PolicyDocument) (name : String)
    (createdBy : Option String) (policyId : Uuid) (now : Nat) : PolicyDb :=
  { policies := db.policies ++
      [{ id := policyId, name, version := doc.version, status := "active", createdBy,
         createdAt := now }]
    policyRules := db.policyRules ++ doc.rules.map (ruleToDbRow policyId)
    policyVersions := db.policyVersions ++
      [{ policyId, version := doc.version, status := "active", createdBy, notes := none,
         rules := doc.rules, createdAt := now }] }

end OpenDefender.Engine
