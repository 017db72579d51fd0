import OpenDefender.Admin.Cache
import OpenDefender.Common.Classifications
import OpenDefender.Engine.PolicyStore

/-!
The calls of the admin API that change a classification: `update` and `delete` of
`services/admin-api/src/classifications.rs`, `manual_unblock` and `manual_classify` of
`services/admin-api/src/classification_requests.rs`.

Each call is the table it leaves, or the error it answers with, and the commands it then sends to
Redis. The decision an update asks the engine for and the clock are arguments.
-/

namespace OpenDefender.Admin

open Lib Text Coherence Engine TaxonomyStore
open Adaptor hiding invalidateKey

/-- The parts of `AppState` these calls use. -/
structure ClassificationServices where
  libs : HostLibs
  canonicalizationPolicy : CanonicalizationPolicy
  taxonomyStore : TaxonomyStore
  evaluatePolicyDecision : DecisionRequest → Except String PolicyDecision

variable (table : List ClassificationRow) (services : ClassificationServices)

variable (normalizedKey : String)

/-- `canonicalize_key`, without a tenant. -/
def ClassificationServices.canonicalizeKey : String :=
  (canonicalClassificationKeyWithPolicy services.libs normalizedKey services.canonicalizationPolicy
    none).getD normalizedKey

/-- `UpdateClassificationRequest` and `ManualClassifyRequest`, which have the same fields. -/
structure ClassifyRequest where
  primaryCategory : String
  subcategory : String
  reason : Option String
  deriving DecidableEq, Repr

/-- `ManualUnblockRequest`. -/
structure ManualUnblockRequest where
  action : PolicyAction
  primaryCategory : String
  subcategory : String
  riskLevel : String
  confidence : ℚ
  reason : Option String
  deriving DecidableEq, Repr

/-- `parse_normalized_key`: the level and the host of a key. -/
def parseNormalizedKey : Option (String × String) :=
  match stripPrefix "domain:" normalizedKey with
  | some host => if (trim host).isEmpty then none else some ("domain", trim host)
  | none =>
    match stripPrefix "subdomain:" normalizedKey with
    | some host => if (trim host).isEmpty then none else some ("subdomain", trim host)
    | none => none

/-- The answer for a key that is none of a domain or subdomain. -/
def invalidNormalizedKey : ApiError :=
  { status := 400, errorCode := "INVALID_NORMALIZED_KEY",
    message := "normalized_key must start with domain: or subdomain:" }

/-- The answer when the engine cannot be asked. -/
def policyDecisionFailed (message : String) : ApiError :=
  { status := 502, errorCode := "POLICY_DECISION_FAILED", message }

/-- `db_error` of a confidence the column has no room for. -/
def numericOverflow : ApiError :=
  { status := 500, errorCode := "DB_ERROR", message := "numeric field overflow" }

/-- The labels of a payload, an empty subcategory as none. -/
def ClassificationServices.validateLabels (services : ClassificationServices)
    (primaryCategory subcategory : String) : ValidatedTaxonomyLabels :=
  services.taxonomyStore.validateLabels primaryCategory
    (if (trim subcategory).isEmpty then none else some subcategory)

/-- `PolicyDecisionRequestPayload` for a key with the labels of a payload. -/
def decisionPayload (normalizedKey entityLevel : String) (validated : ValidatedTaxonomyLabels) :
    DecisionRequest :=
  { normalizedKey
    entityLevel
    sourceIp := "127.0.0.1"
    userId := none
    groupIds := none
    categoryHint := some validated.category.id
    subcategoryHint := some validated.subcategory.id
    riskHint := none
    confidenceHint := none }

/-- The risk level of a decision's verdict. -/
def derivedRisk (decision : PolicyDecision) : String :=
  (decision.verdict.map (·.riskLevel)).getD "medium"

/-- The confidence of a decision's verdict. -/
def derivedConfidence (decision : PolicyDecision) : ℚ :=
  (decision.verdict.map (·.confidence)).getD (9 / 10)

/-- The upsert of a call. -/
def writeClassification
    (values : ClassificationValues) (now : Nat) : Except ApiError (List ClassificationRow) :=
  match upsertClassification table normalizedKey values now with
  | some table => .ok table
  | none => .error numericOverflow

/-- `classifications::update`. -/
def updateClassification (now : Nat)
    (table : List ClassificationRow) (normalizedKey : String) (payload : ClassifyRequest) :
    Except ApiError (List ClassificationRow) :=
  let validated := services.validateLabels payload.primaryCategory payload.subcategory
  match parseNormalizedKey normalizedKey with
  | none => .error invalidNormalizedKey
  | some (entityLevel, _) =>
    match services.evaluatePolicyDecision
      (decisionPayload normalizedKey entityLevel validated) with
    | .error _ => .error (policyDecisionFailed
        "failed to compute policy decision for classification update")
    | .ok decision =>
      writeClassification table normalizedKey
        { primaryCategory := validated.category.id
          subcategory := validated.subcategory.id
          riskLevel := derivedRisk decision
          recommendedAction := decision.action
          confidence := derivedConfidence decision } now

/-- `classifications::delete`. -/
def deleteClassification : Except ApiError (List ClassificationRow) :=
  .ok (deleteClassificationRow table normalizedKey)

/-- `persist_manual_classification`. -/
def persistManualClassification
    (payload : ManualUnblockRequest) (validated : ValidatedTaxonomyLabels) (now : Nat) :
    Except ApiError (List ClassificationRow) :=
  writeClassification table normalizedKey
    { primaryCategory := validated.category.id
      subcategory := validated.subcategory.id
      riskLevel := payload.riskLevel
      recommendedAction := payload.action
      confidence := payload.confidence } now

/-- `manual_unblock`. -/
def manualUnblock (now : Nat) (table : List ClassificationRow)
    (normalizedKey : String) (payload : ManualUnblockRequest) :
    Except ApiError (List ClassificationRow) :=
  if payload.action = .contentPending then
    .error { status := 400, errorCode := "INVALID_ACTION",
             message := "ContentPending is not a valid manual action" }
  else
    persistManualClassification table (services.canonicalizeKey normalizedKey) payload
      (services.validateLabels payload.primaryCategory payload.subcategory) now

/-- `manual_classify`. -/
def manualClassify (now : Nat) (table : List ClassificationRow)
    (normalizedKey : String) (payload : ClassifyRequest) :
    Except ApiError (List ClassificationRow) :=
  let validated := services.validateLabels payload.primaryCategory payload.subcategory
  let appliedKey := services.canonicalizeKey normalizedKey
  if (parseNormalizedKey normalizedKey).isNone then .error invalidNormalizedKey
  else
    match parseNormalizedKey appliedKey with
    | none => .error invalidNormalizedKey
    | some (entityLevel, _) =>
      match services.evaluatePolicyDecision (decisionPayload appliedKey entityLevel validated) with
      | .error _ => .error (policyDecisionFailed
          "failed to compute policy decision for manual classification")
      | .ok decision =>
        persistManualClassification table appliedKey
          { action := decision.action
            primaryCategory := validated.category.id
            subcategory := validated.subcategory.id
            riskLevel := derivedRisk decision
            confidence := derivedConfidence decision
            reason := payload.reason } validated now

/-- The cache invalidation of the manual calls: the key that was written and, where it is another,
the key of the request. -/
def invalidateApplied : List RedisCommand :=
  let appliedKey := services.canonicalizeKey normalizedKey
  invalidateKey appliedKey ++ if appliedKey ≠ normalizedKey then invalidateKey normalizedKey else []

/-! ### What the manual calls clear -/

/-- The second deletion of the manual calls is left out where it would repeat the first. -/
lemma targets_invalidateApplied {services : ClassificationServices} {normalizedKey k : String}
    {n : ℕ} {γ : Type} {p : Option (Fin n)} :
    (Job.ofCommands (invalidateApplied services normalizedKey)).Targets (dialect γ) p k ↔
      p = none ∧ k ∈ [services.canonicalizeKey normalizedKey, normalizedKey].filter
        fun k => !(trim k).isEmpty := by
  have hsplit : [services.canonicalizeKey normalizedKey, normalizedKey] =
      [services.canonicalizeKey normalizedKey] ++ [normalizedKey] := rfl
  rw [hsplit, List.filter_append, List.mem_append, and_or_left]
  simp only [invalidateApplied]
  split
  · rw [Job.targets_append, targets_invalidateKey, targets_invalidateKey]
  · rename_i hsame
    rw [List.append_nil, targets_invalidateKey, not_not.1 hsame, or_self]

lemma plain_invalidateApplied : ∀ p owed, .walking p owed ∉ invalidateApplied services normalizedKey := by
  intro p owed
  simp only [invalidateApplied]
  split <;> simp [invalidateKey, plain_deleteKey]

end OpenDefender.Admin
