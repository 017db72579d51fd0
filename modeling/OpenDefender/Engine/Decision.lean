import OpenDefender.Common.Classifications
import OpenDefender.Engine.Evaluator
import OpenDefender.Engine.Overrides
import OpenDefender.Lib.Wildcard

/-!
The decision endpoint of the policy engine (`handle_decision` of
`services/policy-engine/src/main.rs`).

A request is answered by the override that governs its host, if there is one; otherwise it takes the hints of
the persisted classification that `selectedRow` picks (the row of the key itself, then the row of the domain
above it, then the newest row below it) and is evaluated against rules and activation. `handleDecision_ok`
says so for the action.
-/

namespace OpenDefender.Engine

open Lib Text Wildcard

/-- `RelatedClassificationLookup`. -/
structure RelatedClassificationLookup where
  ancestorDomainKey : Option String := none
  descendantLikePattern : Option String := none
  deriving DecidableEq, Repr

variable (table : List ClassificationRow) (normalizedKey : String)

/-- `related_classification_lookup`. -/
def relatedClassificationLookup : RelatedClassificationLookup :=
  match stripPrefix "subdomain:" normalizedKey with
  | some host =>
    match deriveRegisteredDomain host with
    | some registered =>
      let ancestor := "domain:" ++ registered
      if ancestor ≠ normalizedKey then { ancestorDomainKey := some ancestor } else {}
    | none => {}
  | none =>
    match stripPrefix "domain:" normalizedKey with
    | some host =>
      let host := toAsciiLowercase (trimEndMatches '.' (trim host))
      if host.isEmpty then {} else { descendantLikePattern := some ("subdomain:%." ++ host) }
    | none => {}

/-- The `CASE` of the hint query: 0 for the key itself, 1 for the ancestor, 2 for a descendant;
`none` where the `WHERE` clause does not hold. -/
def hintRank (row : ClassificationRow) : Option Nat :=
  let related := relatedClassificationLookup normalizedKey
  if row.status ≠ "active" then none
  else if row.normalizedKey = normalizedKey then some 0
  else if related.ancestorDomainKey = some row.normalizedKey then some 1
  else if related.descendantLikePattern.any (fun pattern => like pattern row.normalizedKey) then
    some 2
  else none

/-- `ORDER BY` rank, then `updated_at DESC`. -/
def hintBefore (a b : Nat × ClassificationRow) : Prop :=
  a.1 < b.1 ∨ (a.1 = b.1 ∧ b.2.updatedAt ≤ a.2.updatedAt)

instance : DecidableRel hintBefore := fun _ _ => inferInstanceAs (Decidable (_ ∨ _))

instance : Std.Total hintBefore :=
  ⟨fun a b => by unfold hintBefore; omega⟩

instance : IsTrans (Nat × ClassificationRow) hintBefore :=
  ⟨fun a b c => by unfold hintBefore; omega⟩

/-- The rows the `WHERE` clause lets through, each with its rank. -/
def rankedRows : List (Nat × ClassificationRow) :=
  table.filterMap fun row => (hintRank normalizedKey row).map fun rank => (rank, row)

/-- The row the hint query returns for a request key. -/
def selectedRow : Option ClassificationRow :=
  (((rankedRows table normalizedKey).insertionSort hintBefore).head?).map Prod.snd

/-- `apply_persisted_hints` with the hints of a row: hints of the request are kept. -/
def applyPersistedHints (request : DecisionRequest) (row : ClassificationRow) : DecisionRequest :=
  { request with
    categoryHint := request.categoryHint.or (row.primaryCategory.bind nonEmptyString)
    subcategoryHint := request.subcategoryHint.or (row.subcategory.bind nonEmptyString)
    riskHint := request.riskHint.or (row.riskLevel.bind nonEmptyString)
    confidenceHint := request.confidenceHint.or row.confidence }

/-- `hydrate_request_hints` on a reachable database. -/
def hydrateRequestHints (request : DecisionRequest) : DecisionRequest :=
  if request.categoryHint.isSome && request.subcategoryHint.isSome && request.riskHint.isSome &&
      request.confidenceHint.isSome then request
  else
    match selectedRow table request.normalizedKey with
    | some row => applyPersistedHints request row
    | none => request

/-- The tables the engine reads for each request. -/
structure ClassificationTables where
  overrides : List OverrideRow
  classifications : List ClassificationRow

/-- `AppState` of the engine; `classificationPool` is absent in file mode. -/
structure AppState where
  evaluator : PolicyEvaluator
  classificationPool : Option ClassificationTables

/-- `ErrorResponse` with its HTTP status. -/
structure ErrorResponse where
  status : Nat
  errorCode : String
  message : String
  deriving DecidableEq, Repr

variable (state : AppState) (now : Nat)

/-- `decision_source_for_simulation`. -/
def decisionSourceForSimulation (simulation : SimulationResult) : String :=
  let taxonomyDisabled := simulation.decision.verdict.any fun verdict =>
    !state.evaluator.isVerdictEnabled verdict.primaryCategory verdict.subcategory
  if taxonomyDisabled then "taxonomy_disabled"
  else if simulation.matchedRuleId.isSome then "policy_rule"
  else "default"

variable (key : String) (table : List ClassificationRow) (normalizedKey : String) (payload : DecisionRequest)

/-- The request with the hints of the persisted classification. -/
def AppState.hydrated : DecisionRequest :=
  match state.classificationPool with
  | some tables => hydrateRequestHints tables.classifications payload
  | none => payload

/-- The override decision of a request, from the tables in force. -/
def AppState.overrideFor : Option PolicyDecision :=
  state.classificationPool.bind fun tables =>
    resolveOverrideDecision tables.overrides now normalizedKey

/-- `handle_decision`. -/
def handleDecision : Except ErrorResponse PolicyDecision :=
  if payload.normalizedKey.isEmpty then
    .error { status := 400, errorCode := "VALIDATION_ERROR", message := "normalized_key required" }
  else
    match state.overrideFor now payload.normalizedKey with
    | some decision => .ok decision
    | none =>
      let simulation := state.evaluator.simulate (state.hydrated payload)
      .ok { simulation.decision with
            decisionSource := some (decisionSourceForSimulation state simulation) }

/-! ### Requests that notice a change of a row -/

/-- The hint lookup of a request key selects the row of `key`. -/
def SelectsRowOf : Prop :=
  (selectedRow table normalizedKey).map (·.normalizedKey) = some key

instance : Decidable (SelectsRowOf key table normalizedKey) :=
  inferInstanceAs (Decidable (_ = _))

/-! ### The action of a decision -/

/-- The action of rules and activation, when no override decides. -/
def AppState.policyAction : PolicyAction :=
  (state.evaluator.evaluate (state.hydrated payload)).action

/-- The action of the override that decides a key, if one does. -/
def AppState.overrideAction : Option PolicyAction :=
  (state.overrideFor now normalizedKey).map (·.action)

/-- The action of a decision: the override's if one governs the host, else that of the policy. -/
def AppState.engineAction : PolicyAction :=
  (state.overrideAction now payload.normalizedKey).getD (state.policyAction payload)

/-- Every request with a key is answered, with the action of `engineAction`. -/
lemma handleDecision_ok (hkey : payload.normalizedKey.isEmpty = false) :
    ∃ decision, handleDecision state now payload = .ok decision ∧
      decision.action = state.engineAction now payload := by
  unfold handleDecision AppState.engineAction AppState.overrideAction
  rw [hkey]
  cases state.overrideFor now payload.normalizedKey with
  | some decision => exact ⟨decision, rfl, rfl⟩
  | none => exact ⟨_, rfl, rfl⟩

end OpenDefender.Engine
