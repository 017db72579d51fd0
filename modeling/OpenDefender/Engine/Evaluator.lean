import OpenDefender.Engine.PolicyStore

/-!
The evaluator (`services/policy-engine/src/evaluator.rs`): first-match evaluation followed by the
activation gate, and `reload`, which replaces the rules and refreshes the activation profile.

What a reload reads from outside is its argument: the policy file, or the policy tables, the
activation profile it loads and the seed file it falls back to.
-/

namespace OpenDefender.Engine

/-- `PolicyEvaluator`: the store and the activation profile in memory. -/
structure PolicyEvaluator where
  store : PolicyStore
  activation : ActivationProfile

/-- `apply_activation`: a verdict whose label is switched off is blocked. -/
def applyActivation (activation : ActivationProfile) (decision : PolicyDecision) : PolicyDecision :=
  match decision.verdict with
  | some verdict =>
    if activation.isEnabled verdict.primaryCategory (some verdict.subcategory) then decision
    else { decision with action := .block }
  | none => decision

/-- `PolicyEvaluator::simulate`. -/
def PolicyEvaluator.simulate (ev : PolicyEvaluator) (request : DecisionRequest) :
    SimulationResult :=
  let result := ev.store.simulate request
  { result with decision := applyActivation ev.activation result.decision }

/-- `PolicyEvaluator::evaluate`. -/
def PolicyEvaluator.evaluate (ev : PolicyEvaluator) (request : DecisionRequest) : PolicyDecision :=
  applyActivation ev.activation (ev.store.simulate request).decision

/-- `is_verdict_enabled`. -/
def PolicyEvaluator.isVerdictEnabled (ev : PolicyEvaluator) (categoryId subcategoryId : String) :
    Bool :=
  ev.activation.isEnabled categoryId (some subcategoryId)

/-! ### Reload -/

/-- What a reload reads in database mode: the policy tables, the result of loading the activation
profile, and the seed file with the id and time a seeded policy gets. -/
structure DatabaseSource where
  db : PolicyDb
  activation : Except String ActivationProfile
  seed : Option (Except String PolicyDocument)
  seedId : Uuid
  now : Nat

/-- `PolicySource`. -/
inductive PolicySource where
  | file (document : Except String PolicyDocument)
  | database (source : DatabaseSource)

/-- The tables the last `load_from_db` of a reload reads: those found, or those found with the seed
document inserted when no policy is active. -/
def DatabaseSource.tables (source : DatabaseSource) : PolicyDb :=
  match source.db.activePolicy, source.seed with
  | none, some (.ok doc) =>
    source.db.insertPolicyDocument doc "default" (some "system") source.seedId source.now
  | _, _ => source.db

/-- Replaces the rules of a store by those of a loaded one. -/
def PolicyStore.replaceRules (store : PolicyStore) (loaded : Option PolicyStore) :
    Except String PolicyStore :=
  match loaded with
  | some new => store.updateFromRules new.rules new.version new.policyId
  | none => .ok store

/-- The policy part of `reload` in database mode. -/
def PolicyStore.reloadFromDb (store : PolicyStore) (source : DatabaseSource) :
    Except String PolicyStore := do
  match ← PolicyStore.loadFromDb source.db store.taxonomy with
  | some new => store.replaceRules (some new)
  | none =>
    match source.seed with
    | none => return store
    | some document => do
      let doc ← document
      let seeded := source.db.insertPolicyDocument doc "default" (some "system") source.seedId
        source.now
      store.replaceRules (← PolicyStore.loadFromDb seeded store.taxonomy)

/-- `PolicyEvaluator::reload`: the evaluator afterwards and the result. The rules are replaced
before the activation profile is loaded, so an error of the second load leaves the new rules in
force. -/
def PolicyEvaluator.reload (ev : PolicyEvaluator) :
    PolicySource → PolicyEvaluator × Except String Unit
  | .file document =>
    match document >>= ev.store.update with
    | .error err => (ev, .error err)
    | .ok store => ({ ev with store }, .ok ())
  | .database source =>
    match ev.store.reloadFromDb source with
    | .error err => (ev, .error err)
    | .ok store =>
      match source.activation with
      | .error err => ({ ev with store }, .error err)
      | .ok loaded => ({ store, activation := ev.activation.replaceIfNew loaded }, .ok ())

end OpenDefender.Engine
