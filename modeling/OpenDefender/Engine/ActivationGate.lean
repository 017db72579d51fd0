import OpenDefender.Engine.RuleOrder

/-!
Which state of the activation profile decides over a request with a category and a subcategory hint.

The hints name a pair of the taxonomy. The verdict that reaches the gate has the category of that pair,
but for a subcategory it has the description of the rule that matched, or a fixed word
(`verdictLabel`). `activation_decides_iff` says when the gate decides as the profile has it for the pair
all the same.
-/

namespace OpenDefender.Engine

open Lib Text

/-- What `evaluate` does under the states the profile records for a pair: it blocks if the subcategory
is switched off, or has no state and its category is; it leaves the action of the rules alone if the
subcategory is switched on. -/
structure ActivationDecides (ev : PolicyEvaluator) (request : DecisionRequest)
    (categoryId subcategoryId : String) : Prop where
  disabled : ev.activation.subcategoryState categoryId subcategoryId = some false ∨
      (ev.activation.subcategoryState categoryId subcategoryId = none ∧
        ev.activation.categoryState categoryId = some false) →
    (ev.evaluate request).action = .block
  enabled : ev.activation.subcategoryState categoryId subcategoryId = some true →
    (ev.evaluate request).action = (ev.store.simulate request).decision.action

/-- The subcategory of the verdict that `simulate` builds. -/
def PolicyStore.verdictLabel (store : PolicyStore) (request : DecisionRequest) : String :=
  match store.firstMatch request with
  | some rule => rule.description.getD "Rule"
  | none => "Default"

variable (store : PolicyStore) (ev : PolicyEvaluator) (request : DecisionRequest)

/-- The rule that matches blocks by itself, or the gate is for the label of the verdict what the profile
has for the pair. -/
def LabelStandsIn (categoryId subcategoryId : String) : Prop :=
  (ev.store.firstMatch request).map (·.action) = some .block ∨
    ((ev.activation.subcategoryState categoryId subcategoryId = some false ∨
        (ev.activation.subcategoryState categoryId subcategoryId = none ∧
          ev.activation.categoryState categoryId = some false) →
      ev.activation.isEnabled categoryId (some (ev.store.verdictLabel request)) = false) ∧
    (ev.activation.subcategoryState categoryId subcategoryId = some true →
      ev.activation.isEnabled categoryId (some (ev.store.verdictLabel request)) = true))

/-- The verdict of `simulate` is about the category of the request and the label. -/
lemma simulate_verdict : ∃ verdict, (store.simulate request).decision.verdict = some verdict ∧
      verdict.primaryCategory = (store.requestCategory request).getD unknownCategoryId ∧
      verdict.subcategory = store.verdictLabel request := by
  unfold PolicyStore.simulate PolicyStore.verdictLabel
  cases store.firstMatch request with
  | none => exact ⟨_, rfl, rfl, rfl⟩
  | some rule => exact ⟨_, rfl, rfl, rfl⟩

/-- **The gate**: the action of the rules, or block. -/
lemma evaluate_action : (ev.evaluate request).action =
      if ev.activation.isEnabled ((ev.store.requestCategory request).getD unknownCategoryId)
          (some (ev.store.verdictLabel request)) then
        (ev.store.simulate request).decision.action
      else .block := by
  obtain ⟨verdict, hverdict, hcategory, hlabel⟩ := simulate_verdict ev.store request
  rw [PolicyEvaluator.evaluate, applyActivation, hverdict, ← hcategory, ← hlabel]
  simp only
  split <;> rfl

/-- With both hints the category of the request is that of the pair they resolve to. -/
lemma requestCategory_of_hints {store : PolicyStore} {request : DecisionRequest}
    (hcategory : request.categoryHint = some category)
    (hsubcategory : request.subcategoryHint = some subcategory) :
    store.requestCategory request =
      some (store.taxonomy.validateLabels category (some subcategory)).category.id := by
  simp [PolicyStore.requestCategory, PolicyStore.canonicalizeRequestCategory, hcategory,
    hsubcategory]

/-- The rules block exactly when a rule matches that does. -/
lemma simulate_action_block : (store.simulate request).decision.action = .block ↔
      (store.firstMatch request).map (·.action) = some .block := by
  rw [simulate_action]
  cases store.firstMatch request <;> simp

/-- **When the profile decides.** For a request whose hints resolve to a pair, `evaluate` does what the
profile has for the pair exactly when the label of the verdict stands in for its subcategory. -/
theorem activation_decides_iff (ev : PolicyEvaluator) (request : DecisionRequest)
    (category subcategory : String) (hcategory : request.categoryHint = some category)
    (hsubcategory : request.subcategoryHint = some subcategory) :
    ActivationDecides ev request
        (ev.store.taxonomy.validateLabels category (some subcategory)).category.id
        (ev.store.taxonomy.validateLabels category (some subcategory)).subcategory.id ↔
      LabelStandsIn ev request
        (ev.store.taxonomy.validateLabels category (some subcategory)).category.id
        (ev.store.taxonomy.validateLabels category (some subcategory)).subcategory.id := by
  have haction := evaluate_action ev request
  rw [requestCategory_of_hints hcategory hsubcategory, Option.getD_some] at haction
  have hblock := simulate_action_block ev.store request
  set labels := ev.store.taxonomy.validateLabels category (some subcategory)
  unfold LabelStandsIn
  rw [← hblock]
  constructor
  · intro hdecides
    by_cases hrules : (ev.store.simulate request).decision.action = .block
    · exact Or.inl hrules
    refine Or.inr ⟨fun hdisabled => ?_, fun henabled => ?_⟩
    · by_contra hgate
      rw [Bool.not_eq_false] at hgate
      rw [hdecides.disabled hdisabled, if_pos hgate] at haction
      exact hrules haction.symm
    · by_contra hgate
      rw [hdecides.enabled henabled, if_neg hgate] at haction
      exact hrules haction
  · rintro (hrules | ⟨hdisabled, henabled⟩)
    · have hall : (ev.evaluate request).action = .block := by
        rw [haction, hrules, ite_self]
      exact ⟨fun _ => hall, fun _ => hall.trans hrules.symm⟩
    · refine ⟨fun h => ?_, fun h => ?_⟩
      · rw [haction, if_neg (by simp [hdisabled h])]
      · rw [haction, if_pos (henabled h)]

/-! ### Social networks switched off within social media, and the other way round -/

/-- A profile with a state for social media and one for social networks. -/
def socialProfile (category subcategory : Bool) : ActivationProfile :=
  .ofRows { id := 1, version := "v1", updatedAt := 1 }
    [{ profileId := 1, categoryId := "social-media", subcategoryId := categorySentinelId,
       enabled := category },
     { profileId := 1, categoryId := "social-media", subcategoryId := "social-networks",
       enabled := subcategory }]

/-- An evaluator with this profile and no rules. -/
def socialEvaluator (category subcategory : Bool) : PolicyEvaluator :=
  { store := { rules := [], version := "v1", policyId := some 1, taxonomy := sampleTaxonomyStore }
    activation := socialProfile category subcategory }

/-- A request with both hints. -/
def socialRequest : DecisionRequest :=
  { normalizedKey := "domain:example.com", entityLevel := "domain", sourceIp := "10.0.0.1",
    userId := none, groupIds := none, categoryHint := some "social-media",
    subcategoryHint := some "social-networks" }

/-- The ids of the pair the hints resolve to, and the reason for a fallback. -/
def socialPair : String × String × Option FallbackReason :=
  let labels := sampleTaxonomyStore.validateLabels "social-media" (some "social-networks")
  (labels.category.id, labels.subcategory.id, labels.fallbackReason)

/-- The hints resolve to social networks. With only the subcategory switched off the request is allowed;
with only the subcategory switched on it is blocked. -/
theorem subcategory_state_ignored :
    socialPair = ("social-media", "social-networks", none) ∧
    ((socialProfile true false).subcategoryState "social-media" "social-networks",
      ((socialEvaluator true false).evaluate socialRequest).action) =
        (some false, PolicyAction.allow) ∧
    ((socialProfile false true).subcategoryState "social-media" "social-networks",
      ((socialEvaluator false true).store.simulate socialRequest).decision.action,
      ((socialEvaluator false true).evaluate socialRequest).action) =
        (some true, PolicyAction.allow, PolicyAction.block) := by
  refine ⟨?_, ?_, ?_⟩ <;> decide +kernel

/-- With the category and the subcategory switched off the request is blocked. -/
theorem category_state_blocks :
    ActivationDecides (socialEvaluator false false) socialRequest
      ((socialEvaluator false false).store.taxonomy.validateLabels "social-media"
        (some "social-networks")).category.id
      ((socialEvaluator false false).store.taxonomy.validateLabels "social-media"
        (some "social-networks")).subcategory.id := by
  refine (activation_decides_iff (socialEvaluator false false) socialRequest "social-media"
    "social-networks" rfl rfl).2 (Or.inr ⟨fun _ => ?_, fun henabled => ?_⟩)
  · decide +kernel
  · revert henabled
    decide +kernel

end OpenDefender.Engine
