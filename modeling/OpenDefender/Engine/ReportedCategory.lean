import OpenDefender.Engine.FailedQueries
import OpenDefender.Taxonomy.Pairs

/-!
The category that a verdict reports and the one that rules are matched against.

Both come from the hints of the request, those of a persisted classification filled in. A category and a
subcategory are then placed as a pair: the category that a request names gives way to the unknown one if the
subcategory of the classification is not one of its own (`hinted_category_kept_iff`). Without any category
hint rules on the unknown category, which the verdict reports, are not matched
(`reported_category_matched_iff`).
-/

namespace OpenDefender.Engine

open Lib Text List Option

/-! ### What a verdict reports -/

lemma applyActivation_verdict (activation : ActivationProfile) (decision : PolicyDecision) :
    (applyActivation activation decision).verdict = decision.verdict := by
  unfold applyActivation
  split
  · split <;> rfl
  · rfl

/-- The reported category is the canonical one, or the unknown one if there is none. -/
lemma PolicyStore.reported_eq (store : PolicyStore) (request : DecisionRequest) :
    (store.simulate request).decision.verdict.map (·.primaryCategory) =
      some ((store.requestCategory request).getD unknownCategoryId) := by
  rw [simulate]
  cases store.firstMatch request <;> rfl

lemma PolicyEvaluator.reported_eq (evaluator : PolicyEvaluator) (request : DecisionRequest) :
    (evaluator.simulate request).decision.verdict.map (·.primaryCategory) =
      some ((evaluator.store.requestCategory request).getD unknownCategoryId) := by
  rw [← evaluator.store.reported_eq request]
  exact congrArg _ (applyActivation_verdict evaluator.activation _)

/-! ### Hints of a persisted classification -/

variable {request : DecisionRequest}

lemma AppState.hydrated_of_row {state : AppState} (hpool : state.classificationPool = some tables)
    (hsub : request.subcategoryHint = none)
    (hrow : selectedRow tables.classifications request.normalizedKey = some row) :
    state.hydrated request = applyPersistedHints request row := by
  rw [hydrated, hpool]
  simp only [hydrateRequestHints, hsub, hrow, isSome_none, Bool.and_false, Bool.false_and, Bool.false_eq_true,
    if_false]

/-- The category of a request with a category hint and without a subcategory hint, after a row is found. -/
lemma PolicyStore.requestCategory_of_row (store : PolicyStore) (row : ClassificationRow)
    (hhint : request.categoryHint = some hint) (hsub : request.subcategoryHint = none) :
    store.requestCategory (applyPersistedHints request row) =
      some (store.canonicalizeRequestCategory hint (row.subcategory.bind nonEmptyString)) := by
  simp only [requestCategory, applyPersistedHints, hhint, hsub, some_or, none_or, map_some]

/-- Beside a subcategory label the named category stays exactly when it is the unknown one or has such a subcategory. -/
lemma validateLabels_named_iff {store : TaxonomyStore} (hwf : t.WellFormed)
    (hstore : store.Indexed t) (hnamed : (store.validateCategory hint).fallbackReason = none)
    (htrim : trim label = label) (hne : label ≠ "") :
    (store.validateLabels hint (some label)).category.id = (store.validateCategory hint).category.id ↔
      (store.validateCategory hint).category.id = unknownCategoryId ∨
        store.hasSubcategory (store.validateCategory hint).category.id label = true := by
  obtain ⟨i, hresolve, hi⟩ := hstore.exists_placed hnamed
  generalize (store.validateCategory hint).category = named at hi ⊢
  obtain ⟨c, -, hc, -⟩ := hstore.exists_pair hint (some label)
  obtain ⟨unknown, -, hunknown, hunknownId, -⟩ := hstore.unknownPair
  have hunknownIff : named.id = unknownCategoryId ↔ i = store.unknownCategoryIndex := by
    constructor
    · exact fun h => index_unique hwf.ids hi hunknown (h.trans hunknownId.symm)
    · rintro rfl
      rw [Option.some.inj (hi.symm.trans hunknown), hunknownId]
  rw [hunknownIff, ← hstore.labelIndices_fst_eq_iff hresolve hi htrim hne, TaxonomyStore.validateLabels_eq,
    hstore.categoryByIndex_eq hc]
  constructor
  · exact fun h => index_unique hwf.ids hc hi h
  · intro h
    rw [h] at hc
    rw [Option.some.inj (hc.symm.trans hi)]

/-- **A category that the request names** is used and reported after the hints of a classification are filled in
exactly when it is the unknown one, or the classification has no subcategory, or one of the named category. -/
theorem hinted_category_kept_iff {t : CanonicalTaxonomy} {state : AppState} {tables : ClassificationTables}
    {request : DecisionRequest} {row : ClassificationRow} {hint : String} (hvalid : t.validate = .ok ())
    (hnew : TaxonomyStore.new t = some state.evaluator.store.taxonomy)
    (hpool : state.classificationPool = some tables) (hhint : request.categoryHint = some hint)
    (hsub : request.subcategoryHint = none)
    (hnamed : (state.evaluator.store.taxonomy.validateCategory hint).fallbackReason = none)
    (hrow : selectedRow tables.classifications request.normalizedKey = some row) :
    let named := (state.evaluator.store.taxonomy.validateCategory hint).category.id
    (state.evaluator.store.requestCategory (state.hydrated request) = some named ∧
        (state.evaluator.simulate (state.hydrated request)).decision.verdict.map (·.primaryCategory) = some named) ↔
      named = unknownCategoryId ∨ ∀ label, row.subcategory.bind nonEmptyString = some label →
        state.evaluator.store.taxonomy.hasSubcategory named label = true := by
  have hwf := CanonicalTaxonomy.wellFormed_of_validate hvalid
  have hstore := (TaxonomyStore.builtFrom_of_new hnew).indexed hwf
  intro named
  rw [PolicyEvaluator.reported_eq, AppState.hydrated_of_row hpool hsub hrow,
    PolicyStore.requestCategory_of_row _ row hhint hsub, getD_some, and_self, Option.some.injEq]
  cases hlabel : row.subcategory.bind nonEmptyString with
  | none =>
    refine iff_of_true rfl (Or.inr fun label h => ?_)
    cases h
  | some label =>
    obtain ⟨value, -, hvalue⟩ := bind_eq_some_iff.1 hlabel
    obtain ⟨rfl, hne⟩ := nonEmptyString_eq_some hvalue
    have hcategory : state.evaluator.store.canonicalizeRequestCategory hint (some (trim value)) =
        (state.evaluator.store.taxonomy.validateLabels hint (some (trim value))).category.id := rfl
    have hall : (∀ label, some (trim value) = some label →
        state.evaluator.store.taxonomy.hasSubcategory named label = true) ↔
        state.evaluator.store.taxonomy.hasSubcategory named (trim value) = true := by
      constructor
      · exact fun h => h _ rfl
      · intro h label hvalue
        rwa [← Option.some.inj hvalue]
    rw [hcategory, hall]
    exact validateLabels_named_iff hwf hstore hnamed (trim_trim value) hne

/-- A classification of the sample host with this subcategory. -/
def classifiedRow (subcategory : String) : ClassificationRow where
  normalizedKey := exampleRequest.normalizedKey
  primaryCategory := some "category-1"
  subcategory := some subcategory
  riskLevel := none
  recommendedAction := "allow"
  confidence := none
  status := "active"
  updatedAt := 1

/-- An engine that knows this classification. -/
def classifiedState (subcategory : String) : AppState :=
  { permissiveState with
    classificationPool := some { overrides := [], classifications := [classifiedRow subcategory] } }

/-- The sample request with a category hint. -/
def hintedRequest (hint : String) : DecisionRequest :=
  { exampleRequest with categoryHint := some hint }

lemma socialMedia_named :
    (sampleTaxonomyStore.validateCategory "social-media").fallbackReason = none ∧
      (sampleTaxonomyStore.validateCategory "social-media").category.id = "social-media" ∧
      ((classifiedRow " social-networks ").subcategory.bind nonEmptyString).all
        (sampleTaxonomyStore.hasSubcategory "social-media") = true := by
  decide +kernel

/-- The classification has a subcategory of the category that the hint names. -/
theorem hinted_category_kept :
    (classifiedState " social-networks ").evaluator.store.requestCategory
        ((classifiedState " social-networks ").hydrated (hintedRequest "social-media")) = some "social-media" := by
  have hstate : (classifiedState " social-networks ").evaluator.store.taxonomy = sampleTaxonomyStore := rfl
  have hpool : (classifiedState " social-networks ").classificationPool =
      some { overrides := [], classifications := [classifiedRow " social-networks "] } := rfl
  have hhint : (hintedRequest "social-media").categoryHint = some "social-media" := rfl
  have hrow : selectedRow [classifiedRow " social-networks "] (hintedRequest "social-media").normalizedKey =
      some (classifiedRow " social-networks ") := by decide +kernel
  obtain ⟨hnamed, hid, hlabels⟩ := socialMedia_named
  rw [← hstate] at hnamed hid hlabels
  have hkept := hinted_category_kept_iff sampleTaxonomy_validate (hstate ▸ sampleTaxonomy_new) hpool hhint rfl hnamed hrow
  rw [hid] at hkept
  exact (hkept.2 (Or.inr fun label hlabel => (all_eq_true _ _).1 hlabels label hlabel)).1

/-- The request names social media, and the classification has a subcategory of another category. -/
theorem hinted_category_lost :
    (sampleTaxonomyStore.validateCategory "social-media").fallbackReason = none ∧
      (sampleTaxonomyStore.validateCategory "social-media").category.id = "social-media" ∧
      (classifiedState "general").evaluator.store.requestCategory
          ((classifiedState "general").hydrated (hintedRequest "social-media")) =
        some unknownCategoryId ∧
      ((classifiedState "general").evaluator.simulate ((classifiedState "general").hydrated
          (hintedRequest "social-media"))).decision.verdict.map (·.primaryCategory) =
        some unknownCategoryId := by
  decide +kernel

/-! ### Rules on the reported category -/

/-- A rule on one category alone matches a request with this canonical category. -/
lemma ruleMatches_category (store : PolicyStore) (request : DecisionRequest)
    (hrule : rule.conditions = { categories := some [category] }) :
    store.ruleMatches request rule = true ↔ store.requestCategory request = some category := by
  rw [PolicyStore.ruleMatches, hrule]
  cases store.requestCategory request with
  | none => simp [matchesConditions, conditionHolds]
  | some other =>
    simp only [matchesConditions, conditionHolds, any_some, any_cons, any_nil, Bool.or_false,
      Bool.true_and, Bool.and_true, beq_iff_eq, Option.some.injEq]
    exact eq_comm

/-- A rule on one category. -/
def frontRule (category : String) (action : PolicyAction) : PolicyRule where
  id := "front"
  description := none
  priority := 0
  action := action
  conditions := { categories := some [category] }

lemma simulate_cons_of_matches {store : PolicyStore} (h : store.ruleMatches request rule = true) :
    ({ store with rules := rule :: store.rules }.simulate request).decision.action = rule.action := by
  have hfirst : { store with rules := rule :: store.rules }.firstMatch request = some rule :=
    find?_cons_of_pos h
  rw [PolicyStore.simulate, hfirst]

lemma simulate_cons_of_not_matches {store : PolicyStore}
    (h : ¬store.ruleMatches request rule = true) :
    { store with rules := rule :: store.rules }.simulate request = store.simulate request := by
  have hfirst : { store with rules := rule :: store.rules }.firstMatch request = store.firstMatch request :=
    find?_cons_of_neg h
  rw [PolicyStore.simulate, hfirst]
  rfl

/-- **A rule in front on the reported category** decides the request, whatever its action is, exactly when the request
has a category hint. -/
theorem reported_category_matched_iff (store : PolicyStore) (request : DecisionRequest) :
    (∀ rule category, (store.simulate request).decision.verdict.map (·.primaryCategory) = some category →
        rule.conditions = { categories := some [category] } →
        ({ store with rules := rule :: store.rules }.simulate request).decision.action = rule.action) ↔
      request.categoryHint.isSome = true := by
  rw [store.reported_eq request]
  constructor
  · intro h
    by_contra hhint
    have hnone : store.requestCategory request = none := by
      rw [PolicyStore.requestCategory, not_isSome_iff_eq_none.1 hhint, map_none]
    -- a rule that does not match leaves the action to the others
    have hsame : ∀ action, (store.simulate request).decision.action = action := by
      intro action
      have hrule := h (frontRule unknownCategoryId action) unknownCategoryId (by rw [hnone, getD_none]) rfl
      rwa [simulate_cons_of_not_matches] at hrule
      rw [ruleMatches_category store request rfl, hnone]
      exact (some_ne_none _).symm
    exact PolicyAction.noConfusion ((hsame .allow).symm.trans (hsame .block))
  · intro hhint rule category hcategory hrule
    obtain ⟨hint, hhint⟩ := isSome_iff_exists.1 hhint
    refine simulate_cons_of_matches ((ruleMatches_category store request hrule).2 ?_)
    rw [PolicyStore.requestCategory, hhint, map_some] at hcategory ⊢
    exact hcategory

/-- Without a hint the unknown category is reported, and a rule that blocks it is not applied. -/
theorem reported_category_not_matched :
    (permissiveState.evaluator.store.simulate exampleRequest).decision.verdict.map (·.primaryCategory) =
        some unknownCategoryId ∧
      ({ permissiveState.evaluator.store with rules := [frontRule unknownCategoryId .block] }.simulate
        exampleRequest).decision.action = .allow := by
  decide +kernel

end OpenDefender.Engine
