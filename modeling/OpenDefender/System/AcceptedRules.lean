import OpenDefender.Admin.PolicyRules
import OpenDefender.Engine.PolicyStore
import OpenDefender.Taxonomy.Resolution

/-!
Rules on their way from the admin API to the engine: what the one accepts, the other loads.

Both ask the same resolver about every category. The admin API stores a category as it was sent; the
engine puts the id it resolves to in its place when it loads the rules.

`accepted_rules_load`: rules that are accepted load, and the ids are final.
-/

namespace OpenDefender.System.AcceptedRules

open Lib Text Engine Admin Lib.Outcome List

variable {t : CanonicalTaxonomy} {store : TaxonomyStore}

/-! ### What is accepted -/

variable {freshIds : List String} {rules : List PolicyRule}

/-- The loop of `normalize_rules` makes a rule of the first payload. -/
lemma normalizeRulesLoop_ne_nil
    (h : normalizeRulesLoop seenPriorities seenIds freshIds (payload :: rest) = .ok rules) :
    rules ≠ [] := by
  rw [normalizeRulesLoop] at h
  obtain ⟨-, h⟩ := throw_if_ok.1 h
  obtain ⟨action, -, h⟩ := bind_ok.1 h
  obtain ⟨-, -, h⟩ := bind_ok.1 h
  obtain ⟨-, h⟩ := throw_if_ok.1 h
  obtain ⟨-, h⟩ := throw_if_ok.1 h
  obtain ⟨normalized, -, h⟩ := bind_ok.1 h
  exact Except.ok.inj h ▸ cons_ne_nil _ _

lemma acceptRules_ne_nil (h : acceptRules store freshIds payload = .ok rules) : rules ≠ [] := by
  obtain ⟨normalized, hnormalized, h⟩ := bind_ok.1 h
  obtain ⟨-, -, h⟩ := bind_ok.1 h
  cases h
  cases payload with
  | nil => cases hnormalized
  | cons first rest =>
    rw [normalizeRules, if_neg (by simp)] at hnormalized
    exact normalizeRulesLoop_ne_nil hnormalized

variable {rule : PolicyRule}

/-- Every category of an accepted rule can be placed. -/
lemma placed_of_acceptRules (h : acceptRules store freshIds payload = .ok rules)
    (hrule : rule ∈ rules) (hcategories : rule.conditions.categories = some categories)
    (hcategory : category ∈ categories) :
    (store.validateCategory category).fallbackReason = none := by
  obtain ⟨normalized, -, h⟩ := bind_ok.1 h
  obtain ⟨_, hvalid, h⟩ := bind_ok.1 h
  cases h
  have hrules := forM_ok.1 hvalid rule hrule
  rw [hcategories] at hrules
  have hplaced := forM_ok.1 hrules category hcategory
  rw [validateRuleCategory] at hplaced
  obtain hnone | hmissing | hunknown := store.fallbackReason_validateCategory category
  · exact hnone
  · rw [hmissing] at hplaced
    cases hplaced
  · rw [hunknown] at hplaced
    cases hplaced

/-! ### What is loaded -/

lemma canonicalizeCategory_ok :
    canonicalizeCategory store ruleId category = .ok canonical ↔
      (store.validateCategory category).fallbackReason = none ∧
        (store.validateCategory category).category.id = canonical := by
  simp only [canonicalizeCategory]
  obtain hreason | hreason | hreason := store.fallbackReason_validateCategory category <;>
    simp [hreason]

lemma canonicalizeRule_ok (hcategories : rule.conditions.categories = some categories) :
    canonicalizeRule store rule = .ok loaded ↔
      ∃ canonical, categories.mapM (canonicalizeCategory store rule.id) = .ok canonical ∧
        { rule with conditions := { rule.conditions with categories := some canonical } } = loaded := by
  simp only [canonicalizeRule, hcategories, bind_ok]
  exact exists_congr fun canonical => and_congr_right fun _ => ⟨Except.ok.inj, congrArg _⟩

/-- The rule as the engine has it: another list of categories, which are ids of the taxonomy. -/
structure Loaded (t : CanonicalTaxonomy) (rule loaded : PolicyRule) : Prop where
  same : { loaded with conditions :=
    { loaded.conditions with categories := rule.conditions.categories } } = rule
  categories : loaded.conditions.categories.map List.length =
    rule.conditions.categories.map List.length
  ids : ∀ categories ∈ loaded.conditions.categories, ∀ id ∈ categories,
    id ∈ t.categories.map (·.id)

lemma loaded_of_canonicalizeRule (hstore : TaxonomyStore.new t = some store)
    (h : canonicalizeRule store rule = .ok loaded) : Loaded t rule loaded := by
  cases hcategories : rule.conditions.categories with
  | none =>
    rw [canonicalizeRule, hcategories] at h
    cases h
    exact ⟨rfl, rfl, by simp [hcategories]⟩
  | some categories =>
    obtain ⟨canonical, hmap, rfl⟩ := (canonicalizeRule_ok hcategories).1 h
    refine ⟨rfl, ?_, ?_⟩
    · rw [hcategories, Option.map_some, Option.map_some, (mapM_ok.1 hmap).length_eq]
    · rintro _ ⟨⟩ id hid
      obtain ⟨category, -, hcategory⟩ := exists_of_mem_mapM hmap hid
      obtain ⟨hplaced, rfl⟩ := canonicalizeCategory_ok.1 hcategory
      obtain ⟨i, -, hi⟩ := (TaxonomyStore.builtFrom_of_new hstore).exists_placed hplaced
      exact mem_map_of_mem (mem_of_getElem? hi)

lemma exists_canonicalizeRule
    (hplaced : ∀ categories, rule.conditions.categories = some categories →
      ∀ category ∈ categories, (store.validateCategory category).fallbackReason = none) :
    ∃ loaded, canonicalizeRule store rule = .ok loaded := by
  cases hcategories : rule.conditions.categories with
  | none => exact ⟨rule, by rw [canonicalizeRule, hcategories]⟩
  | some categories =>
    obtain ⟨canonical, hmap⟩ : ∃ canonical,
        categories.mapM (canonicalizeCategory store rule.id) = .ok canonical :=
      exists_mapM_ok fun category hmem =>
        ⟨_, canonicalizeCategory_ok.2 ⟨hplaced categories hcategories category hmem, rfl⟩⟩
    exact ⟨_, (canonicalizeRule_ok hcategories).2 ⟨canonical, hmap, rfl⟩⟩

/-- Ids of the taxonomy stay as they are. -/
lemma canonicalizeRule_of_ids (hstore : TaxonomyStore.new t = some store)
    (htrim : ∀ category ∈ t.categories, trim category.id = category.id)
    (hids : ∀ categories ∈ rule.conditions.categories, ∀ id ∈ categories, id ∈ t.categories.map (·.id)) :
    canonicalizeRule store rule = .ok rule := by
  cases hcategories : rule.conditions.categories with
  | none => rw [canonicalizeRule, hcategories]
  | some categories =>
    refine (canonicalizeRule_ok hcategories).2 ⟨categories, ?_, by rw [← hcategories]⟩
    refine mapM_ok.2 (forall₂_same.2 fun canonical hmem => ?_)
    obtain ⟨category, hcategory, rfl⟩ := mem_map.1 (hids categories hcategories canonical hmem)
    exact canonicalizeCategory_ok.2
      ((TaxonomyStore.builtFrom_of_new hstore).validateCategory_id hcategory (htrim category hcategory))

/-- **Accepted rules load.** Rules that the admin API accepts and that are the newest version of the active
policy are loaded by the engine: each with its id, description, priority, action and conditions, and with
ids of the taxonomy for its categories. Canonicalising the loaded rules again changes nothing. -/
theorem accepted_rules_load (t : CanonicalTaxonomy) (store : TaxonomyStore)
    (hstore : TaxonomyStore.new t = some store)
    (htrim : ∀ category ∈ t.categories, trim category.id = category.id)
    (freshIds : List String) (payload : List PolicyRulePayload) (rules : List PolicyRule)
    (haccept : acceptRules store freshIds payload = .ok rules) (db : PolicyDb) (policy : PolicyRow)
    (hactive : db.activePolicy = some policy)
    (hnewest : db.loadLatestVersionRules policy.id = some rules) :
    ∃ loaded, PolicyStore.loadFromDb db store = .ok (some loaded) ∧
      List.Forall₂ (Loaded t) rules loaded.rules ∧
      canonicalizeRules store loaded.rules = .ok loaded.rules := by
  obtain ⟨loaded, hloaded⟩ : ∃ loaded, canonicalizeRules store rules = .ok loaded :=
    exists_mapM_ok fun rule hrule => exists_canonicalizeRule fun categories hcategories category =>
      placed_of_acceptRules haccept hrule hcategories
  have hstored : db.storedRules policy.id = .ok rules := by
    rw [PolicyDb.storedRules, hnewest]
    simp [acceptRules_ne_nil haccept]
  have hrules : List.Forall₂ (Loaded t) rules loaded :=
    (mapM_ok.1 hloaded).imp fun _ _ h => loaded_of_canonicalizeRule hstore h
  refine ⟨{ rules := loaded, version := policy.version, policyId := some policy.id, taxonomy := store },
    ?_, hrules, ?_⟩
  · simp only [PolicyStore.loadFromDb, hactive]
    exact bind_ok.2 ⟨rules, hstored, bind_ok.2 ⟨loaded, hloaded, rfl⟩⟩
  · refine mapM_ok.2 (forall₂_same.2 fun rule hrule => ?_)
    obtain ⟨stored, -, hrule⟩ := exists_of_mem_mapM hloaded hrule
    exact canonicalizeRule_of_ids hstore htrim (loaded_of_canonicalizeRule hstore hrule).ids

/-- A rule that names a category by its name, with blanks around it. -/
def namedRule : List PolicyRulePayload :=
  [{ id := some " r1 ", description := none, priority := 10, action := "block"
     conditions := { categories := some [" Social Media "], users := some ["alice"] } }]

/-- Tables with one active policy and two versions, of which the later has these rules. -/
def twoVersions (rules : List PolicyRule) : PolicyDb :=
  { policies :=
      [{ id := 1, name := "base", version := "v2", status := "active", createdBy := none,
         createdAt := 1 }]
    policyRules := []
    policyVersions :=
      [{ policyId := 1, version := "v1", status := "active", createdBy := none, notes := none
         rules := [], createdAt := 1 },
       { policyId := 1, version := "v2", status := "active", createdBy := none, notes := none
         rules, createdAt := 2 }] }

/-- A taxonomy of two categories. -/
def twoCategories : CanonicalTaxonomy :=
  { version := "v1"
    categories :=
      [{ id := unknownCategoryId, name := "Unknown / Unclassified", subcategories := [] },
       { id := "social-media", name := "Social Media", subcategories := [] }] }

/-- The rule is accepted, and loaded with the id of the category. -/
theorem named_category_loads :
    ∃ store rules loaded, TaxonomyStore.new twoCategories = some store ∧
      acceptRules store [] namedRule = .ok rules ∧
      PolicyStore.loadFromDb (twoVersions rules) store = .ok (some loaded) ∧
      List.Forall₂ (Loaded twoCategories) rules loaded.rules ∧
      canonicalizeRules store loaded.rules = .ok loaded.rules := by
  have haccepted : ((TaxonomyStore.new twoCategories).bind fun store =>
      (acceptRules store [] namedRule).toOption).isSome = true := by decide +kernel
  obtain ⟨rules, haccepted⟩ := Option.isSome_iff_exists.1 haccepted
  obtain ⟨store, hstore, haccept⟩ := Option.bind_eq_some_iff.1 haccepted
  have haccept := toOption_eq_some.1 haccept
  have htrim : ∀ category ∈ twoCategories.categories, trim category.id = category.id := by
    decide +kernel
  obtain ⟨loaded, hloaded⟩ := accepted_rules_load twoCategories store hstore htrim [] namedRule rules
    haccept (twoVersions rules) _ rfl rfl
  exact ⟨store, rules, loaded, hstore, haccept, hloaded⟩

end OpenDefender.System.AcceptedRules
