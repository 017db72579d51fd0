import OpenDefender.Admin.PolicyRules
import OpenDefender.Lib.ExactCover
import OpenDefender.Taxonomy.Activation

/-!
The taxonomy handlers of the admin API (`services/admin-api/src/taxonomy.rs`): what the endpoint
reports of the activation profile, how an update is checked, and how a profile is seeded, synchronized
with the taxonomy and persisted.

The admin API has a profile type of its own, with other defaults than that of the engine.

`exists_validateActivationPayload_ok`: an update is accepted exactly when it covers the taxonomy. What
the engine makes of the profiles that are stored is in `System.ActivationProfiles`.
-/

namespace OpenDefender.Admin

open Lib Text ExactCover FirstMatch

/-! ### Checking an update -/

/-- `ActivationSubcategoryInput`. -/
structure ActivationSubcategoryInput where
  id : String
  enabled : Bool
  deriving DecidableEq, Repr

/-- `ActivationCategoryInput`. -/
structure ActivationCategoryInput where
  id : String
  enabled : Bool
  subcategories : List ActivationSubcategoryInput := []
  deriving DecidableEq, Repr

/-- `ActivationUpdateRequest`. -/
structure ActivationUpdateRequest where
  version : String
  categories : List ActivationCategoryInput
  deriving DecidableEq, Repr

/-- `ValidatedActivationSubcategory`. -/
structure ValidatedActivationSubcategory where
  id : String
  enabled : Bool
  deriving DecidableEq, Repr

/-- `ValidatedActivationCategory`. -/
structure ValidatedActivationCategory where
  id : String
  enabled : Bool
  subcategories : List ValidatedActivationSubcategory
  deriving DecidableEq, Repr

/-- `ValidatedActivationPayload`. -/
structure ValidatedActivationPayload where
  version : String
  categories : List ValidatedActivationCategory
  deriving DecidableEq, Repr

/-- How the subcategories of a category are matched. -/
def subcategoryRules (canonical : CanonicalCategory) :
    Rules String ApiError CanonicalSubcategory ActivationSubcategoryInput
      ValidatedActivationSubcategory where
  itemKey := (·.id)
  inputKey := (·.id)
  duplicate sub := validationError ("duplicate subcategory " ++ sub.id ++ " in category " ++ canonical.id)
  missing sub := validationError ("missing subcategory " ++ sub.id ++ " in category " ++ canonical.id)
  unknown extras := validationError
    ("unknown subcategories in category " ++ canonical.id ++ ": " ++ join ", " extras)
  check sub input :=
    if sub.alwaysEnabled.getD false && !input.enabled then
      .error (validationError ("subcategory " ++ sub.id ++ " cannot be disabled"))
    else .ok { id := sub.id, enabled := input.enabled }

/-- `validate_subcategories`. The source names unknown ids in the order of a hash map. -/
def validateSubcategories (canonical : CanonicalCategory) (input : ActivationCategoryInput) :
    Except ApiError (List ValidatedActivationSubcategory) :=
  exactCover (subcategoryRules canonical) canonical.subcategories input.subcategories

/-- How the categories are matched. -/
def categoryRules :
    Rules String ApiError CanonicalCategory ActivationCategoryInput ValidatedActivationCategory where
  itemKey := (·.id)
  inputKey := (·.id)
  duplicate _ := validationError "duplicate category id in payload"
  missing canonical := validationError ("missing category " ++ canonical.id ++ " in payload")
  unknown extras := validationError ("unknown categories in payload: " ++ join ", " extras)
  check canonical input :=
    if canonical.alwaysEnabled.getD false && !input.enabled then
      .error (validationError ("category " ++ canonical.id ++ " cannot be disabled"))
    else do
      let subcategories ← validateSubcategories canonical input
      return { id := canonical.id, enabled := input.enabled, subcategories }

/-- `validate_activation_payload`. -/
def validateActivationPayload (payload : ActivationUpdateRequest) (taxonomy : CanonicalTaxonomy) :
    Except ApiError ValidatedActivationPayload :=
  let requestedVersion := trim payload.version
  if requestedVersion ≠ taxonomy.version then
    .error
      { status := 409
        errorCode := "VERSION_CONFLICT"
        message := "taxonomy version mismatch: expected " ++ taxonomy.version ++ ", got " ++
          requestedVersion }
  else do
    let categories ← exactCover categoryRules taxonomy.categories payload.categories
    return { version := taxonomy.version, categories }

/-! ### The profile of the admin API -/

/-- `ActivationProfile` of the admin API. -/
structure ActivationProfile where
  id : Uuid
  version : String
  updatedBy : Option String
  updatedAt : Nat
  categoryStates : Assoc String Bool
  subcategoryStates : Assoc String (Assoc String Bool)

namespace ActivationProfile

/-- The effect of one entry in the loop of `load_activation_profile`. -/
def addEntry (p : ActivationProfile) (entry : ActivationEntry) : ActivationProfile :=
  if entry.subcategoryId = categorySentinelId then
    { p with categoryStates := p.categoryStates.set entry.categoryId entry.enabled }
  else
    let subs := (p.subcategoryStates.get entry.categoryId).getD .empty
    { p with
      subcategoryStates :=
        p.subcategoryStates.set entry.categoryId (subs.set entry.subcategoryId entry.enabled) }

/-- `load_activation_profile` from the answers of its two queries. -/
def ofRows (row : ProfileRow) (entries : List ActivationEntry) : ActivationProfile :=
  entries.foldl addEntry
    { id := row.id
      version := row.version
      updatedBy := row.updatedBy
      updatedAt := row.updatedAt
      categoryStates := .empty
      subcategoryStates := .empty }

/-- `ActivationProfile::category_enabled`. -/
def categoryEnabled (p : ActivationProfile) (categoryId : String) : Bool :=
  (p.categoryStates.get categoryId).getD true

/-- `ActivationProfile::subcategory_enabled`. -/
def subcategoryEnabled (p : ActivationProfile) (categoryId subcategoryId : String) : Option Bool :=
  (p.subcategoryStates.get categoryId).bind (·.get subcategoryId)

end ActivationProfile

variable (tables : ActivationTables) (taxonomy : CanonicalTaxonomy)

/-- `load_activation_profile` with both queries at one moment. -/
def loadActivationProfile : Option ActivationProfile :=
  tables.newestProfile.map fun row => .ofRows row (tables.entriesOf row.id)

/-! ### What the endpoint reports -/

/-- `TaxonomySubcategoryResponse`. -/
structure TaxonomySubcategoryResponse where
  id : String
  name : String
  enabled : Bool
  effectiveEnabled : Bool
  locked : Bool
  deriving DecidableEq, Repr

/-- `TaxonomyCategoryResponse`. -/
structure TaxonomyCategoryResponse where
  id : String
  name : String
  enabled : Bool
  effectiveEnabled : Bool
  locked : Bool
  subcategories : List TaxonomySubcategoryResponse
  deriving DecidableEq, Repr

/-- `TaxonomyResponse`. -/
structure TaxonomyResponse where
  version : String
  updatedAt : Nat
  updatedBy : Option String
  categories : List TaxonomyCategoryResponse
  deriving DecidableEq, Repr

variable (categoryId : String) (acc : ActivationProfile × List ActivationEntry) (profile : ActivationProfile)
  (category : CanonicalCategory) (profileId : Uuid)

/-- `map_subcategory_response`. -/
def mapSubcategoryResponse (parentEnabled parentLocked : Bool)
    (profile : ActivationProfile) (sub : CanonicalSubcategory) : TaxonomySubcategoryResponse :=
  let locked := parentLocked || sub.alwaysEnabled.getD false
  let stored := (profile.subcategoryEnabled categoryId sub.id).getD parentEnabled
  let enabled := if locked then true else stored
  { id := sub.id, name := sub.name, enabled, effectiveEnabled := enabled, locked }

/-- `map_category_response`. -/
def mapCategoryResponse : TaxonomyCategoryResponse :=
  let locked := category.alwaysEnabled.getD false
  let enabled := if locked then true else profile.categoryEnabled category.id
  { id := category.id
    name := category.name
    enabled
    effectiveEnabled := enabled
    locked
    subcategories := category.subcategories.map
      (mapSubcategoryResponse category.id enabled locked profile) }

/-! ### Seeding, synchronizing and persisting -/

/-- The rows the two loops insert for a category: its own with the reserved id, then those of its
subcategories. -/
def categoryEntries (categoryId : String) (enabled : Bool)
    (subcategories : List (String × Bool)) : List ActivationEntry :=
  { profileId, categoryId, subcategoryId := categorySentinelId, enabled } ::
    subcategories.map fun sub => { profileId, categoryId, subcategoryId := sub.1, enabled := sub.2 }

/-- The entries `seed_default_profile` inserts. -/
def seedEntries (taxonomy : CanonicalTaxonomy) : List ActivationEntry :=
  taxonomy.categories.flatMap fun category =>
    categoryEntries profileId category.id true (category.subcategories.map fun sub => (sub.id, true))

/-- `seed_default_profile`. -/
def seedDefaultProfile (now : Nat) : ActivationTables :=
  { profiles := tables.profiles ++
      [{ id := profileId, version := taxonomy.version, updatedAt := now,
         updatedBy := some "system" }]
    entries := tables.entries ++ seedEntries profileId taxonomy }

/-- The entries `persist_activation_profile` inserts. -/
def payloadEntries (payload : ValidatedActivationPayload) : List ActivationEntry :=
  payload.categories.flatMap fun category =>
    categoryEntries profileId category.id category.enabled
      (category.subcategories.map fun sub => (sub.id, sub.enabled))

/-- `UPDATE taxonomy_activation_profiles … WHERE id = profileId`. -/
def updateProfileRow (change : ProfileRow → ProfileRow) : ActivationTables :=
  { tables with
    profiles := tables.profiles.map fun row => if row.id = profileId then change row else row }

/-- `persist_activation_profile`. -/
def persistActivationProfile
    (payload : ValidatedActivationPayload) (taxonomy : CanonicalTaxonomy) (actor : String)
    (now : Nat) : ActivationTables :=
  let tables := updateProfileRow tables profileId fun row =>
    { row with version := taxonomy.version, updatedBy := some actor, updatedAt := now }
  { tables with
    entries := tables.entries.filter (fun entry => entry.profileId ≠ profileId) ++
      payloadEntries profileId payload }

/-- One subcategory in the loop of `synchronize_profile`: the profile and the inserts so far. -/
def synchronizeSubcategory (sub : CanonicalSubcategory) : ActivationProfile × List ActivationEntry :=
  let subs := (acc.1.subcategoryStates.get categoryId).getD .empty
  if (subs.get sub.id).isSome then acc
  else
    ({ acc.1 with
        subcategoryStates := acc.1.subcategoryStates.set categoryId (subs.set sub.id true) },
      acc.2 ++ [{ profileId := acc.1.id, categoryId, subcategoryId := sub.id, enabled := true }])

/-- The state of the category itself in the loop of `synchronize_profile`. -/
def synchronizeOwn : ActivationProfile × List ActivationEntry :=
  if (acc.1.categoryStates.get category.id).isSome then acc
  else
    ({ acc.1 with categoryStates := acc.1.categoryStates.set category.id true },
      acc.2 ++ [{ profileId := acc.1.id, categoryId := category.id,
                  subcategoryId := categorySentinelId, enabled := true }])

/-- One category in the loop of `synchronize_profile`. -/
def synchronizeCategory : ActivationProfile × List ActivationEntry :=
  category.subcategories.foldl (synchronizeSubcategory category.id) (synchronizeOwn acc category)

/-- The entries `synchronize_profile` inserts: one, switched on, for every item without a state. -/
def missingEntries (taxonomy : CanonicalTaxonomy) : List ActivationEntry :=
  (taxonomy.categories.foldl synchronizeCategory (profile, [])).2

/-- `synchronize_profile`. It leaves `updated_at` as it is. -/
def synchronizeProfile (taxonomy : CanonicalTaxonomy) : ActivationTables :=
  let inserts := missingEntries profile taxonomy
  let tables := { tables with entries := tables.entries ++ inserts }
  if profile.version ≠ taxonomy.version then
    updateProfileRow tables profile.id fun row => { row with version := taxonomy.version }
  else tables

/-- `ensure_activation_profile`: the tables afterwards and the profile that is loaded from them. -/
def ensureActivationProfile (newId : Uuid) (now : Nat) : ActivationTables × Option ActivationProfile :=
  let tables := match loadActivationProfile tables with
    | some profile => synchronizeProfile tables profile taxonomy
    | none => seedDefaultProfile tables taxonomy newId now
  (tables, loadActivationProfile tables)

/-- `assert_no_reserved_ids`. -/
def assertNoReservedIds : Except ApiError Unit :=
  if taxonomy.categories.any fun category =>
      category.subcategories.any fun sub => sub.id = categorySentinelId then
    .error
      { status := 500
        errorCode := "SERVER_ERROR"
        message := "canonical taxonomy includes reserved id " ++ categorySentinelId }
  else .ok ()

/-- `get_taxonomy` for a caller with the role: the response and the tables afterwards. -/
def getTaxonomy (newId : Uuid) (now : Nat) : Except ApiError (TaxonomyResponse × ActivationTables) := do
  assertNoReservedIds taxonomy
  match ensureActivationProfile tables taxonomy newId now with
  | (_, none) =>
    .error
      { status := 500
        errorCode := "DB_ERROR"
        message := "no rows returned by a query that expected to return at least one row" }
  | (tables, some profile) =>
    return ({ version := profile.version
              updatedAt := profile.updatedAt
              updatedBy := profile.updatedBy
              categories := taxonomy.categories.map (mapCategoryResponse profile) }, tables)

/-! ### Which updates are accepted -/

/-- The ids of the categories differ, and those of the subcategories of each category. -/
structure UniqueIds (taxonomy : CanonicalTaxonomy) : Prop where
  categories : (taxonomy.categories.map (·.id)).Nodup
  subcategories : ∀ category ∈ taxonomy.categories, (category.subcategories.map (·.id)).Nodup

/-- No subcategory has the id that stands for its category. -/
def NoReservedIds : Prop :=
  ∀ category ∈ taxonomy.categories, ∀ sub ∈ category.subcategories, sub.id ≠ categorySentinelId

lemma assertNoReservedIds_ok {taxonomy : CanonicalTaxonomy} :
    assertNoReservedIds taxonomy = .ok () ↔ NoReservedIds taxonomy := by
  simp [assertNoReservedIds, NoReservedIds]

/-- An input lists the subcategories of its category, each once, and switches nothing off that is always
on. -/
structure CoversCategory (category : CanonicalCategory) (input : ActivationCategoryInput) : Prop where
  own : category.alwaysEnabled.getD false = true → input.enabled = true
  ids : (input.subcategories.map (·.id)).Perm (category.subcategories.map (·.id))
  locked : ∀ sub ∈ category.subcategories, ∀ subInput ∈ input.subcategories,
    subInput.id = sub.id → sub.alwaysEnabled.getD false = true → subInput.enabled = true

/-- An update has the version of the taxonomy, lists its categories, each once, and covers each. -/
structure CoversTaxonomy (taxonomy : CanonicalTaxonomy) (payload : ActivationUpdateRequest) :
    Prop where
  version : trim payload.version = taxonomy.version
  ids : (payload.categories.map (·.id)).Perm (taxonomy.categories.map (·.id))
  categories : ∀ category ∈ taxonomy.categories, ∀ input ∈ payload.categories,
    input.id = category.id → CoversCategory category input

variable {category : CanonicalCategory}

lemma subcategoryRules_check :
    (subcategoryRules category).check sub input = .ok validated ↔
      (sub.alwaysEnabled.getD false = true → input.enabled = true) ∧
        validated = { id := sub.id, enabled := input.enabled } := by
  simp only [subcategoryRules]
  cases sub.alwaysEnabled.getD false <;> cases input.enabled <;> simp [eq_comm]

lemma categoryRules_check :
    categoryRules.check category input = .ok validated ↔
      (category.alwaysEnabled.getD false = true → input.enabled = true) ∧
        ∃ subcategories, validateSubcategories category input = .ok subcategories ∧
          validated = { id := category.id, enabled := input.enabled, subcategories } := by
  simp only [categoryRules]
  split
  · rename_i hlocked
    simp_all
  · rename_i hfree
    rw [Outcome.bind_ok]
    constructor
    · rintro ⟨subcategories, hsubs, heq⟩
      refine ⟨fun halways => ?_, subcategories, hsubs, (Except.ok.inj heq).symm⟩
      simpa [halways] using hfree
    · rintro ⟨-, subcategories, hsubs, rfl⟩
      exact ⟨subcategories, hsubs, rfl⟩

/-- The subcategories of an input are accepted exactly when they cover those of the category. -/
lemma exists_validateSubcategories_ok (hnodup : (category.subcategories.map (·.id)).Nodup)
    (input : ActivationCategoryInput) :
    (∃ subcategories, validateSubcategories category input = .ok subcategories) ↔
      (input.subcategories.map (·.id)).Perm (category.subcategories.map (·.id)) ∧
        ∀ sub ∈ category.subcategories, ∀ subInput ∈ input.subcategories,
          subInput.id = sub.id → sub.alwaysEnabled.getD false = true → subInput.enabled = true := by
  rw [validateSubcategories, exists_exactCover_ok (subcategoryRules category) _ hnodup]
  simp only [subcategoryRules_check, exists_and_left, exists_eq, and_true]
  rfl

/-- **What `validate_activation_payload` accepts**: the updates that cover the taxonomy. -/
lemma exists_validateActivationPayload_ok {taxonomy : CanonicalTaxonomy}
    (hunique : UniqueIds taxonomy) (payload : ActivationUpdateRequest) :
    (∃ validated, validateActivationPayload payload taxonomy = .ok validated) ↔
      CoversTaxonomy taxonomy payload := by
  have hcategory : ∀ category ∈ taxonomy.categories, ∀ input : ActivationCategoryInput,
      (∃ validated, categoryRules.check category input = .ok validated) ↔
        CoversCategory category input := by
    intro category hmem input
    simp only [categoryRules_check]
    constructor
    · rintro ⟨validated, hown, subcategories, hsubs, -⟩
      obtain ⟨hids, hlocked⟩ :=
        (exists_validateSubcategories_ok (hunique.subcategories category hmem) input).1 ⟨_, hsubs⟩
      exact ⟨hown, hids, hlocked⟩
    · rintro ⟨hown, hids, hlocked⟩
      obtain ⟨subcategories, hsubs⟩ :=
        (exists_validateSubcategories_ok (hunique.subcategories category hmem) input).2
          ⟨hids, hlocked⟩
      exact ⟨_, hown, subcategories, hsubs, rfl⟩
  have hcover := exists_exactCover_ok categoryRules payload.categories hunique.categories
  simp only [validateActivationPayload]
  split
  · rename_i hversion
    constructor
    · rintro ⟨validated, h⟩
      cases h
    · exact fun h => absurd h.version hversion
  · rename_i hversion
    rw [ne_eq, not_not] at hversion
    constructor
    · rintro ⟨validated, h⟩
      obtain ⟨categories, hcategories, -⟩ := Outcome.bind_ok.1 h
      obtain ⟨hids, hall⟩ := hcover.1 ⟨categories, hcategories⟩
      exact ⟨hversion, hids, fun category hmem input hinput hid =>
        (hcategory category hmem input).1 (hall category hmem input hinput hid)⟩
    · intro h
      obtain ⟨categories, hcategories⟩ := hcover.2 ⟨h.ids, fun category hmem input hinput hid =>
        (hcategory category hmem input).2 (h.categories category hmem input hinput hid)⟩
      exact ⟨_, Outcome.bind_ok.2 ⟨categories, hcategories, rfl⟩⟩

end OpenDefender.Admin
