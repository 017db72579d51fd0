import OpenDefender.Lib.Assoc
import OpenDefender.Lib.Text

/-!
The canonical taxonomy and its label resolver (`crates/taxonomy/src/lib.rs`).

* `CanonicalTaxonomy.validate` is the check a loaded file passes.
* `TaxonomyStore.new` builds the lookup maps, aliases included; it is `none` where the source
  panics for want of the unknown category.
* `validateLabels` and `validateCategory` resolve the labels of a verdict, a hint or a rule.
-/

namespace OpenDefender

open Lib Text

/-- `UNKNOWN_CATEGORY_ID`. -/
def unknownCategoryId : String := "unknown-unclassified"

/-- `UNKNOWN_DEFAULT_SUBCATEGORY_ID`. -/
def unknownDefaultSubcategoryId : String := "insufficient-evidence"

/-- `CanonicalSubcategory`. -/
structure CanonicalSubcategory where
  id : String
  name : String
  alwaysEnabled : Option Bool := none
  deriving DecidableEq, Repr, Inhabited

/-- `CanonicalCategory`. -/
structure CanonicalCategory where
  id : String
  name : String
  alwaysEnabled : Option Bool := none
  subcategories : List CanonicalSubcategory
  deriving DecidableEq, Repr, Inhabited

/-- `CanonicalTaxonomy`. -/
structure CanonicalTaxonomy where
  version : String
  categories : List CanonicalCategory
  deriving DecidableEq, Repr

/-- The first id that an earlier one equals, the failing `insert` into a set of seen ids. -/
def firstDuplicate (seen : List String) : List String → Option String
  | [] => none
  | id :: rest => if id ∈ seen then some id else firstDuplicate (id :: seen) rest

/-- The loop of `validate` over the categories, with the ids seen so far. -/
def validateCategories (seen : List String) : List CanonicalCategory → Except String Unit
  | [] => .ok ()
  | category :: rest =>
    if category.id ∈ seen then
      .error ("duplicate category id detected: " ++ category.id)
    else if category.subcategories.isEmpty then
      .error ("category " ++ category.id ++ " must contain at least one subcategory")
    else
      match firstDuplicate [] (category.subcategories.map (·.id)) with
      | some sub =>
        .error ("duplicate subcategory id detected within " ++ category.id ++ ": " ++ sub)
      | none => validateCategories (category.id :: seen) rest

/-- `CanonicalTaxonomy::validate`. -/
def CanonicalTaxonomy.validate (t : CanonicalTaxonomy) : Except String Unit := do
  if (trim t.version).isEmpty then
    throw "taxonomy version must be non-empty"
  validateCategories [] t.categories
  if t.categories.length ≠ 41 then
    throw ("expected 41 canonical categories, found " ++ toString t.categories.length)
  if !t.categories.any (fun cat => cat.id == unknownCategoryId) then
    throw "missing unknown-unclassified category"

/-- `FallbackReason`. -/
inductive FallbackReason where
  | missingCategory
  | unknownCategory
  | missingSubcategory
  | unknownSubcategory
  deriving DecidableEq, Repr

/-- `FallbackReason::as_str`. -/
def FallbackReason.asStr : FallbackReason → String
  | missingCategory => "missing_category"
  | unknownCategory => "unknown_category"
  | missingSubcategory => "missing_subcategory"
  | unknownSubcategory => "unknown_subcategory"

/-! ### Labels -/

/-- The character loop of `normalize_label`: letters and digits in lower case, every run of other
characters as one blank. -/
def normalizeLabelLoop (lastWasSpace : Bool) : List Char → List Char
  | [] => []
  | ch :: rest =>
    let lower := ch.toLower
    if isAsciiAlphanumeric lower then lower :: normalizeLabelLoop false rest
    else if lastWasSpace then normalizeLabelLoop true rest
    else ' ' :: normalizeLabelLoop true rest

/-- `normalize_label`. -/
def normalizeLabel (value : String) : Option String :=
  let trimmed := trim value
  if trimmed.isEmpty then none
  else
    let normalized := trim (String.ofList (normalizeLabelLoop false trimmed.toList))
    if normalized.isEmpty then none else some normalized

/-- `CATEGORY_ALIAS_PAIRS`. -/
def categoryAliasPairs : List (String × String) :=
  [("social", "social-media"), ("social networking", "social-media"),
   ("shopping", "shopping-e-commerce"), ("ecommerce", "shopping-e-commerce"),
   ("malware", "malware-phishing-fraud"), ("phishing", "malware-phishing-fraud"),
   ("fraud", "malware-phishing-fraud"), ("adult", "adult-sexual-content"),
   ("sexual content", "adult-sexual-content"), ("advertising", "advertisements"),
   ("ads", "advertisements"), ("adtech", "advertisements"), ("ad network", "advertisements"),
   ("unknown", "unknown-unclassified")]

/-- `SUBCATEGORY_ALIAS_PAIRS`. -/
def subcategoryAliasPairs : List (String × String × String) :=
  [("social-media", "short form video", "short-video-platforms"),
   ("social-media", "social networking", "social-networks"),
   ("social-media", "social network", "social-networks"),
   ("social-media", "general social networking", "social-networks"),
   ("news-media", "general", "general-news"),
   ("shopping-e-commerce", "retail", "general-retail"),
   (unknownCategoryId, "unknown", unknownDefaultSubcategoryId),
   ("advertisements", "advertisement", "general-advertising"),
   ("advertisements", "ads", "general-advertising"),
   ("advertisements", "advertising network", "general-advertising")]

/-! ### The store -/

/-- `TaxonomyStore`. -/
structure TaxonomyStore where
  taxonomy : CanonicalTaxonomy
  categoryById : Assoc String Nat
  categoryLookup : Assoc String Nat
  subcategoryById : Assoc String (Assoc String Nat)
  subcategoryLookup : Assoc String (Assoc String Nat)
  unknownCategoryIndex : Nat
  unknownDefaultSubcategoryIndex : Nat

/-- The lookup map of names and ids that `new` builds for a list of labelled entries: a name
replaces what is there, an id does not. -/
def labelLookup (entries : List ((String × String) × Nat)) : Assoc String Nat :=
  entries.foldl (fun m e =>
    let m := match normalizeLabel e.1.2 with
      | some normalized => m.set normalized e.2
      | none => m
    match normalizeLabel e.1.1 with
    | some normalized => m.setIfAbsent normalized e.2
    | none => m) .empty

/-- The map from ids to positions: a later equal id replaces an earlier one. -/
def idIndex (entries : List ((String × String) × Nat)) : Assoc String Nat :=
  entries.foldl (fun m e => m.set e.1.1 e.2) .empty

/-- Ids and names of the categories with their positions. -/
def CanonicalTaxonomy.labels (t : CanonicalTaxonomy) : List ((String × String) × Nat) :=
  (t.categories.map fun c => (c.id, c.name)).zipIdx

/-- Ids and names of the subcategories with their positions. -/
def CanonicalCategory.labels (c : CanonicalCategory) : List ((String × String) × Nat) :=
  (c.subcategories.map fun s => (s.id, s.name)).zipIdx

/-- The position of the last entry with this id. -/
def lastIndexOf (id : String) (entries : List ((String × String) × Nat)) : Option Nat :=
  (entries.filter (fun e => e.1.1 = id)).getLast?.map Prod.snd

/-- `TaxonomyStore::apply_category_aliases`. -/
def TaxonomyStore.applyCategoryAliases (s : TaxonomyStore) : TaxonomyStore :=
  { s with
    categoryLookup := categoryAliasPairs.foldl (fun m pair =>
      match s.categoryById.get pair.2, normalizeLabel pair.1 with
      | some idx, some normalized => m.setIfAbsent normalized idx
      | _, _ => m) s.categoryLookup }

/-- `TaxonomyStore::apply_subcategory_aliases`. -/
def TaxonomyStore.applySubcategoryAliases (s : TaxonomyStore) : TaxonomyStore :=
  { s with
    subcategoryLookup := subcategoryAliasPairs.foldl (fun m pair =>
      match (s.subcategoryById.get pair.1).bind (·.get pair.2.2), normalizeLabel pair.2.1,
        m.get pair.1 with
      | some subIdx, some normalized, some lookup =>
        m.set pair.1 (lookup.setIfAbsent normalized subIdx)
      | _, _, _ => m) s.subcategoryLookup }

/-- `TaxonomyStore::new`; `none` is the panic on a taxonomy without the unknown category. -/
def TaxonomyStore.new (t : CanonicalTaxonomy) : Option TaxonomyStore := do
  let unknownCategoryIndex ← lastIndexOf unknownCategoryId t.labels
  let unknownSubs := ((t.categories.filter (fun c => c.id = unknownCategoryId)).filterMap
    fun c => lastIndexOf unknownDefaultSubcategoryId c.labels)
  let store : TaxonomyStore :=
    { taxonomy := t
      categoryById := idIndex t.labels
      categoryLookup := labelLookup t.labels
      subcategoryById := t.categories.foldl (fun m c => m.set c.id (idIndex c.labels)) .empty
      subcategoryLookup := t.categories.foldl (fun m c => m.set c.id (labelLookup c.labels)) .empty
      unknownCategoryIndex := unknownCategoryIndex
      unknownDefaultSubcategoryIndex := unknownSubs.getLast?.getD 0 }
  return store.applyCategoryAliases.applySubcategoryAliases

namespace TaxonomyStore

variable (s : TaxonomyStore)

/-- `category_by_index`. -/
def categoryByIndex (index : Nat) : CanonicalCategory :=
  s.taxonomy.categories.getD index default

/-- `subcategory_by_index`. -/
def subcategoryByIndex (categoryIndex subcategoryIndex : Nat) : CanonicalSubcategory :=
  (s.categoryByIndex categoryIndex).subcategories.getD subcategoryIndex default

/-- `resolve_category`. -/
def resolveCategory (input : String) (normalized : Option String) : Nat × Option FallbackReason :=
  match (s.categoryById.get input).or (normalized.bind s.categoryLookup.get) with
  | some idx => (idx, none)
  | none =>
    (s.unknownCategoryIndex,
      some (if input.isEmpty then .missingCategory else .unknownCategory))

/-- `SubcategoryResolution`. -/
inductive SubcategoryResolution where
  | found (index : Nat)
  | fallback (reason : FallbackReason)
  deriving DecidableEq, Repr

/-- `resolve_subcategory`. -/
def resolveSubcategory (categoryIndex : Nat)
    (input normalized : Option String) : Option SubcategoryResolution := do
  let category := s.categoryByIndex categoryIndex
  let byId ← s.subcategoryById.get category.id
  match input.bind byId.get with
  | some idx => return .found idx
  | none =>
    match normalized.bind fun norm => (s.subcategoryLookup.get category.id).bind (·.get norm) with
    | some idx => return .found idx
    | none =>
      return .fallback (if input.isNone then .missingSubcategory else .unknownSubcategory)

/-- `ValidatedTaxonomyLabels`. -/
structure ValidatedTaxonomyLabels where
  category : CanonicalCategory
  subcategory : CanonicalSubcategory
  fallbackReason : Option FallbackReason
  normalizedCategory : Option String
  normalizedSubcategory : Option String
  deriving DecidableEq, Repr

/-- `validate_labels`. -/
def validateLabels (category : String) (subcategory : Option String) : ValidatedTaxonomyLabels :=
  let trimmedCategory := trim category
  let normalizedCategory := normalizeLabel trimmedCategory
  let resolution := s.resolveCategory trimmedCategory normalizedCategory
  let cleanedSubcategory := (subcategory.map trim).filter (fun v => !v.isEmpty)
  let normalizedSubcategory := cleanedSubcategory.bind normalizeLabel
  let (categoryIndex, subcategoryIndex, fallbackReason) :=
    if resolution.1 = s.unknownCategoryIndex then
      (resolution.1, s.unknownDefaultSubcategoryIndex, resolution.2)
    else
      match s.resolveSubcategory resolution.1 cleanedSubcategory normalizedSubcategory with
      | some (.found idx) => (resolution.1, idx, resolution.2)
      | some (.fallback reason) =>
        (s.unknownCategoryIndex, s.unknownDefaultSubcategoryIndex, resolution.2.or (some reason))
      | none =>
        (s.unknownCategoryIndex, s.unknownDefaultSubcategoryIndex,
          resolution.2.or (some .missingSubcategory))
  { category := s.categoryByIndex categoryIndex
    subcategory := s.subcategoryByIndex categoryIndex subcategoryIndex
    fallbackReason := fallbackReason
    normalizedCategory := normalizedCategory
    normalizedSubcategory := normalizedSubcategory }

/-- `ValidatedCategory`. -/
structure ValidatedCategory where
  category : CanonicalCategory
  fallbackReason : Option FallbackReason
  normalizedCategory : Option String
  deriving DecidableEq, Repr

/-- `validate_category`. -/
def validateCategory (category : String) : ValidatedCategory :=
  let trimmedCategory := trim category
  let normalizedCategory := normalizeLabel trimmedCategory
  let resolution := s.resolveCategory trimmedCategory normalizedCategory
  { category := s.categoryByIndex resolution.1
    fallbackReason := resolution.2
    normalizedCategory := normalizedCategory }

end TaxonomyStore

/-! ### A taxonomy to evaluate on -/

/-- A taxonomy of the size `validate` asks for: the unknown category, social media and fillers. -/
def sampleTaxonomy : CanonicalTaxonomy :=
  { version := "sample"
    categories :=
      { id := unknownCategoryId, name := "Unknown / Unclassified",
        subcategories :=
          [{ id := unknownDefaultSubcategoryId, name := "Insufficient Evidence" }] } ::
      { id := "social-media", name := "Social Media",
        subcategories := [{ id := "social-networks", name := "Social Networks" }] } ::
      (List.range 39).map fun i =>
        { id := "category-" ++ toString i, name := "Category " ++ toString i,
          subcategories := [{ id := "general", name := "General" }] } }

lemma sampleTaxonomy_validate : sampleTaxonomy.validate = .ok () := by decide +kernel

lemma sampleTaxonomy_new_isSome : (TaxonomyStore.new sampleTaxonomy).isSome = true := by
  decide +kernel

/-- The store of the sample taxonomy. -/
def sampleTaxonomyStore : TaxonomyStore :=
  (TaxonomyStore.new sampleTaxonomy).get sampleTaxonomy_new_isSome

lemma sampleTaxonomy_new : TaxonomyStore.new sampleTaxonomy = some sampleTaxonomyStore :=
  (Option.some_get sampleTaxonomy_new_isSome).symm

end OpenDefender
