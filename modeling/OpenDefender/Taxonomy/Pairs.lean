import OpenDefender.Lib.Outcome
import OpenDefender.Taxonomy.Resolution

/-!
Pairs of a category and a subcategory, as `validate_labels` returns them.

`Indexed` is what the maps of a store are good for: every id leads to its own position, and every position that a map
holds is one of the taxonomy. `BuiltFrom.indexed` shows it of the store that `new` builds, aliases included, of a taxonomy
that passes `validate`. From there `validate_labels` never leaves the range of a list, and a pair that it has returned is
returned again for its own ids (`validateLabels_sound`).
-/

namespace OpenDefender

open Lib Text Lib.Outcome List

/-! ### Taxonomies that pass the check -/

/-- What `validate` makes sure of, apart from the version and the number of categories. -/
structure CanonicalTaxonomy.WellFormed (t : CanonicalTaxonomy) : Prop where
  ids : (t.categories.map (·.id)).Nodup
  subcategories : ∀ category ∈ t.categories, category.subcategories ≠ []
  subcategoryIds : ∀ category ∈ t.categories, (category.subcategories.map (·.id)).Nodup
  unknown : ∃ category ∈ t.categories, category.id = unknownCategoryId

lemma nodup_of_firstDuplicate (h : firstDuplicate seen ids = none) :
    ids.Nodup ∧ ∀ id ∈ ids, id ∉ seen := by
  induction ids generalizing seen with
  | nil => simp
  | cons id ids ih =>
    rw [firstDuplicate] at h
    split at h
    · cases h
    · rename_i hid
      obtain ⟨hnodup, hseen⟩ := ih h
      refine ⟨nodup_cons.2 ⟨fun hmem => hseen id hmem mem_cons_self, hnodup⟩, ?_⟩
      exact forall_mem_cons.2 ⟨hid, fun other hother hmem => hseen other hother (mem_cons_of_mem _ hmem)⟩

lemma validateCategories_ok (h : validateCategories seen categories = .ok ()) :
    (categories.map (·.id)).Nodup ∧ (∀ category ∈ categories, category.id ∉ seen) ∧
      ∀ category ∈ categories, category.subcategories ≠ [] ∧ (category.subcategories.map (·.id)).Nodup := by
  induction categories generalizing seen with
  | nil => simp
  | cons category categories ih =>
    simp only [validateCategories] at h
    split at h
    · cases h
    rename_i hid
    split at h
    · cases h
    rename_i hsubs
    split at h
    · cases h
    rename_i hduplicate
    obtain ⟨hnodup, hseen, hrest⟩ := ih h
    have hother : ∀ other ∈ categories, other.id ≠ category.id := fun other hmem heq =>
      hseen other hmem (heq ▸ mem_cons_self)
    refine ⟨nodup_cons.2 ⟨fun hmem => ?_, hnodup⟩, forall_mem_cons.2 ⟨hid, fun other hmem h => ?_⟩,
      forall_mem_cons.2 ⟨⟨fun hnil => hsubs (by rw [hnil]; rfl), ?_⟩, hrest⟩⟩
    · obtain ⟨other, hmem, heq⟩ := mem_map.1 hmem
      exact hother other hmem heq
    · exact hseen other hmem (mem_cons_of_mem _ h)
    · exact (nodup_of_firstDuplicate hduplicate).1

lemma CanonicalTaxonomy.wellFormed_of_validate {t : CanonicalTaxonomy} (h : t.validate = .ok ()) : t.WellFormed := by
  rw [validate] at h
  obtain ⟨-, h⟩ := throw_if_ok.1 h
  obtain ⟨⟨⟩, hcategories, h⟩ := bind_ok.1 h
  obtain ⟨-, h⟩ := throw_if_ok.1 h
  have hunknown : t.categories.any (fun category => category.id == unknownCategoryId) = true := by
    by_contra hnone
    rw [if_pos (by simpa using hnone)] at h
    cases h
  obtain ⟨hnodup, -, hsubs⟩ := validateCategories_ok hcategories
  obtain ⟨category, hmem, hid⟩ := any_eq_true.1 hunknown
  exact ⟨hnodup, fun c hc => (hsubs c hc).1, fun c hc => (hsubs c hc).2, category, hmem, eq_of_beq hid⟩

/-- An entry is known by its id. -/
lemma index_unique {α : Type} {id : α → String} {l : List α} (hids : (l.map id).Nodup) {i j : ℕ} {a b : α}
    (ha : l[i]? = some a) (hb : l[j]? = some b) (h : id a = id b) : i = j := by
  have hlen : i < (l.map id).length := by
    rw [length_map]
    exact (List.getElem?_eq_some_iff.1 ha).1
  refine (List.getElem?_inj hlen hids).1 ?_
  rw [List.getElem?_map, List.getElem?_map, ha, hb, Option.map_some, Option.map_some, h]

/-! ### The maps of a store -/

/-- The positions of the subcategories of a category. -/
def InRange (category : CanonicalCategory) (m : Assoc String ℕ) : Prop :=
  m.Values fun _ j => ∃ sub, category.subcategories[j]? = some sub

/-- What the maps of a store are good for. -/
structure TaxonomyStore.Indexed (t : CanonicalTaxonomy) (store : TaxonomyStore) : Prop extends store.BuiltFrom t where
  byId : ∀ i category, t.categories[i]? = some category → store.categoryById.get category.id = some i
  subById : ∀ category ∈ t.categories, ∃ m, store.subcategoryById.get category.id = some m ∧ InRange category m ∧
    ∀ j sub, category.subcategories[j]? = some sub → m.get sub.id = some j
  subLookup : ∀ category ∈ t.categories, ∀ m, store.subcategoryLookup.get category.id = some m → InRange category m
  unknownPair : ∃ category sub, t.categories[store.unknownCategoryIndex]? = some category ∧
    category.id = unknownCategoryId ∧ category.subcategories[store.unknownDefaultSubcategoryIndex]? = some sub

/-- In a list with positions the ids lead to their positions. -/
lemma get_idIndex {α : Type} {f : α → String × String} {l : List α}
    (hids : (l.map fun a => (f a).1).Nodup) {a : α} (h : l[i]? = some a) :
    (idIndex (l.map f).zipIdx).get (f a).1 = some i := by
  have hkeys : ((l.map f).zipIdx.map fun e => e.1.1).Nodup := by
    have hmap : ((l.map f).zipIdx.map fun e => e.1.1) = l.map fun a => (f a).1 := by
      rw [← Function.comp_def Prod.fst Prod.fst, ← map_map, zipIdx_map_fst, map_map]
      rfl
    rwa [hmap]
  exact Assoc.get_foldl_set (fun e => e.1.1) Prod.snd hkeys .empty (mem_labelled h)

lemma lastIndexOf_inRange {α : Type} {f : α → String × String} {l : List α} {id : String}
    (h : lastIndexOf id (l.map f).zipIdx = some i) : ∃ a, l[i]? = some a ∧ (f a).1 = id := by
  obtain ⟨e, he, rfl⟩ := Option.map_eq_some_iff.1 h
  obtain ⟨hmem, hid⟩ := mem_filter.1 (mem_of_getLast? he)
  obtain ⟨a, ha, hlabel⟩ := getElem?_of_mem_labelled hmem
  exact ⟨a, ha, by rw [hlabel, of_decide_eq_true hid]⟩

variable {c category : CanonicalCategory}

section New

variable {t : CanonicalTaxonomy} {store : TaxonomyStore}

variable (hwf : t.WellFormed) (h : store.BuiltFrom t)

include hwf

/-- A category is known by its id. -/
lemma CanonicalTaxonomy.WellFormed.eq_of_id {c' : CanonicalCategory} (hc : c ∈ t.categories) (hc' : c' ∈ t.categories)
    (h : c.id = c'.id) : c = c' := by
  obtain ⟨i, hi⟩ := mem_iff_getElem?.1 hc
  obtain ⟨j, hj⟩ := mem_iff_getElem?.1 hc'
  obtain rfl := index_unique hwf.ids hi hj h
  exact Option.some.inj (hi.symm.trans hj)

include h

/-- The positions of the subcategories of a category by their ids. -/
lemma get_subcategoryById (hmem : category ∈ t.categories) :
    store.subcategoryById.get category.id = some (idIndex category.labels) := by
  rw [h.subcategoryById]
  exact Assoc.get_foldl_set (·.id) (fun c => idIndex c.labels) hwf.ids .empty hmem

omit hwf h in
lemma inRange_idIndex (category : CanonicalCategory) : InRange category (idIndex category.labels) := by
  intro id j hget
  obtain ⟨sub, hsub, -⟩ := idIndex_inRange _ category.subcategories id j hget
  exact ⟨sub, hsub⟩

/-- Names, ids and aliases lead to positions of the category they are listed under. -/
lemma subcategoryLookup_values :
    store.subcategoryLookup.Values fun id m => ∃ category ∈ t.categories, category.id = id ∧ InRange category m := by
  have hlabels : (t.categories.foldl (fun (m : Assoc String (Assoc String ℕ)) c =>
      m.set c.id (labelLookup c.labels)) .empty).Values
      fun id m => ∃ category ∈ t.categories, category.id = id ∧ InRange category m := by
    exact Assoc.values_empty.foldl fun m hm category hmem =>
      hm.set ⟨category, hmem, rfl, labelLookup_inRange _ category.subcategories⟩
  rw [h.subcategoryLookup]
  refine hlabels.foldl fun m hm pair _ => ?_
  split
  · rename_i j normalized lookup hid _ hlookup
    obtain ⟨category, hmem, hcategory, hrange⟩ := hm _ _ hlookup
    -- the alias stands for an id of the same category
    rw [← hcategory, get_subcategoryById hwf h hmem, Option.bind_some] at hid
    exact hm.set ⟨category, hmem, hcategory, hrange.setIfAbsent (inRange_idIndex category _ j hid)⟩
  · exact hm

/-- The unknown category and its default subcategory are there. -/
lemma unknown_inRange :
    ∃ category sub, t.categories[store.unknownCategoryIndex]? = some category ∧ category.id = unknownCategoryId ∧
      category.subcategories[store.unknownDefaultSubcategoryIndex]? = some sub := by
  obtain ⟨category, hget, hcategoryId⟩ := lastIndexOf_inRange h.unknown
  have hmem := mem_of_getElem? hget
  rw [h.unknownDefault]
  cases hlast : ((t.categories.filter fun c => c.id = unknownCategoryId).filterMap fun c =>
      lastIndexOf unknownDefaultSubcategoryId c.labels).getLast? with
  | none =>
    obtain ⟨sub, rest, hsubs⟩ := exists_cons_of_ne_nil (hwf.subcategories category hmem)
    exact ⟨category, sub, hget, hcategoryId, by rw [hsubs]; rfl⟩
  | some j =>
    obtain ⟨c, hc, hj⟩ := mem_filterMap.1 (mem_of_getLast? hlast)
    obtain ⟨hc, hcid⟩ := mem_filter.1 hc
    obtain rfl := hwf.eq_of_id hc hmem ((of_decide_eq_true hcid).trans hcategoryId.symm)
    obtain ⟨sub, hsub, -⟩ := lastIndexOf_inRange hj
    exact ⟨c, sub, hget, hcategoryId, hsub⟩

/-- **The maps of a new store.** -/
theorem TaxonomyStore.BuiltFrom.indexed : store.Indexed t where
  toBuiltFrom := h
  byId := by
    intro i category hget
    rw [h.categoryById]
    exact get_idIndex hwf.ids hget
  subById := fun category hmem => ⟨_, get_subcategoryById hwf h hmem, inRange_idIndex category,
    fun _ _ hget => get_idIndex (hwf.subcategoryIds category hmem) hget⟩
  subLookup := by
    intro category hmem m hget
    obtain ⟨c, hc, hid, hrange⟩ := subcategoryLookup_values hwf h _ _ hget
    obtain rfl := hwf.eq_of_id hc hmem hid
    exact hrange
  unknownPair := unknown_inRange hwf h

end New

/-- A taxonomy that passes the check has a store. -/
lemma CanonicalTaxonomy.WellFormed.exists_store (hwf : t.WellFormed) :
    ∃ store, TaxonomyStore.new t = some store := by
  obtain ⟨category, hmem, hid⟩ := hwf.unknown
  obtain ⟨i, hi⟩ := mem_iff_getElem?.1 hmem
  have hlabel : ((category.id, category.name), i) ∈ t.labels := mem_labelled hi
  have hfound : ∃ j, lastIndexOf unknownCategoryId t.labels = some j := by
    have hmem' : ((category.id, category.name), i) ∈ t.labels.filter fun e => e.1.1 = unknownCategoryId :=
      mem_filter.2 ⟨hlabel, decide_eq_true hid⟩
    obtain ⟨e, he⟩ := Option.ne_none_iff_exists'.1 (mt getLast?_eq_none_iff.1 (ne_nil_of_mem hmem'))
    exact ⟨e.2, by rw [lastIndexOf, he, Option.map_some]⟩
  obtain ⟨j, hj⟩ := hfound
  rw [TaxonomyStore.new, hj]
  exact ⟨_, rfl⟩

/-! ### The positions of a pair -/

namespace TaxonomyStore

/-- The positions and the reason that `validate_labels` arrives at before it reads the lists. -/
def labelIndices (s : TaxonomyStore) (category : String) (subcategory : Option String) : ℕ × ℕ × Option FallbackReason :=
  let resolution := s.resolveCategory (trim category) (normalizeLabel (trim category))
  let cleanedSubcategory := (subcategory.map trim).filter (fun v => !v.isEmpty)
  if resolution.1 = s.unknownCategoryIndex then
    (resolution.1, s.unknownDefaultSubcategoryIndex, resolution.2)
  else
    match s.resolveSubcategory resolution.1 cleanedSubcategory (cleanedSubcategory.bind normalizeLabel) with
    | some (.found idx) => (resolution.1, idx, resolution.2)
    | some (.fallback reason) =>
      (s.unknownCategoryIndex, s.unknownDefaultSubcategoryIndex, resolution.2.or (some reason))
    | none => (s.unknownCategoryIndex, s.unknownDefaultSubcategoryIndex, resolution.2.or (some .missingSubcategory))

/-- The maps lead from a label to a subcategory of the category with this id: as its id, its name or an alias. -/
def hasSubcategory (s : TaxonomyStore) (categoryId label : String) : Bool :=
  ((s.subcategoryById.get categoryId).bind (·.get label)).isSome ||
    ((normalizeLabel label).bind fun norm => (s.subcategoryLookup.get categoryId).bind (·.get norm)).isSome

/-- `validate_labels` with every access to a list checked: `none` where the source would panic. -/
def validateLabelsChecked (s : TaxonomyStore) (category : String) (subcategory : Option String) :
    Option ValidatedTaxonomyLabels := do
  let resolution := s.resolveCategory (trim category) (normalizeLabel (trim category))
  -- `resolve_subcategory` reads the category before it looks the subcategory up
  guard (resolution.1 = s.unknownCategoryIndex ∨ resolution.1 < s.taxonomy.categories.length)
  let indices := s.labelIndices category subcategory
  let categoryRef ← s.taxonomy.categories[indices.1]?
  let subcategoryRef ← categoryRef.subcategories[indices.2.1]?
  return { category := categoryRef
           subcategory := subcategoryRef
           fallbackReason := indices.2.2
           normalizedCategory := normalizeLabel (trim category)
           normalizedSubcategory := ((subcategory.map trim).filter (fun v => !v.isEmpty)).bind normalizeLabel }

lemma validateLabels_eq (s : TaxonomyStore) (category : String) (subcategory : Option String) :
    s.validateLabels category subcategory =
      { category := s.categoryByIndex (s.labelIndices category subcategory).1
        subcategory := s.subcategoryByIndex (s.labelIndices category subcategory).1
          (s.labelIndices category subcategory).2.1
        fallbackReason := (s.labelIndices category subcategory).2.2
        normalizedCategory := normalizeLabel (trim category)
        normalizedSubcategory := ((subcategory.map trim).filter (fun v => !v.isEmpty)).bind normalizeLabel } := rfl

/-- A label that is not empty and carries no white space around it is left as it is. -/
lemma cleaned_label (htrim : trim label = label) (hne : label ≠ "") :
    ((some label).map trim).filter (fun v => !v.isEmpty) = some label := by
  rw [Option.map_some, htrim, Option.filter_some, if_pos (by simpa using hne)]

section Indexed

variable {t : CanonicalTaxonomy} {store : TaxonomyStore} (hstore : store.Indexed t)

include hstore

/-- A subcategory that is found is one of the category. -/
lemma Indexed.resolveSubcategory_found (hi : t.categories[i]? = some category)
    (h : store.resolveSubcategory i input normalized = some (.found j)) :
    ∃ sub, category.subcategories[j]? = some sub := by
  have hmem := mem_of_getElem? hi
  obtain ⟨m, hm, hrange, -⟩ := hstore.subById category hmem
  simp only [resolveSubcategory, hstore.categoryByIndex_eq hi, hm, Option.bind_eq_bind, Option.bind_some] at h
  split at h
  · rename_i idx hid
    obtain ⟨id, -, hid⟩ := Option.bind_eq_some_iff.1 hid
    obtain rfl : idx = j := by simpa using h
    exact hrange id idx hid
  · split at h
    · rename_i idx hlookup
      obtain ⟨label, -, hlookup⟩ := Option.bind_eq_some_iff.1 hlookup
      obtain ⟨lookup, hget, hlabel⟩ := Option.bind_eq_some_iff.1 hlookup
      obtain rfl : idx = j := by simpa using h
      exact hstore.subLookup category hmem lookup hget label idx hlabel
    · simp at h

lemma Indexed.resolveSubcategory_label (label : String) (hi : t.categories[i]? = some category) :
    (∃ j, store.resolveSubcategory i (some label) (normalizeLabel label) = some (.found j)) ↔
      store.hasSubcategory category.id label = true := by
  obtain ⟨m, hm, -, -⟩ := hstore.subById category (mem_of_getElem? hi)
  simp only [resolveSubcategory, hasSubcategory, hstore.categoryByIndex_eq hi, hm, Option.bind_eq_bind,
    Option.bind_some]
  cases m.get label with
  | some j => simp
  | none =>
    cases (normalizeLabel label).bind fun norm => (store.subcategoryLookup.get category.id).bind (·.get norm) with
    | some j => simp
    | none => simp

/-- A category that a label names keeps its position beside a subcategory label exactly when it is the unknown one or
has such a subcategory. -/
lemma Indexed.labelIndices_fst_eq_iff {i : ℕ} {category label : String}
    (hresolve : store.resolveCategory (trim category) (normalizeLabel (trim category)) = (i, none))
    (hi : t.categories[i]? = some c) (htrim : trim label = label) (hne : label ≠ "") :
    (store.labelIndices category (some label)).1 = i ↔
      i = store.unknownCategoryIndex ∨ store.hasSubcategory c.id label = true := by
  rw [← hstore.resolveSubcategory_label label hi, labelIndices]
  simp only [hresolve, cleaned_label htrim hne, Option.bind_some]
  by_cases hunknown : i = store.unknownCategoryIndex
  · rw [if_pos hunknown]
    exact iff_of_true rfl (Or.inl hunknown)
  · rw [if_neg hunknown]
    have hother : store.unknownCategoryIndex ≠ i := Ne.symm hunknown
    cases hsub : store.resolveSubcategory i (some label) (normalizeLabel label) with
    | none => simp [hunknown, hother]
    | some resolution => cases resolution <;> simp [hunknown, hother]

/-- The positions are those of the unknown pair, or those of a known category and a subcategory of it. -/
lemma Indexed.labelIndices_cases (category : String) (subcategory : Option String) :
    (∃ reason, store.labelIndices category subcategory =
        (store.unknownCategoryIndex, store.unknownDefaultSubcategoryIndex, reason)) ∨
      ∃ i j c sub, store.labelIndices category subcategory = (i, j, none) ∧ i ≠ store.unknownCategoryIndex ∧
        t.categories[i]? = some c ∧ c.subcategories[j]? = some sub := by
  rw [labelIndices]
  split
  · rename_i hunknown
    rw [hunknown]
    exact Or.inl ⟨_, rfl⟩
  · rename_i hknown
    obtain ⟨i, c, hresolve, hi⟩ | ⟨reason, hresolve⟩ :=
      hstore.resolveCategory_cases (trim category) (normalizeLabel (trim category))
    · rw [hresolve] at hknown ⊢
      split
      · rename_i j hfound
        obtain ⟨sub, hsub⟩ := hstore.resolveSubcategory_found hi hfound
        exact Or.inr ⟨i, j, c, sub, rfl, hknown, hi, hsub⟩
      · exact Or.inl ⟨_, rfl⟩
      · exact Or.inl ⟨_, rfl⟩
    · rw [hresolve] at hknown
      exact absurd rfl hknown

/-- The ids of a pair lead to its own positions, and those of the unknown category to the unknown pair. -/
lemma Indexed.labelIndices_ids (hi : t.categories[i]? = some c)
    (hj : c.subcategories[j]? = some sub) (hc : trim c.id = c.id) (hsub : trim sub.id = sub.id)
    (hne : sub.id ≠ "") :
    store.labelIndices c.id (some sub.id) =
      (i, if i = store.unknownCategoryIndex then store.unknownDefaultSubcategoryIndex else j, none) := by
  have hcategory : store.resolveCategory (trim c.id) (normalizeLabel (trim c.id)) = (i, none) := by
    rw [hc, resolveCategory, hstore.byId i c hi, Option.some_or]
  rw [labelIndices]
  simp only [hcategory, cleaned_label hsub hne]
  split
  · rfl
  · obtain ⟨m, hm, -, hids⟩ := hstore.subById c (mem_of_getElem? hi)
    have hfound : store.resolveSubcategory i (some sub.id) ((some sub.id).bind normalizeLabel) = some (.found j) := by
      simp only [resolveSubcategory, hstore.categoryByIndex_eq hi, hm, Option.bind_eq_bind, Option.bind_some,
        hids j sub hj]
      rfl
    rw [hfound]

/-- Where the positions lead to. -/
lemma Indexed.exists_pair (category : String) (subcategory : Option String) :
    ∃ c sub, t.categories[(store.labelIndices category subcategory).1]? = some c ∧
      c.subcategories[(store.labelIndices category subcategory).2.1]? = some sub ∧
      ((store.labelIndices category subcategory).1 = store.unknownCategoryIndex →
        c.id = unknownCategoryId ∧
          (store.labelIndices category subcategory).2.1 = store.unknownDefaultSubcategoryIndex) ∧
      ((store.labelIndices category subcategory).2.2 ≠ none →
        (store.labelIndices category subcategory).1 = store.unknownCategoryIndex) := by
  obtain ⟨reason, hindices⟩ | ⟨i, j, c, sub, hindices, hknown, hi, hj⟩ :=
    hstore.labelIndices_cases category subcategory
  · obtain ⟨c, sub, hc, hid, hsub⟩ := hstore.unknownPair
    rw [hindices]
    exact ⟨c, sub, hc, hsub, fun _ => ⟨hid, rfl⟩, fun _ => rfl⟩
  · rw [hindices]
    exact ⟨c, sub, hi, hj, fun h => absurd h hknown, fun h => absurd rfl h⟩

/-- **Every access is in range.** -/
lemma Indexed.validateLabelsChecked_eq (category : String) (subcategory : Option String) :
    store.validateLabelsChecked category subcategory = some (store.validateLabels category subcategory) := by
  have hread : (store.resolveCategory (trim category) (normalizeLabel (trim category))).1 = store.unknownCategoryIndex ∨
      (store.resolveCategory (trim category) (normalizeLabel (trim category))).1 < t.categories.length := by
    obtain ⟨i, c, hresolve, hi⟩ | ⟨reason, hresolve⟩ :=
      hstore.resolveCategory_cases (trim category) (normalizeLabel (trim category))
    · rw [hresolve]
      exact Or.inr (List.getElem?_eq_some_iff.1 hi).1
    · rw [hresolve]
      exact Or.inl rfl
  obtain ⟨c, sub, hc, hsub, -, -⟩ := hstore.exists_pair category subcategory
  rw [validateLabels_eq, subcategoryByIndex, hstore.categoryByIndex_eq hc, getD_eq_getElem?_getD, hsub,
    Option.getD_some, validateLabelsChecked]
  simp [guard, hstore.taxonomy, if_pos hread, hc, hsub]

end Indexed

end TaxonomyStore

/-! ### Validated pairs -/

/-- Ids that are not empty and carry no white space around them. -/
structure CanonicalTaxonomy.TrimmedIds (t : CanonicalTaxonomy) : Prop where
  categories : ∀ category ∈ t.categories, category.id ≠ "" ∧ trim category.id = category.id
  subcategories : ∀ category ∈ t.categories, ∀ sub ∈ category.subcategories, sub.id ≠ "" ∧ trim sub.id = sub.id

/-- **Validated pairs** belong to the taxonomy: whatever the labels are, no list is left, the subcategory is one of the
category, a reason is given for the unknown category only, and the ids of the pair stand for the pair itself. -/
theorem validateLabels_sound {t : CanonicalTaxonomy} (hvalid : t.validate = .ok ()) (hids : t.TrimmedIds) :
    ∃ store, TaxonomyStore.new t = some store ∧ ∀ category subcategory,
      let labels := store.validateLabels category subcategory
      let again := store.validateLabels labels.category.id (some labels.subcategory.id)
      store.validateLabelsChecked category subcategory = some labels ∧
      labels.category ∈ t.categories ∧ labels.subcategory ∈ labels.category.subcategories ∧
      (labels.fallbackReason ≠ none → labels.category.id = unknownCategoryId) ∧
      again.category = labels.category ∧ again.subcategory = labels.subcategory ∧ again.fallbackReason = none := by
  have hwf := CanonicalTaxonomy.wellFormed_of_validate hvalid
  obtain ⟨store, hnew⟩ := hwf.exists_store
  have hstore := (TaxonomyStore.builtFrom_of_new hnew).indexed hwf
  refine ⟨store, hnew, fun category subcategory => ?_⟩
  obtain ⟨c, sub, hc, hsub, hunknown, hreason⟩ := hstore.exists_pair category subcategory
  have hchecked := hstore.validateLabelsChecked_eq category subcategory
  rw [TaxonomyStore.validateLabels_eq, TaxonomyStore.subcategoryByIndex, hstore.categoryByIndex_eq hc,
    getD_eq_getElem?_getD, hsub, Option.getD_some] at hchecked ⊢
  generalize store.labelIndices category subcategory = indices at *
  have hcmem := mem_of_getElem? hc
  have hsubmem := mem_of_getElem? hsub
  have hagain := hstore.labelIndices_ids hc hsub (hids.categories c hcmem).2 (hids.subcategories c hcmem sub hsubmem).2
    (hids.subcategories c hcmem sub hsubmem).1
  have hdefault : (if indices.1 = store.unknownCategoryIndex then store.unknownDefaultSubcategoryIndex
      else indices.2.1) = indices.2.1 := by
    split
    · rename_i h
      exact (hunknown h).2.symm
    · rfl
  rw [hdefault] at hagain
  refine ⟨hchecked, hcmem, hsubmem, fun h => (hunknown (hreason h)).1, ?_⟩
  dsimp only
  rw [TaxonomyStore.validateLabels_eq, hagain, TaxonomyStore.subcategoryByIndex, hstore.categoryByIndex_eq hc,
    getD_eq_getElem?_getD, hsub, Option.getD_some]
  exact ⟨rfl, rfl, rfl⟩

/-- The sample taxonomy is such a one. -/
theorem validateLabels_sound_sample : sampleTaxonomy.validate = .ok () ∧ sampleTaxonomy.TrimmedIds ∧
    ∃ store, TaxonomyStore.new sampleTaxonomy = some store ∧
      (store.validateLabels "social-media" none).category.id = unknownCategoryId := by
  have hids : sampleTaxonomy.TrimmedIds := ⟨by decide +kernel, by decide +kernel⟩
  obtain ⟨store, hnew, h⟩ := validateLabels_sound sampleTaxonomy_validate hids
  obtain ⟨-, -, -, hreason, -⟩ := h "social-media" none
  refine ⟨sampleTaxonomy_validate, hids, store, hnew, hreason ?_⟩
  obtain rfl : sampleTaxonomyStore = store := Option.some.inj (sampleTaxonomy_new.symm.trans hnew)
  decide +kernel

end OpenDefender
