import OpenDefender.Taxonomy.Store

/-!
What the label resolver returns: a label that it can place becomes a category of the taxonomy, and the
id of a category is placed at that id again.

The maps of the store send ids, names and aliases to positions in the list of categories. A position
found under an id is that of a category with this id, also where several categories have it.
-/

namespace OpenDefender

open Lib Text List

/-! ### The maps of positions -/

section Maps

variable {α : Type} {f : α → String × String} {l : List α} {i : ℕ} {a : α}

lemma mem_labelled (h : l[i]? = some a) : (f a, i) ∈ (l.map f).zipIdx := by
  rw [mk_mem_zipIdx_iff_getElem?, getElem?_map, h, Option.map_some]

lemma getElem?_of_mem_labelled (h : e ∈ (l.map f).zipIdx) : ∃ a, l[e.2]? = some a ∧ f a = e.1 := by
  have hget := mk_mem_zipIdx_iff_getElem?.1 h
  rwa [getElem?_map, Option.map_eq_some_iff] at hget

/-- The position of an id is that of an entry with this id. -/
lemma idIndex_inRange (f : α → String × String) (l : List α) :
    (idIndex (l.map f).zipIdx).Values fun id i => ∃ a, l[i]? = some a ∧ (f a).1 = id := by
  refine Assoc.values_empty.foldl fun m hm e he => ?_
  obtain ⟨a, ha, hlabel⟩ := getElem?_of_mem_labelled he
  exact hm.set ⟨a, ha, by rw [hlabel]⟩

/-- The position of a label is that of an entry. -/
lemma labelLookup_inRange (f : α → String × String) (l : List α) :
    (labelLookup (l.map f).zipIdx).Values fun _ i => ∃ a, l[i]? = some a := by
  refine Assoc.values_empty.foldl fun m hm e he => ?_
  obtain ⟨a, ha, -⟩ := getElem?_of_mem_labelled he
  cases normalizeLabel e.1.2 with
  | none =>
    cases normalizeLabel e.1.1 with
    | none => exact hm
    | some id => exact hm.setIfAbsent ⟨a, ha⟩
  | some name =>
    cases normalizeLabel e.1.1 with
    | none => exact hm.set ⟨a, ha⟩
    | some id => exact (hm.set ⟨a, ha⟩).setIfAbsent ⟨a, ha⟩

/-- Every id of the list is found. -/
lemma isSome_idIndex (he : e ∈ entries) : ((idIndex entries).get e.1.1).isSome = true := by
  -- once set, a key keeps a value
  have hkeep : ∀ (l : List ((String × String) × ℕ)) (m : Assoc String ℕ),
      (m.get e.1.1).isSome = true ∨ e ∈ l →
        ((l.foldl (fun m e => m.set e.1.1 e.2) m).get e.1.1).isSome = true := by
    intro l
    induction l with
    | nil => exact fun m h => h.resolve_right not_mem_nil
    | cons a l ih =>
      intro m h
      refine ih _ ?_
      by_cases ha : e.1.1 = a.1.1
      · exact Or.inl (by simp [ha])
      · refine h.imp (fun h => by simpa [ha] using h) fun h => ?_
        exact (mem_cons.1 h).resolve_left fun hea => ha (by rw [hea])
  exact hkeep entries .empty (Or.inr he)

end Maps

/-! ### The store of a taxonomy -/

/-- The fields of the store that `new` builds. -/
structure TaxonomyStore.BuiltFrom (t : CanonicalTaxonomy) (store : TaxonomyStore) : Prop where
  taxonomy : store.taxonomy = t
  categoryById : store.categoryById = idIndex t.labels
  categoryLookup : store.categoryLookup = categoryAliasPairs.foldl (fun m pair =>
    match (idIndex t.labels).get pair.2, normalizeLabel pair.1 with
    | some idx, some normalized => m.setIfAbsent normalized idx
    | _, _ => m) (labelLookup t.labels)
  subcategoryById : store.subcategoryById =
    t.categories.foldl (fun m c => m.set c.id (idIndex c.labels)) .empty
  subcategoryLookup : store.subcategoryLookup = subcategoryAliasPairs.foldl (fun m pair =>
    match (store.subcategoryById.get pair.1).bind (·.get pair.2.2), normalizeLabel pair.2.1, m.get pair.1 with
    | some subIdx, some normalized, some lookup => m.set pair.1 (lookup.setIfAbsent normalized subIdx)
    | _, _, _ => m) (t.categories.foldl (fun m c => m.set c.id (labelLookup c.labels)) .empty)
  unknown : lastIndexOf unknownCategoryId t.labels = some store.unknownCategoryIndex
  unknownDefault : store.unknownDefaultSubcategoryIndex =
    ((t.categories.filter fun c => c.id = unknownCategoryId).filterMap fun c =>
      lastIndexOf unknownDefaultSubcategoryId c.labels).getLast?.getD 0

section Resolver

variable {t : CanonicalTaxonomy} {store : TaxonomyStore}

lemma TaxonomyStore.builtFrom_of_new (h : TaxonomyStore.new t = some store) : store.BuiltFrom t := by
  obtain ⟨unknown, hunknown, h⟩ := Option.bind_eq_some_iff.1 h
  cases h
  exact ⟨rfl, rfl, rfl, rfl, rfl, hunknown, rfl⟩

variable (h : store.BuiltFrom t)

include h

/-- A position that the store has for the id of a category is that of a category with this id. -/
lemma TaxonomyStore.BuiltFrom.byId_values :
    store.categoryById.Values fun id i => ∃ category, t.categories[i]? = some category ∧ category.id = id := by
  rw [h.categoryById]
  exact idIndex_inRange (fun c => (c.id, c.name)) t.categories

/-- A position that the store has for a category label is one of the taxonomy. -/
lemma TaxonomyStore.BuiltFrom.lookup_values :
    store.categoryLookup.Values fun _ i => ∃ category, t.categories[i]? = some category := by
  rw [h.categoryLookup]
  refine Assoc.Values.foldl (labelLookup_inRange _ t.categories) fun m hm pair _ => ?_
  split
  · rename_i i _ hid _
    obtain ⟨category, hcategory, -⟩ := idIndex_inRange _ t.categories _ i hid
    exact hm.setIfAbsent ⟨category, hcategory⟩
  · exact hm

lemma TaxonomyStore.BuiltFrom.categoryByIndex_eq (hi : t.categories[i]? = some category) :
    store.categoryByIndex i = category := by
  rw [categoryByIndex, h.taxonomy, getD_eq_getElem?_getD, hi, Option.getD_some]

/-- A label is placed at a category of the taxonomy, or else at the unknown one with a reason. -/
lemma TaxonomyStore.BuiltFrom.resolveCategory_cases (input : String) (normalized : Option String) :
    (∃ i category, store.resolveCategory input normalized = (i, none) ∧ t.categories[i]? = some category) ∨
      ∃ reason, store.resolveCategory input normalized = (store.unknownCategoryIndex, some reason) := by
  rw [resolveCategory]
  cases hfound : (store.categoryById.get input).or (normalized.bind store.categoryLookup.get) with
  | none => exact Or.inr ⟨_, rfl⟩
  | some i =>
    obtain ⟨category, hcategory⟩ : ∃ category, t.categories[i]? = some category := by
      obtain hid | ⟨-, hlookup⟩ := Option.or_eq_some_iff.1 hfound
      · obtain ⟨category, hcategory, -⟩ := h.byId_values _ i hid
        exact ⟨category, hcategory⟩
      · obtain ⟨label, -, hlookup⟩ := Option.bind_eq_some_iff.1 hlookup
        exact h.lookup_values label i hlookup
    exact Or.inl ⟨i, category, rfl, hcategory⟩

/-- **A label that is placed** becomes a category of the taxonomy, at the position the label resolves to. -/
lemma TaxonomyStore.BuiltFrom.exists_placed
    (hplaced : (store.validateCategory label).fallbackReason = none) :
    ∃ i, store.resolveCategory (trim label) (normalizeLabel (trim label)) = (i, none) ∧
      t.categories[i]? = some (store.validateCategory label).category := by
  simp only [validateCategory] at hplaced ⊢
  obtain ⟨i, category, hresolve, hi⟩ | ⟨reason, hresolve⟩ :=
    h.resolveCategory_cases (trim label) (normalizeLabel (trim label))
  · rw [hresolve, h.categoryByIndex_eq hi]
    exact ⟨i, rfl, hi⟩
  · rw [hresolve] at hplaced
    cases hplaced

/-- **The id of a category** without blanks around it is placed at a category with this id. -/
lemma TaxonomyStore.BuiltFrom.validateCategory_id (hmem : category ∈ t.categories)
    (htrim : trim category.id = category.id) :
    (store.validateCategory category.id).fallbackReason = none ∧
      (store.validateCategory category.id).category.id = category.id := by
  obtain ⟨i, hi⟩ := mem_iff_getElem?.1 hmem
  have hlabel : ((category.id, category.name), i) ∈ t.labels := mem_labelled hi
  obtain ⟨j, hj⟩ := Option.isSome_iff_exists.1 (isSome_idIndex hlabel)
  rw [← h.categoryById] at hj
  obtain ⟨found, hfound, hid⟩ := h.byId_values _ j hj
  have hresolve : store.resolveCategory (trim category.id) (normalizeLabel (trim category.id)) = (j, none) := by
    rw [htrim, resolveCategory, hj]
    rfl
  simp only [validateCategory, hresolve, h.categoryByIndex_eq hfound]
  exact ⟨trivial, hid⟩

omit h in
/-- A label is placed, is missing, or is unknown. -/
lemma TaxonomyStore.fallbackReason_validateCategory (store : TaxonomyStore) (label : String) :
    (store.validateCategory label).fallbackReason = none ∨
      (store.validateCategory label).fallbackReason = some .missingCategory ∨
      (store.validateCategory label).fallbackReason = some .unknownCategory := by
  simp only [validateCategory, resolveCategory]
  split
  · exact Or.inl rfl
  · right
    split
    · exact Or.inl rfl
    · exact Or.inr rfl

end Resolver

end OpenDefender
