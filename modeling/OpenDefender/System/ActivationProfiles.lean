import OpenDefender.Admin.Taxonomy

/-!
The activation profiles the admin API stores, and what the engine makes of them.

The admin API and the engine build a profile each from the same rows (`ofRows_states`). A stored profile
has a state for every item of the taxonomy it was stored for (`StoredFor.complete`), so their different
defaults do not show.

* `accepted_and_loaded` follows an update from the check to the engine.
* `reported_eq_engine_iff`: whether the endpoint reports what the engine does.
-/

namespace OpenDefender.System.ActivationProfiles

open Lib Text ExactCover FirstMatch List
open Admin hiding ActivationProfile

/-! ### The entries of an update -/

section Entries

variable {profileId : Uuid} {categoryId : String} {state : Bool} {subcategories : List (String × Bool)}
  {payload : ValidatedActivationPayload}

lemma ids_of_mem_categoryEntries
    (h : entry ∈ categoryEntries profileId categoryId state subcategories) :
    entry.profileId = profileId ∧ entry.categoryId = categoryId := by
  obtain rfl | h := mem_cons.1 h
  · exact ⟨rfl, rfl⟩
  · obtain ⟨sub, -, rfl⟩ := mem_map.1 h
    exact ⟨rfl, rfl⟩

/-- The entry of a subcategory is among those of its category. -/
lemma sub_mem_categoryEntries {α : Type} {items : List α} {item : α} (hitem : item ∈ items)
    (flag : α → String × Bool) :
    { profileId, categoryId, subcategoryId := (flag item).1, enabled := (flag item).2 } ∈
      categoryEntries profileId categoryId state (items.map flag) :=
  mem_cons_of_mem _ (mem_map_of_mem (mem_map_of_mem hitem))

lemma nodup_categoryEntries (hsubs : (subcategories.map Prod.fst).Nodup)
    (hreserved : categorySentinelId ∉ subcategories.map Prod.fst) :
    ((categoryEntries profileId categoryId state subcategories).map fun entry =>
      (entry.categoryId, entry.subcategoryId)).Nodup := by
  have hpairs : (categoryEntries profileId categoryId state subcategories).map
      (fun entry => (entry.categoryId, entry.subcategoryId)) =
      (categorySentinelId :: subcategories.map Prod.fst).map fun id => (categoryId, id) := by
    simp [categoryEntries]
  rw [hpairs]
  exact (nodup_cons.2 ⟨hreserved, hsubs⟩).map fun a b heq => (Prod.mk.inj heq).2

/-- The ids of a checked update differ, and none is the reserved one. -/
structure Distinct (payload : ValidatedActivationPayload) : Prop where
  categories : (payload.categories.map (·.id)).Nodup
  subcategories : ∀ category ∈ payload.categories, (category.subcategories.map (·.id)).Nodup
  reserved : ∀ category ∈ payload.categories,
    categorySentinelId ∉ category.subcategories.map (·.id)

/-- No pair has two entries. -/
lemma Distinct.nodup_payloadEntries (h : Distinct payload) (profileId : Uuid) :
    ((payloadEntries profileId payload).map fun entry =>
      (entry.categoryId, entry.subcategoryId)).Nodup := by
  obtain ⟨version, categories⟩ := payload
  obtain ⟨hids, hsubs, hreserved⟩ := h
  rw [payloadEntries]
  induction categories with
  | nil => simp
  | cons category categories ih =>
    obtain ⟨hnot, hids⟩ := nodup_cons.1 hids
    obtain ⟨hown, hsubs⟩ := forall_mem_cons.1 hsubs
    obtain ⟨hfree, hreserved⟩ := forall_mem_cons.1 hreserved
    have hfst : (category.subcategories.map fun sub => (sub.id, sub.enabled)).map Prod.fst =
        category.subcategories.map (·.id) := by
      simp
    rw [flatMap_cons, map_append, nodup_append']
    refine ⟨nodup_categoryEntries (hfst ▸ hown) (hfst ▸ hfree), ih hids hsubs hreserved, ?_⟩
    intro pair hpair hpair'
    obtain ⟨entry, hentry, rfl⟩ := mem_map.1 hpair
    obtain ⟨entry', hentry', heq⟩ := mem_map.1 hpair'
    obtain ⟨category', hcategory', hentry'⟩ := mem_flatMap.1 hentry'
    -- an entry of a later category has the id of that category
    have hsame : category'.id = category.id := by
      rw [← (ids_of_mem_categoryEntries hentry).2, ← (ids_of_mem_categoryEntries hentry').2]
      exact (Prod.mk.inj heq).1
    exact hnot (mem_map.2 ⟨category', hcategory', hsame⟩)

/-- What the engine reads from the entries of an update: the flags of the update. -/
lemma Distinct.states (h : Distinct payload) (row : ActivationRow) (profileId : Uuid)
    {category : ValidatedActivationCategory} (hcategory : category ∈ payload.categories) :
    (ActivationProfile.ofRows row (payloadEntries profileId payload)).categoryState category.id =
        some category.enabled ∧
      ∀ sub ∈ category.subcategories,
        (ActivationProfile.ofRows row (payloadEntries profileId payload)).subcategoryState
          category.id sub.id = some sub.enabled := by
  have hnodup := h.nodup_payloadEntries profileId
  have hmem (entry : ActivationEntry) (hentry : entry ∈ categoryEntries profileId category.id
      category.enabled (category.subcategories.map fun sub => (sub.id, sub.enabled))) :
      entry ∈ payloadEntries profileId payload :=
    mem_flatMap.2 ⟨category, hcategory, hentry⟩
  refine ⟨?_, fun sub hsub => ?_⟩
  · rw [ActivationProfile.categoryState_ofRows]
    exact stateOf_of_mem hnodup (hmem _ mem_cons_self)
  · have hne : sub.id ≠ categorySentinelId := fun heq =>
      h.reserved category hcategory (heq ▸ mem_map_of_mem hsub)
    rw [ActivationProfile.subcategoryState_ofRows _ _ hne]
    exact stateOf_of_mem hnodup (hmem _ (sub_mem_categoryEntries hsub _))

end Entries

/-! ### An accepted update -/

section Accepted

variable {taxonomy : CanonicalTaxonomy} {payload : ActivationUpdateRequest}
  {validated : ValidatedActivationPayload}

/-- The subcategories that are kept of an input are those of the taxonomy, with the flags of the
input. -/
lemma validateSubcategories_result (hnodup : (category.subcategories.map (·.id)).Nodup)
    (h : validateSubcategories category input = .ok subcategories) :
    subcategories.map (·.id) = category.subcategories.map (·.id) ∧
      ∀ sub ∈ input.subcategories, { id := sub.id, enabled := sub.enabled } ∈ subcategories := by
  rw [validateSubcategories] at h
  refine ⟨map_eq_of_exactCover hnodup h fun sub input validated hcheck => ?_, fun sub hsub => ?_⟩
  · rw [(subcategoryRules_check.1 hcheck).2]
  · obtain ⟨canonical, -, hkey, result, hresult, hcheck⟩ := result_of_input hnodup h hsub
    have hid : canonical.id = sub.id := hkey
    have hkept := (subcategoryRules_check.1 hcheck).2
    rw [hid] at hkept
    exact hkept ▸ hresult

/-- What is kept of an accepted update. -/
lemma validateActivationPayload_result (hunique : UniqueIds taxonomy)
    (h : validateActivationPayload payload taxonomy = .ok validated) :
    validated.categories.map (·.id) = taxonomy.categories.map (·.id) ∧
      (∀ kept ∈ validated.categories, ∃ category ∈ taxonomy.categories, kept.id = category.id ∧
        kept.subcategories.map (·.id) = category.subcategories.map (·.id)) ∧
      ∀ input ∈ payload.categories, ∃ kept ∈ validated.categories, kept.id = input.id ∧
        kept.enabled = input.enabled ∧ ∀ sub ∈ input.subcategories,
          { id := sub.id, enabled := sub.enabled } ∈ kept.subcategories := by
  simp only [validateActivationPayload] at h
  split at h
  · cases h
  obtain ⟨categories, hcover, h⟩ := Outcome.bind_ok.1 h
  cases h
  refine ⟨?_, fun kept hkept => ?_, fun input hinput => ?_⟩
  · refine map_eq_of_exactCover hunique.categories hcover fun category input kept hcheck => ?_
    obtain ⟨-, subcategories, -, rfl⟩ := categoryRules_check.1 hcheck
    rfl
  · obtain ⟨category, hcategory, input, -, hcheck⟩ :=
      input_of_result hunique.categories hcover hkept
    obtain ⟨-, subcategories, hsubs, rfl⟩ := categoryRules_check.1 hcheck
    exact ⟨category, hcategory, rfl,
      (validateSubcategories_result (hunique.subcategories category hcategory) hsubs).1⟩
  · obtain ⟨category, hcategory, hkey, kept, hkept, hcheck⟩ :=
      result_of_input hunique.categories hcover hinput
    obtain ⟨-, subcategories, hsubs, rfl⟩ := categoryRules_check.1 hcheck
    exact ⟨_, hkept, hkey, rfl,
      (validateSubcategories_result (hunique.subcategories category hcategory) hsubs).2⟩

lemma distinct_of_ok (hunique : UniqueIds taxonomy) (hreserved : NoReservedIds taxonomy)
    (h : validateActivationPayload payload taxonomy = .ok validated) : Distinct validated := by
  obtain ⟨hids, hkept, -⟩ := validateActivationPayload_result hunique h
  refine ⟨hids ▸ hunique.categories, fun kept hmem => ?_, fun kept hmem hsentinel => ?_⟩
  · obtain ⟨category, hcategory, -, heq⟩ := hkept kept hmem
    exact heq ▸ hunique.subcategories category hcategory
  · obtain ⟨category, hcategory, -, heq⟩ := hkept kept hmem
    rw [heq] at hsentinel
    obtain ⟨sub, hsub, hid⟩ := mem_map.1 hsentinel
    exact hreserved category hcategory sub hsub hid

/-- The newest profile is still the newest when it is updated at a later time. -/
lemma newestProfile_persist (hids : (tables.profiles.map (·.id)).Nodup)
    (hnewest : tables.newestProfile = some row) (hnow : ∀ r ∈ tables.profiles, r.updatedAt ≤ now) :
    (persistActivationProfile tables row.id validated taxonomy actor now).newestProfile =
      some { row with version := taxonomy.version, updatedBy := some actor, updatedAt := now } := by
  have hmem := mem_of_newest hnewest
  have hown : ∀ r ∈ tables.profiles, r.updatedAt ≠ row.updatedAt → r.id ≠ row.id := by
    rintro r hr hne heq
    exact hne (by rw [inj_on_of_nodup_map hids hr hmem heq])
  refine (newest_map hnewest (fun r hr hne => if_neg (hown r hr hne)) ?_ fun r hr => ?_).trans ?_
  · rw [if_pos rfl]
    exact hnow row hmem
  · rw [if_pos rfl]
    split
    · exact le_rfl
    · exact hnow r hr
  · rw [if_pos rfl]

lemma entriesOf_persist (tables : ActivationTables) (profileId : Uuid)
    (validated : ValidatedActivationPayload) (taxonomy : CanonicalTaxonomy) (actor : String)
    (now : Nat) :
    (persistActivationProfile tables profileId validated taxonomy actor now).entriesOf profileId =
      payloadEntries profileId validated := by
  have hown : ∀ entry ∈ payloadEntries profileId validated, entry.profileId = profileId := by
    intro entry hentry
    obtain ⟨category, -, hmem⟩ := mem_flatMap.1 hentry
    exact (ids_of_mem_categoryEntries hmem).1
  have hkept : (payloadEntries profileId validated).filter
      (fun entry => entry.profileId = profileId) = payloadEntries profileId validated :=
    filter_eq_self.2 fun entry hentry => decide_eq_true (hown entry hentry)
  have hgone : (tables.entries.filter fun entry => entry.profileId ≠ profileId).filter
      (fun entry => entry.profileId = profileId) = [] := by
    rw [filter_filter, filter_eq_nil_iff]
    simp
  simp only [persistActivationProfile, updateProfileRow, ActivationTables.entriesOf,
    filter_append, hkept, hgone, nil_append]

/-- **Accepted updates.** An update is accepted exactly when it covers the taxonomy; once it is
persisted, the engine loads a profile in which every category and every subcategory is as
submitted. -/
theorem accepted_and_loaded (taxonomy : CanonicalTaxonomy) (hunique : UniqueIds taxonomy)
    (hreserved : NoReservedIds taxonomy) (payload : ActivationUpdateRequest) :
    ((∃ validated, validateActivationPayload payload taxonomy = .ok validated) ↔
      CoversTaxonomy taxonomy payload) ∧
    ∀ validated, validateActivationPayload payload taxonomy = .ok validated →
      ∀ (tables : ActivationTables) (row : ProfileRow) (actor : String) (now : Nat),
        (tables.profiles.map (·.id)).Nodup → tables.newestProfile = some row →
        (∀ r ∈ tables.profiles, r.updatedAt ≤ now) →
        ∃ profile, ActivationProfile.loadFromDb
            (persistActivationProfile tables row.id validated taxonomy actor now) = .ok profile ∧
          ∀ input ∈ payload.categories, profile.isEnabled input.id none = input.enabled ∧
            ∀ sub ∈ input.subcategories,
              profile.isEnabled input.id (some sub.id) = sub.enabled := by
  refine ⟨exists_validateActivationPayload_ok hunique payload, ?_⟩
  intro validated hvalidated tables row actor now hids hnewest hnow
  have hdistinct := distinct_of_ok hunique hreserved hvalidated
  obtain ⟨-, -, hinputs⟩ := validateActivationPayload_result hunique hvalidated
  refine ⟨.ofRows { row with version := taxonomy.version, updatedAt := now }
    (payloadEntries row.id validated), ?_, fun input hinput => ?_⟩
  · rw [ActivationProfile.loadFromDb, newestProfile_persist hids hnewest hnow]
    simp only [entriesOf_persist]
  · obtain ⟨kept, hkept, hid, henabled, hsubs⟩ := hinputs input hinput
    obtain ⟨hown, hstates⟩ := hdistinct.states
      { row with version := taxonomy.version, updatedAt := now } row.id hkept
    rw [hid] at hown hstates
    refine ⟨?_, fun sub hsub => ?_⟩
    · rw [ActivationProfile.isEnabled_none, hown, henabled, Option.getD_some]
    · have hsubState := hstates _ (hsubs sub hsub)
      rw [ActivationProfile.isEnabled_some, hsubState, Option.getD_some]

/-- A taxonomy of two categories, the first of which is always on. -/
def lockedTaxonomy : CanonicalTaxonomy :=
  { version := "v1"
    categories :=
      [{ id := unknownCategoryId, name := "Unknown / Unclassified", alwaysEnabled := some true,
         subcategories := [{ id := unknownDefaultSubcategoryId, name := "Insufficient Evidence" }] },
       { id := "social-media", name := "Social Media",
         subcategories := [{ id := "social-networks", name := "Social Networks" }] }] }

lemma lockedTaxonomy_uniqueIds : UniqueIds lockedTaxonomy := by
  refine ⟨by decide, ?_⟩
  decide

lemma lockedTaxonomy_noReservedIds : NoReservedIds lockedTaxonomy :=
  assertNoReservedIds_ok.1 (by decide +kernel)

/-- An update with a flag for each of the two subcategories. -/
def twoFlags (unclassified social : Bool) : ActivationUpdateRequest :=
  { version := " v1"
    categories :=
      [{ id := "social-media", enabled := true,
         subcategories := [{ id := "social-networks", enabled := social }] },
       { id := unknownCategoryId, enabled := true,
         subcategories := [{ id := unknownDefaultSubcategoryId, enabled := unclassified }] }] }

/-- Tables with one profile without entries. -/
def oneProfile : ActivationTables :=
  { profiles := [{ id := 1, version := "v0", updatedAt := 3, updatedBy := none }], entries := [] }

/-- The update that switches social networks off is accepted, and the engine loads it so. -/
theorem social_networks_switched_off :
    ∃ validated profile, validateActivationPayload (twoFlags true false) lockedTaxonomy =
        .ok validated ∧
      ActivationProfile.loadFromDb
        (persistActivationProfile oneProfile 1 validated lockedTaxonomy "admin" 5) = .ok profile ∧
      profile.isEnabled "social-media" none = true ∧
      profile.isEnabled "social-media" (some "social-networks") = false := by
  have hok : (validateActivationPayload (twoFlags true false) lockedTaxonomy).toOption.isSome =
      true := by
    decide +kernel
  obtain ⟨validated, hvalidated⟩ := Option.isSome_iff_exists.1 hok
  have hvalidated := Outcome.toOption_eq_some.1 hvalidated
  obtain ⟨profile, hload, hflags⟩ := (accepted_and_loaded lockedTaxonomy lockedTaxonomy_uniqueIds
    lockedTaxonomy_noReservedIds (twoFlags true false)).2 validated hvalidated oneProfile
    { id := 1, version := "v0", updatedAt := 3, updatedBy := none } "admin" 5 (by decide)
    (by decide) (by decide)
  obtain ⟨hown, hsubs⟩ := hflags
    { id := "social-media", enabled := true,
      subcategories := [{ id := "social-networks", enabled := false }] } mem_cons_self
  exact ⟨validated, profile, hvalidated, hload, hown, hsubs _ mem_cons_self⟩

end Accepted

/-! ### Profiles the admin API has stored -/

/-- The two profiles that are built from the same rows hold the same states. -/
lemma ofRows_states (row : ProfileRow) (entries : List ActivationEntry) :
    (Admin.ActivationProfile.ofRows row entries).categoryStates =
        (ActivationProfile.ofRows row.toActivationRow entries).categoryStates ∧
      (Admin.ActivationProfile.ofRows row entries).subcategoryStates =
        (ActivationProfile.ofRows row.toActivationRow entries).subcategoryStates := by
  induction entries using List.reverseRecOn with
  | nil => exact ⟨rfl, rfl⟩
  | append_singleton entries entry ih =>
    have hadmin : Admin.ActivationProfile.ofRows row (entries ++ [entry]) =
        (Admin.ActivationProfile.ofRows row entries).addEntry entry := by
      rw [Admin.ActivationProfile.ofRows, foldl_append]
      rfl
    rw [hadmin, ActivationProfile.ofRows_concat, Admin.ActivationProfile.addEntry,
      ActivationProfile.addEntry]
    split
    · exact ⟨by rw [ih.1], ih.2⟩
    · exact ⟨ih.1, by rw [ih.2]⟩

/-- The entries of a profile that the admin API has stored for a taxonomy: seeded, persisted from an
accepted update, or synchronized with the taxonomy from what was stored for an earlier one. -/
inductive StoredFor (row : ProfileRow) : CanonicalTaxonomy → List ActivationEntry → Prop where
  | seeded (taxonomy : CanonicalTaxonomy) : StoredFor row taxonomy (seedEntries row.id taxonomy)
  | persisted {taxonomy : CanonicalTaxonomy} {payload : ActivationUpdateRequest}
      {validated : ValidatedActivationPayload}
      (h : validateActivationPayload payload taxonomy = .ok validated) :
      StoredFor row taxonomy (payloadEntries row.id validated)
  | synchronized {earlier : CanonicalTaxonomy} {entries : List ActivationEntry}
      (h : StoredFor row earlier entries) (taxonomy : CanonicalTaxonomy) :
      StoredFor row taxonomy
        (entries ++ missingEntries (Admin.ActivationProfile.ofRows row entries) taxonomy)

/-- Every item of the taxonomy has a state. -/
structure Complete (taxonomy : CanonicalTaxonomy) (entries : List ActivationEntry) : Prop where
  categories : ∀ category ∈ taxonomy.categories,
    (stateOf entries category.id categorySentinelId).isSome = true
  subcategories : ∀ category ∈ taxonomy.categories, ∀ sub ∈ category.subcategories,
    (stateOf entries category.id sub.id).isSome = true

lemma complete_seeded (taxonomy : CanonicalTaxonomy) (profileId : Uuid) :
    Complete taxonomy (seedEntries profileId taxonomy) := by
  refine ⟨fun category hcategory => ?_, fun category hcategory sub hsub => ?_⟩
  · exact stateOf_isSome.2 ⟨_, mem_flatMap.2 ⟨category, hcategory, mem_cons_self⟩, rfl, rfl⟩
  · exact stateOf_isSome.2 ⟨_, mem_flatMap.2 ⟨category, hcategory,
      sub_mem_categoryEntries hsub _⟩, rfl, rfl⟩

variable {taxonomy : CanonicalTaxonomy}

lemma complete_persisted {payload : ActivationUpdateRequest} {validated : ValidatedActivationPayload}
    (hunique : UniqueIds taxonomy) (h : validateActivationPayload payload taxonomy = .ok validated)
    (profileId : Uuid) :
    Complete taxonomy (payloadEntries profileId validated) := by
  obtain ⟨hids, hkept, -⟩ := validateActivationPayload_result hunique h
  -- the part of the update about a category
  have hfind : ∀ category ∈ taxonomy.categories, ∃ kept ∈ validated.categories,
      kept.id = category.id ∧
        kept.subcategories.map (·.id) = category.subcategories.map (·.id) := by
    intro category hcategory
    have hmem : category.id ∈ validated.categories.map (·.id) :=
      hids ▸ mem_map.2 ⟨category, hcategory, rfl⟩
    obtain ⟨kept, hmemKept, hid⟩ := mem_map.1 hmem
    obtain ⟨category', hcategory', hid', hsubs⟩ := hkept kept hmemKept
    obtain rfl : category' = category := inj_on_of_nodup_map hunique.categories hcategory'
      hcategory (hid'.symm.trans hid)
    exact ⟨kept, hmemKept, hid, hsubs⟩
  refine ⟨fun category hcategory => ?_, fun category hcategory sub hsub => ?_⟩
  · obtain ⟨kept, hmemKept, hid, -⟩ := hfind category hcategory
    exact stateOf_isSome.2 ⟨_, mem_flatMap.2 ⟨kept, hmemKept, mem_cons_self⟩, hid, rfl⟩
  · obtain ⟨kept, hmemKept, hid, hsubs⟩ := hfind category hcategory
    have hmem : sub.id ∈ kept.subcategories.map (·.id) := hsubs ▸ mem_map.2 ⟨sub, hsub, rfl⟩
    obtain ⟨keptSub, hkeptSub, hsubid⟩ := mem_map.1 hmem
    exact stateOf_isSome.2 ⟨_, mem_flatMap.2 ⟨kept, hmemKept,
      sub_mem_categoryEntries hkeptSub _⟩, hid, hsubid⟩

section Synchronize

variable {row : ProfileRow} {entries : List ActivationEntry}

/-- The profile in the loop of `synchronize_profile` is that of the entries with the inserts so far. -/
structure InStep (row : ProfileRow) (entries : List ActivationEntry)
    (acc : Admin.ActivationProfile × List ActivationEntry) : Prop where
  categories : acc.1.categoryStates =
    (ActivationProfile.ofRows row.toActivationRow (entries ++ acc.2)).categoryStates
  subcategories : acc.1.subcategoryStates =
    (ActivationProfile.ofRows row.toActivationRow (entries ++ acc.2)).subcategoryStates

/-- What a part of the loop does: it stays in step, adds inserts at the end, and gives the items it has
gone through a state. -/
structure Progress (row : ProfileRow) (entries : List ActivationEntry)
    (acc acc' : Admin.ActivationProfile × List ActivationEntry) (pairs : List (String × String)) :
    Prop where
  inStep : InStep row entries acc'
  extends_ : ∃ more, acc'.2 = acc.2 ++ more
  states : ∀ pair ∈ pairs, (stateOf (entries ++ acc'.2) pair.1 pair.2).isSome = true

lemma isSome_stateOf_append (h : (stateOf entries categoryId subcategoryId).isSome = true) :
    (stateOf (entries ++ more) categoryId subcategoryId).isSome = true := by
  rw [stateOf_append, Option.isSome_or, h, Bool.or_true]

variable {acc : Admin.ActivationProfile × List ActivationEntry}

/-- Two parts of the loop one after the other. -/
lemma Progress.trans (h : Progress row entries acc acc' pairs)
    (h' : Progress row entries acc' acc'' pairs') :
    Progress row entries acc acc'' (pairs ++ pairs') := by
  obtain ⟨more, hmore⟩ := h.extends_
  obtain ⟨more', hmore'⟩ := h'.extends_
  refine ⟨h'.inStep, ⟨more ++ more', by rw [hmore', hmore, append_assoc]⟩, fun pair hpair => ?_⟩
  obtain hpair | hpair := mem_append.1 hpair
  · rw [hmore', ← append_assoc]
    exact isSome_stateOf_append (h.states pair hpair)
  · exact h'.states pair hpair

lemma Progress.refl (h : InStep row entries acc) : Progress row entries acc acc [] :=
  ⟨h, ⟨[], (append_nil _).symm⟩, by simp⟩

/-- A loop of such parts. -/
lemma Progress.foldl {α : Type}
    {step : Admin.ActivationProfile × List ActivationEntry → α →
      Admin.ActivationProfile × List ActivationEntry} {pairs : α → List (String × String)}
    {items : List α}
    (hstep : ∀ acc, ∀ a ∈ items, InStep row entries acc →
      Progress row entries acc (step acc a) (pairs a)) (h : InStep row entries acc) :
    Progress row entries acc (items.foldl step acc) (items.flatMap pairs) := by
  induction items generalizing acc with
  | nil => exact .refl h
  | cons a items ih =>
    have hfirst := hstep acc a mem_cons_self h
    exact hfirst.trans (ih (fun acc a ha => hstep acc a (mem_cons_of_mem _ ha)) hfirst.inStep)

lemma progress_own (h : InStep row entries acc) (category : CanonicalCategory) :
    Progress row entries acc (synchronizeOwn acc category) [(category.id, categorySentinelId)] := by
  have hstate := ActivationProfile.categoryState_ofRows row.toActivationRow (entries ++ acc.2)
    category.id
  rw [ActivationProfile.categoryState, ← h.categories] at hstate
  rw [synchronizeOwn]
  split
  · rename_i hsome
    exact ⟨h, ⟨[], (append_nil _).symm⟩, by simpa [← hstate] using hsome⟩
  · refine ⟨⟨?_, ?_⟩, ⟨_, rfl⟩, ?_⟩
    · simp only [← append_assoc, ActivationProfile.ofRows_concat,
        ActivationProfile.addEntry, if_true]
      rw [h.categories]
    · simp only [← append_assoc, ActivationProfile.ofRows_concat,
        ActivationProfile.addEntry, if_true]
      rw [h.subcategories]
    · simp [← append_assoc, stateOf_append _ [_], stateOf_singleton]

lemma progress_subcategory (h : InStep row entries acc) (categoryId : String)
    (sub : CanonicalSubcategory) (hne : sub.id ≠ categorySentinelId) :
    Progress row entries acc (synchronizeSubcategory categoryId acc sub) [(categoryId, sub.id)] := by
  have hstate : (acc.1.subcategoryStates.get categoryId).bind (·.get sub.id) =
      stateOf (entries ++ acc.2) categoryId sub.id := by
    rw [h.subcategories]
    exact ActivationProfile.subcategoryState_ofRows row.toActivationRow (entries ++ acc.2) hne
  rw [synchronizeSubcategory]
  simp only
  split
  · rename_i hsome
    refine ⟨h, ⟨[], (append_nil _).symm⟩, ?_⟩
    rw [forall_mem_singleton, ← hstate]
    cases hsubs : acc.1.subcategoryStates.get categoryId with
    | none => simp [hsubs] at hsome
    | some subs => simpa [hsubs] using hsome
  · refine ⟨⟨?_, ?_⟩, ⟨_, rfl⟩, ?_⟩
    · simp only [← append_assoc, ActivationProfile.ofRows_concat,
        ActivationProfile.addEntry, if_neg hne]
      rw [h.categories]
    · simp only [← append_assoc, ActivationProfile.ofRows_concat,
        ActivationProfile.addEntry, if_neg hne]
      rw [h.subcategories]
    · simp [← append_assoc, stateOf_append _ [_], stateOf_singleton]

lemma progress_category (h : InStep row entries acc) (category : CanonicalCategory)
    (hreserved : ∀ sub ∈ category.subcategories, sub.id ≠ categorySentinelId) :
    Progress row entries acc (synchronizeCategory acc category)
      ((category.id, categorySentinelId) ::
        category.subcategories.map fun sub => (category.id, sub.id)) := by
  have hown := progress_own h category
  have hsubs : Progress row entries (synchronizeOwn acc category) (synchronizeCategory acc category)
      (category.subcategories.flatMap fun sub => [(category.id, sub.id)]) :=
    Progress.foldl (fun acc' sub hsub hacc =>
      progress_subcategory hacc category.id sub (hreserved sub hsub)) hown.inStep
  have hpairs : (category.subcategories.flatMap fun sub => [(category.id, sub.id)]) =
      category.subcategories.map fun sub => (category.id, sub.id) := by
    rw [← map_eq_flatMap]
  exact hpairs ▸ hown.trans hsubs

/-- After synchronizing every item of the taxonomy has a state. -/
lemma complete_synchronized (hreserved : NoReservedIds taxonomy) (row : ProfileRow)
    (entries : List ActivationEntry) :
    Complete taxonomy
      (entries ++ missingEntries (Admin.ActivationProfile.ofRows row entries) taxonomy) := by
  have hstart : InStep row entries (Admin.ActivationProfile.ofRows row entries, []) := by
    obtain ⟨hcategories, hsubcategories⟩ := ofRows_states row entries
    exact ⟨by rw [append_nil, hcategories], by rw [append_nil, hsubcategories]⟩
  have hloop : Progress row entries (Admin.ActivationProfile.ofRows row entries, [])
      (taxonomy.categories.foldl synchronizeCategory (.ofRows row entries, []))
      (taxonomy.categories.flatMap fun category => (category.id, categorySentinelId) ::
        category.subcategories.map fun sub => (category.id, sub.id)) :=
    Progress.foldl (fun acc' category hcategory hacc =>
      progress_category hacc category (hreserved category hcategory)) hstart
  have hall := hloop.states
  refine ⟨fun category hcategory => ?_, fun category hcategory sub hsub => ?_⟩
  · exact hall (category.id, categorySentinelId)
      (mem_flatMap.2 ⟨category, hcategory, mem_cons_self⟩)
  · exact hall (category.id, sub.id) (mem_flatMap.2 ⟨category, hcategory,
      mem_cons_of_mem _ (mem_map.2 ⟨sub, hsub, rfl⟩)⟩)

end Synchronize

/-- A stored profile has a state for every item of its taxonomy. -/
lemma StoredFor.complete (h : StoredFor row taxonomy entries) (hunique : UniqueIds taxonomy)
    (hreserved : NoReservedIds taxonomy) : Complete taxonomy entries := by
  cases h with
  | seeded => exact complete_seeded taxonomy row.id
  | persisted h => exact complete_persisted hunique h row.id
  | synchronized h => exact complete_synchronized hreserved row _

/-! ### What is reported and what the engine does -/

/-- The endpoint reports an item as the engine has it. -/
structure Reports (profile : Admin.ActivationProfile) (engine : ActivationProfile)
    (category : CanonicalCategory) : Prop where
  own : (mapCategoryResponse profile category).effectiveEnabled = engine.isEnabled category.id none
  subcategories : ∀ sub ∈ category.subcategories,
    (mapSubcategoryResponse category.id (mapCategoryResponse profile category).enabled
      (mapCategoryResponse profile category).locked profile sub).effectiveEnabled =
        engine.isEnabled category.id (some sub.id)

/-- Nothing that the endpoint shows as locked is stored as switched off: no category that is always on,
none of its subcategories, and no subcategory that is always on. -/
structure LockedOn (entries : List ActivationEntry) (category : CanonicalCategory) : Prop where
  own : category.alwaysEnabled.getD false = true →
    stateOf entries category.id categorySentinelId ≠ some false
  subcategories : ∀ sub ∈ category.subcategories,
    category.alwaysEnabled.getD false = true ∨ sub.alwaysEnabled.getD false = true →
      stateOf entries category.id sub.id ≠ some false

/-- **What is reported is what the engine does**, for a stored profile, exactly when nothing locked is
stored as switched off. -/
theorem reported_eq_engine_iff (taxonomy : CanonicalTaxonomy) (hunique : UniqueIds taxonomy)
    (hreserved : NoReservedIds taxonomy) (row : ProfileRow) (entries : List ActivationEntry)
    (hstored : StoredFor row taxonomy entries) :
    (∀ category ∈ taxonomy.categories, Reports (Admin.ActivationProfile.ofRows row entries)
        (.ofRows row.toActivationRow entries) category) ↔
      ∀ category ∈ taxonomy.categories, LockedOn entries category := by
  have hcomplete := hstored.complete hunique hreserved
  obtain ⟨hcategories, hsubcategories⟩ := ofRows_states row entries
  refine forall₂_congr fun category hcategory => ?_
  obtain ⟨state, hstate⟩ := Option.isSome_iff_exists.1 (hcomplete.categories category hcategory)
  have hown : (mapCategoryResponse (.ofRows row entries) category).effectiveEnabled =
      (ActivationProfile.ofRows row.toActivationRow entries).isEnabled category.id none ↔
      (category.alwaysEnabled.getD false = true →
        stateOf entries category.id categorySentinelId ≠ some false) := by
    have hengine := ActivationProfile.categoryState_ofRows row.toActivationRow entries category.id
    rw [hstate] at hengine
    rw [ActivationProfile.isEnabled_none, hengine, hstate, Option.getD_some]
    rw [ActivationProfile.categoryState, ← hcategories] at hengine
    simp only [mapCategoryResponse, Admin.ActivationProfile.categoryEnabled, hengine]
    cases category.alwaysEnabled.getD false <;> cases state <;> simp
  have hsub : ∀ sub ∈ category.subcategories,
      ((mapSubcategoryResponse category.id (mapCategoryResponse (.ofRows row entries) category).enabled
          (mapCategoryResponse (.ofRows row entries) category).locked (.ofRows row entries)
          sub).effectiveEnabled =
        (ActivationProfile.ofRows row.toActivationRow entries).isEnabled category.id (some sub.id) ↔
      (category.alwaysEnabled.getD false = true ∨ sub.alwaysEnabled.getD false = true →
        stateOf entries category.id sub.id ≠ some false)) := by
    intro sub hsub
    obtain ⟨subState, hsubState⟩ := Option.isSome_iff_exists.1
      (hcomplete.subcategories category hcategory sub hsub)
    have hengine : (ActivationProfile.ofRows row.toActivationRow entries).subcategoryState
        category.id sub.id = stateOf entries category.id sub.id :=
      ActivationProfile.subcategoryState_ofRows _ _ (hreserved category hcategory sub hsub)
    rw [hsubState] at hengine
    rw [ActivationProfile.isEnabled_some, hengine, hsubState, Option.getD_some]
    rw [ActivationProfile.subcategoryState, ← hsubcategories] at hengine
    simp only [mapSubcategoryResponse, mapCategoryResponse,
      Admin.ActivationProfile.subcategoryEnabled, hengine, Option.getD_some]
    cases category.alwaysEnabled.getD false <;> cases sub.alwaysEnabled.getD false <;>
      cases subState <;> simp
  constructor
  · rintro ⟨hreportsOwn, hreportsSubs⟩
    exact ⟨hown.1 hreportsOwn, fun sub hmem => (hsub sub hmem).1 (hreportsSubs sub hmem)⟩
  · rintro ⟨hlockedOwn, hlockedSubs⟩
    exact ⟨hown.2 hlockedOwn, fun sub hmem => (hsub sub hmem).2 (hlockedSubs sub hmem)⟩

/-- What the endpoint reports for the subcategories, and what the engine does. -/
def subcategoryFlags (entries : List ActivationEntry) : List (List Bool) × List (List Bool) :=
  let row : ProfileRow := { id := 1, version := "v1", updatedAt := 1, updatedBy := none }
  let engine := ActivationProfile.ofRows row.toActivationRow entries
  (lockedTaxonomy.categories.map fun category =>
      (mapCategoryResponse (.ofRows row entries) category).subcategories.map (·.effectiveEnabled),
    lockedTaxonomy.categories.map fun category => category.subcategories.map fun sub =>
      engine.isEnabled category.id (some sub.id))

/-- An update that switches off a subcategory of the category that is always on is accepted. The
endpoint then reports the subcategory as switched on, and the engine has it switched off. -/
theorem locked_subcategory_reported_on :
    (validateActivationPayload (twoFlags false true) lockedTaxonomy).toOption.map
        (fun validated => subcategoryFlags (payloadEntries 1 validated)) =
      some ([[true], [true]], [[false], [true]]) := by
  decide +kernel

/-- A profile that has just been seeded is reported as the engine has it, a locked category
included. -/
theorem seeded_profile_reported :
    (∃ category ∈ lockedTaxonomy.categories, category.alwaysEnabled = some true) ∧
    ∀ category ∈ lockedTaxonomy.categories, Reports
      (Admin.ActivationProfile.ofRows
        { id := 1, version := "v1", updatedAt := 1, updatedBy := none } (seedEntries 1 lockedTaxonomy))
      (.ofRows { id := 1, version := "v1", updatedAt := 1 } (seedEntries 1 lockedTaxonomy))
      category := by
  refine ⟨by decide +kernel, (reported_eq_engine_iff lockedTaxonomy lockedTaxonomy_uniqueIds
    lockedTaxonomy_noReservedIds { id := 1, version := "v1", updatedAt := 1, updatedBy := none }
    (seedEntries 1 lockedTaxonomy) (.seeded lockedTaxonomy)).2 ?_⟩
  intro category hcategory
  constructor
  · revert category
    decide +kernel
  · revert category
    decide +kernel

end OpenDefender.System.ActivationProfiles
