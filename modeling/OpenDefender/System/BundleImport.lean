import OpenDefender.Admin.ClassificationImport

/-!
What an import of classifications leaves behind (`import_bundle` of `services/admin-api/src/classifications.rs`).

* In mode `replace` the keys to delete are those without a prepared entry. A row that is refused leaves no entry, so
  the classification it names goes: `named_kept_iff`.
* No transaction is around the statements. An error leaves the tables as they were only if the first statement that
  fails comes before every statement that writes: `unchanged_on_error_iff`.

`refused_row_deletes` and `version_fails_after_upsert` are imports in which this matters.
-/

namespace OpenDefender.System.BundleImport

open Admin Lib Lib.Script List

variable {run : ImportRun} {request : ClassificationImportRequest} {taxonomyVersion : String}
  {store s : ClassificationStore} {statement : ImportStatement} {entry : PreparedImportEntry}
  {row : StoredClassification} {rows : List StoredClassification}

/-! ### The statements of the plan -/

/-- The prepared entries of a request. -/
lemma prepared_preparedEntries (run : ImportRun) (request : ClassificationImportRequest) :
    Prepared run.services request.recomputePolicyFields run.actor request.bundle.entries
      (run.preparedEntries request) :=
  prepared_collectEntries (run.hashOrder.perm _)

/-- **Where a statement of the plan comes from.** -/
lemma mem_importPlan (h : statement ∈ importPlan run request store) :
    statement ∈ readPlan request.mode ∨
      (∃ entry ∈ run.preparedEntries request,
        statement ∈ entryPlan ((existingRows store).getD []) entry) ∨
      statement ∈ deletePlan (deletedKeys request.mode (run.preparedEntries request) store) := by
  rw [importPlan, mem_append, mem_append, mem_flatMap] at h
  exact h

lemma mem_entryPlan (h : statement ∈ entryPlan existing entry) :
    statement = .upsert entry ∨ statement = .latestVersion entry ∨ statement = .insertVersion entry ∨
      statement = .clearRequest entry := by
  rw [entryPlan] at h
  split_ifs at h
  · cases h
  · simpa using h

lemma mem_deletePlan {keys : List String} (h : statement ∈ deletePlan keys) :
    statement = .deleteClassifications keys ∨ statement = .deleteRequests keys ∨
      statement = .deletePageContents keys := by
  rw [deletePlan] at h
  split_ifs at h
  · cases h
  · simpa using h

lemma mem_readPlan (h : statement ∈ readPlan mode) :
    statement = .listRows ∨ statement = .listKeys := by
  cases mode with
  | merge => exact Or.inl (mem_singleton.1 h)
  | replace => simpa [readPlan, keyPlan] using h

/-- Only the keys without a prepared entry are deleted. -/
lemma not_mem_deletedKeys (h : entry ∈ prepared) :
    entry.normalizedKey ∉ deletedKeys mode prepared store := by
  cases mode with
  | merge => exact not_mem_nil
  | replace =>
    intro hmem
    exact of_decide_eq_true (mem_filter.1 hmem).2 (mem_map_of_mem h)

/-- The entry of an upsert of the plan. -/
lemma mem_prepared_of_upsert (h : .upsert entry ∈ importPlan run request store) :
    entry ∈ run.preparedEntries request := by
  obtain hread | ⟨other, hother, hplan⟩ | hdelete := mem_importPlan h
  · rcases mem_readPlan hread with h | h <;> cases h
  · rcases mem_entryPlan hplan with h | h | h | h <;> cases h
    exact hother
  · rcases mem_deletePlan hdelete with h | h | h <;> cases h

/-- The keys of a deletion of the plan. -/
lemma keys_of_deleteClassifications {keys : List String} (h : .deleteClassifications keys ∈ importPlan run request store) :
    keys = deletedKeys request.mode (run.preparedEntries request) store := by
  obtain hread | ⟨other, -, hplan⟩ | hdelete := mem_importPlan h
  · rcases mem_readPlan hread with h | h <;> cases h
  · rcases mem_entryPlan hplan with h | h | h | h <;> cases h
  · rcases mem_deletePlan hdelete with h | h | h <;> cases h
    rfl

/-! ### What the statements do to the classifications -/

lemma mem_upsertRows (h : row ∈ upsertRows run taxonomyVersion entry confidence rows) :
    row.normalizedKey = entry.normalizedKey ∨ row ∈ rows := by
  rw [upsertRows] at h
  split at h
  · obtain ⟨old, hold, rfl⟩ := mem_map.1 h
    split_ifs with hkey
    · exact Or.inl hkey
    · exact Or.inr hold
  · rcases mem_append.1 h with h | h
    · exact Or.inr h
    · obtain rfl := mem_singleton.1 h
      exact Or.inl rfl

/-- An upsert keeps the rows that are there: their ids and keys, and the time of their last change or the
present. -/
lemma kept_upsertRows (h : row ∈ rows) :
    ∃ row' ∈ upsertRows run taxonomyVersion entry confidence rows, row'.id = row.id ∧
      row'.normalizedKey = row.normalizedKey ∧
      (row'.updatedAt = row.updatedAt ∨ row'.updatedAt = run.now) := by
  rw [upsertRows]
  split
  · refine ⟨_, mem_map_of_mem h, ?_⟩
    split_ifs
    · exact ⟨rfl, rfl, Or.inr rfl⟩
    · exact ⟨rfl, rfl, Or.inl rfl⟩
  · exact ⟨row, mem_append_left _ h, rfl, rfl, Or.inl rfl⟩

/-- **What a statement keeps.** A row stays, with its id and key, unless its key is deleted. -/
lemma kept_effect (run : ImportRun) (taxonomyVersion : String) (h : row ∈ s.classifications)
    (hkey : ∀ keys, statement = .deleteClassifications keys → row.normalizedKey ∉ keys) :
    ∃ row' ∈ (run.effect taxonomyVersion statement s).classifications, row'.id = row.id ∧
      row'.normalizedKey = row.normalizedKey ∧
      (row'.updatedAt = row.updatedAt ∨ row'.updatedAt = run.now) := by
  cases statement with
  | upsert entry =>
    rw [ImportRun.effect]
    cases numericColumn entry.confidence with
    | none => exact ⟨row, h, rfl, rfl, Or.inl rfl⟩
    | some confidence => exact kept_upsertRows h
  | deleteClassifications keys =>
    refine ⟨row, mem_filter.2 ⟨h, ?_⟩, rfl, rfl, Or.inl rfl⟩
    exact decide_eq_true (hkey keys rfl)
  | clearRequest entry =>
    rw [ImportRun.effect]
    split_ifs <;> exact ⟨row, h, rfl, rfl, Or.inl rfl⟩
  | _ => exact ⟨row, h, rfl, rfl, Or.inl rfl⟩

/-- **What a statement adds.** Every row was there before, up to its columns, or is that of an upsert. -/
lemma origin_effect (h : row ∈ (run.effect taxonomyVersion statement s).classifications) :
    (∃ entry, statement = .upsert entry ∧ row.normalizedKey = entry.normalizedKey) ∨
      row ∈ s.classifications := by
  cases statement with
  | upsert entry =>
    rw [ImportRun.effect] at h
    cases hcolumn : numericColumn entry.confidence with
    | none =>
      rw [hcolumn] at h
      exact Or.inr h
    | some confidence =>
      rw [hcolumn] at h
      rcases mem_upsertRows h with h | h
      · exact Or.inl ⟨entry, rfl, h⟩
      · exact Or.inr h
  | deleteClassifications keys => exact Or.inr (mem_of_mem_filter h)
  | clearRequest entry =>
    rw [ImportRun.effect] at h
    split_ifs at h <;> exact Or.inr h
  | _ => exact Or.inr h

/-! ### Rows that a bundle names -/

/-- The row's key is the canonical key of a row of the bundle. -/
def Named (run : ImportRun) (request : ClassificationImportRequest) (row : StoredClassification) : Prop :=
  ∃ entry ∈ request.bundle.entries, run.services.canonicalizeKey entry.normalizedKey = row.normalizedKey

/-- The row is still there. -/
def Kept (row : StoredClassification) (rows : List StoredClassification) : Prop :=
  ∃ row' ∈ rows, row'.id = row.id ∧ row'.normalizedKey = row.normalizedKey

variable {l : List ImportStatement}

lemma kept_effects (h : Kept row s.classifications)
    (hkey : ∀ keys, .deleteClassifications keys ∈ l → row.normalizedKey ∉ keys) :
    Kept row (effects (run.effect taxonomyVersion) l s).classifications := by
  refine effects_invariant (P := fun t : ClassificationStore => Kept row t.classifications) h fun statement hstatement t ht => ?_
  obtain ⟨row', hrow', hid, hkey'⟩ := ht
  have hkeys : ∀ keys, statement = .deleteClassifications keys → row'.normalizedKey ∉ keys := by
    rintro keys rfl
    rw [hkey']
    exact hkey keys hstatement
  obtain ⟨row'', hrow'', hid', hkey'', -⟩ := kept_effect run taxonomyVersion hrow' hkeys
  exact ⟨row'', hrow'', hid'.trans hid, hkey''.trans hkey'⟩

/-- No row has one of the keys. -/
def NoneOf (keys : List String) (store : ClassificationStore) : Prop :=
  ∀ row ∈ store.classifications, row.normalizedKey ∉ keys

/-- Once the keys are deleted, no statement of the plan brings one back. -/
lemma noneOf_effects (hl : ∀ statement ∈ l, statement ∈ importPlan run request store)
    (h : .deleteClassifications (deletedKeys request.mode (run.preparedEntries request) store) ∈ l) :
    NoneOf (deletedKeys request.mode (run.preparedEntries request) store)
      (effects (run.effect taxonomyVersion) l s) := by
  refine effects_of_mem h ?_ ?_
  · intro t row hrow
    exact of_decide_eq_true (mem_filter.1 hrow).2
  · intro statement hstatement t ht row hrow
    rcases origin_effect hrow with ⟨entry, rfl, hkey⟩ | hrow
    · rw [hkey]
      exact not_mem_deletedKeys (mem_prepared_of_upsert (hl _ hstatement))
    · exact ht row hrow

/-- After a completed import no row has a key that was to be deleted. -/
lemma not_mem_deletedKeys_after
    (h : row ∈ (effects (run.effect taxonomyVersion) (importPlan run request store) s).classifications) :
    row.normalizedKey ∉ deletedKeys request.mode (run.preparedEntries request) store := by
  intro hdeleted
  have hplan : .deleteClassifications (deletedKeys request.mode (run.preparedEntries request) store) ∈
      importPlan run request store := by
    rw [importPlan, deletePlan, if_neg (by simpa using ne_nil_of_mem hdeleted)]
    simp
  exact noneOf_effects (fun _ h => h) hplan row h hdeleted

/-- **What a completed import keeps**: the rows whose key is not deleted. -/
lemma kept_effects_importPlan (hrow : row ∈ store.classifications) :
    Kept row (effects (run.effect taxonomyVersion) (importPlan run request store) store).classifications ↔
      row.normalizedKey ∉ deletedKeys request.mode (run.preparedEntries request) store := by
  constructor
  · rintro ⟨row', hrow', -, hkey⟩
    rw [← hkey]
    exact not_mem_deletedKeys_after hrow'
  · intro hkey
    refine kept_effects ⟨row, hrow, rfl, rfl⟩ fun keys hkeys => ?_
    rw [keys_of_deleteClassifications hkeys]
    exact hkey

lemma mem_deletedKeys_replace (hrow : row ∈ store.classifications) :
    row.normalizedKey ∈ deletedKeys .replace prepared store ↔
      isDomainKey row.normalizedKey = true ∧ ∀ p ∈ prepared, p.normalizedKey ≠ row.normalizedKey := by
  have hmem : row.normalizedKey ∈ store.classifications.map (·.normalizedKey) := mem_map_of_mem hrow
  rw [deletedKeys, mem_filter, domainKeysUnion, mem_dedup, mem_filter, mem_append,
    mem_append]
  simp [hmem]

/-- Which keys have a prepared entry. -/
lemma exists_prepared_iff :
    (∃ p ∈ run.preparedEntries request, p.normalizedKey = key) ↔
      ∃ entry ∈ request.bundle.entries, Importable run.services request.recomputePolicyFields entry ∧
        run.services.canonicalizeKey entry.normalizedKey = key := by
  have hprepared := prepared_preparedEntries run request
  constructor
  · rintro ⟨p, hp, rfl⟩
    obtain ⟨entry, hentry, index, hok⟩ := hprepared.origin p hp
    refine ⟨entry, hentry, (exists_prepareEntry_iff run.actor index).1 ⟨p, hok⟩, ?_⟩
    exact (prepareEntry_ok hok).2.2.1.symm
  · rintro ⟨entry, hentry, himportable, rfl⟩
    exact hprepared.covered entry hentry himportable

/-- **The classifications a bundle names.** An import in mode `replace` keeps all of them exactly if each one of a
domain key is the canonical key of a row that passes the checks; a row that is refused does not protect it. -/
theorem named_kept_iff (run : ImportRun) (request : ClassificationImportRequest)
    (store after : ClassificationStore) (response : ClassificationImportResponse)
    (hmode : request.mode = .replace) (hreal : request.dryRun = false)
    (hrun : importBundle run request store = (.ok response, after)) :
    (∀ row ∈ store.classifications, Named run request row → Kept row after.classifications) ↔
      ∀ row ∈ store.classifications, Named run request row → isDomainKey row.normalizedKey = true →
        ∃ entry ∈ request.bundle.entries, Importable run.services request.recomputePolicyFields entry ∧
          run.services.canonicalizeKey entry.normalizedKey = row.normalizedKey := by
  have hafter : after = effects (run.effect request.bundle.taxonomyVersion) (importPlan run request store)
      store := ((importBundle_follows hreal).of_ok hrun).2
  refine forall₃_congr fun row hrow _ => ?_
  rw [hafter, kept_effects_importPlan hrow, hmode, mem_deletedKeys_replace hrow, not_and,
    ← exists_prepared_iff]
  push Not
  rfl

/-! ### Imports that fail -/

/-- No classification, version or pending request has changed. -/
structure Untouched (store after : ClassificationStore) : Prop where
  classifications : after.classifications = store.classifications
  versions : after.versions = store.versions
  requests : after.requests = store.requests

/-- The statement changes one of these tables. -/
def Writes (store : ClassificationStore) : ImportStatement → Prop
  | .upsert _ | .insertVersion _ => True
  | .clearRequest entry => entry.normalizedKey ∈ requestKeys store.requests
  | .deleteClassifications keys => ∃ row ∈ store.classifications, row.normalizedKey ∈ keys
  | .deleteRequests keys => ∃ key ∈ requestKeys store.requests, key ∈ keys
  | .listRows | .listKeys | .latestVersion _ | .deletePageContents _ => False

lemma Untouched.effect (h : Untouched store t) (hreads : ¬Writes store statement) :
    Untouched store (run.effect taxonomyVersion statement t) := by
  cases statement with
  | upsert entry => exact absurd trivial hreads
  | insertVersion entry => exact absurd trivial hreads
  | clearRequest entry =>
    rw [ImportRun.effect]
    split_ifs
    · exact h
    · refine ⟨h.classifications, h.versions, ?_⟩
      refine (filter_eq_self.2 fun request hrequest => ?_).trans h.requests
      refine decide_eq_true fun heq => hreads ?_
      rw [Writes, ← heq, ← h.requests]
      exact mem_map_of_mem hrequest
  | deleteClassifications keys =>
    have hnone : ∀ row ∈ t.classifications, row.normalizedKey ∉ keys := by
      intro row hrow hkey
      rw [h.classifications] at hrow
      exact hreads ⟨row, hrow, hkey⟩
    refine ⟨?_, ?_, h.requests⟩
    · exact (filter_eq_self.2 fun row hrow => decide_eq_true (hnone row hrow)).trans h.classifications
    · refine (filter_eq_self.2 fun version _ => ?_).trans h.versions
      refine decide_eq_true fun hgone => ?_
      obtain ⟨row, hrow, -⟩ := mem_map.1 hgone
      exact hnone row (mem_of_mem_filter hrow) (of_decide_eq_true (mem_filter.1 hrow).2)
  | deleteRequests keys =>
    refine ⟨h.classifications, h.versions, ?_⟩
    refine (filter_eq_self.2 fun request hrequest => ?_).trans h.requests
    refine decide_eq_true fun hkey => hreads ⟨request.normalizedKey, ?_, hkey⟩
    rw [← h.requests]
    exact mem_map_of_mem hrequest
  | deletePageContents keys => exact ⟨h.classifications, h.versions, h.requests⟩
  | _ => exact h

/-- Statements that write nothing. -/
lemma untouched_effects (h : ∀ statement ∈ l, ¬Writes store statement) :
    Untouched store (effects (run.effect taxonomyVersion) l store) :=
  effects_invariant ⟨rfl, rfl, rfl⟩ fun statement hstatement _ ht => ht.effect (h statement hstatement)

/-- **An upsert stays**: whatever statements of the plan come after it, its row has the time of the import. -/
lemma exists_updated (hl : ∀ statement ∈ l, statement ∈ importPlan run request store) (h : .upsert entry ∈ l)
    (hfails : run.fails store (.upsert entry) = false) :
    ∃ row ∈ (effects (run.effect taxonomyVersion) l s).classifications,
      row.normalizedKey = entry.normalizedKey ∧ row.updatedAt = run.now := by
  refine effects_of_mem (P := fun t : ClassificationStore => ∃ row ∈ t.classifications,
    row.normalizedKey = entry.normalizedKey ∧ row.updatedAt = run.now) h ?_ ?_
  · intro t
    rw [ImportRun.fails, Bool.or_eq_false_iff] at hfails
    obtain ⟨confidence, hcolumn⟩ := Option.isSome_iff_exists.1 (Option.isNone_eq_false_iff.1 hfails.2)
    obtain ⟨row, hrow, -⟩ := storedOf_upsertRows run taxonomyVersion entry confidence t.classifications
    rw [ImportRun.effect, hcolumn]
    exact ⟨_, mem_of_find?_eq_some hrow, by simpa using find?_some hrow, rfl⟩
  · rintro statement hstatement t ⟨row, hrow, hkey, hnow⟩
    have hkeys : ∀ keys, statement = .deleteClassifications keys → row.normalizedKey ∉ keys := by
      rintro keys rfl
      rw [hkey, keys_of_deleteClassifications (hl _ hstatement)]
      exact not_mem_deletedKeys (mem_prepared_of_upsert (hl _ h))
    obtain ⟨row', hrow', -, hkey', htime⟩ := kept_effect run taxonomyVersion hrow hkeys
    exact ⟨row', hrow', hkey'.trans hkey, htime.elim (·.trans hnow) id⟩

/-- No statement adds a request. -/
lemma mem_requests_effect (h : r ∈ (run.effect taxonomyVersion statement s).requests) :
    r ∈ s.requests := by
  cases statement with
  | upsert entry =>
    rw [ImportRun.effect] at h
    split at h <;> exact h
  | clearRequest entry =>
    rw [ImportRun.effect] at h
    split_ifs at h
    · exact h
    · exact mem_of_mem_filter h
  | deleteRequests keys => exact mem_of_mem_filter h
  | _ => exact h

/-- Requests that were deleted do not come back. -/
lemma no_request_effects {keys : List String} (h : .deleteRequests keys ∈ l) :
    ∀ r ∈ (effects (run.effect taxonomyVersion) l s).requests, r.normalizedKey ∉ keys := by
  refine effects_of_mem (P := fun t : ClassificationStore => ∀ r ∈ t.requests, r.normalizedKey ∉ keys) h ?_ ?_
  · intro t r hr
    exact of_decide_eq_true (mem_filter.1 hr).2
  · intro statement _ t ht r hr
    exact ht r (mem_requests_effect hr)

/-- The entries' part of the plan starts with an upsert, if there is one. -/
lemma flatMap_entryPlan (existing : List ExistingClassificationRow) (prepared : List PreparedImportEntry) :
    prepared.flatMap (entryPlan existing) = [] ∨
      ∃ entry rest, prepared.flatMap (entryPlan existing) = .upsert entry :: rest := by
  induction prepared with
  | nil => exact Or.inl rfl
  | cons entry prepared ih =>
    rw [flatMap_cons, entryPlan]
    split_ifs
    · exact ih
    · exact Or.inr ⟨entry, _, rfl⟩

/-- Before the first upsert there are only the queries and the deletions. -/
lemma mem_completed_of_no_upsert (hnone : ∀ entry,
      .upsert entry ∉ completed (run.fails store) (importPlan run request store))
    (h : statement ∈ completed (run.fails store) (importPlan run request store)) :
    statement ∈ readPlan request.mode ∨
      statement ∈ deletePlan (deletedKeys request.mode (run.preparedEntries request) store) := by
  rw [importPlan] at h hnone
  by_cases hread : ∃ i ∈ readPlan request.mode, run.fails store i = true
  · rw [completed_append_of_fails hread] at h
    exact Or.inl (mem_of_mem_completed h)
  · have hread' : ∀ i ∈ readPlan request.mode, run.fails store i = false := fun i hi =>
      Bool.eq_false_iff.2 fun hi' => hread ⟨i, hi, hi'⟩
    rw [completed_append hread'] at h hnone
    rcases mem_append.1 h with h | h
    · exact Or.inl h
    rcases flatMap_entryPlan ((existingRows store).getD []) (run.preparedEntries request) with
      hplan | ⟨entry, rest, hplan⟩
    · rw [hplan, nil_append] at h
      exact Or.inr (mem_of_mem_completed h)
    · rw [hplan, cons_append, completed, takeWhile_cons] at h hnone
      split_ifs at h hnone with hfails
      · exact absurd (mem_append_right _ mem_cons_self) (hnone entry)
      · cases h

/-- **What the completed statements leave.** -/
lemma untouched_completed_iff (hclock : ∀ row ∈ store.classifications, row.updatedAt < run.now) :
    Untouched store (effects (run.effect taxonomyVersion)
        (completed (run.fails store) (importPlan run request store)) store) ↔
      ∀ statement ∈ completed (run.fails store) (importPlan run request store), ¬Writes store statement := by
  refine ⟨fun huntouched => ?_, untouched_effects⟩
  have hplan : ∀ statement ∈ completed (run.fails store) (importPlan run request store),
      statement ∈ importPlan run request store := fun _ h => mem_of_mem_completed h
  -- a completed upsert has left a row with the time of the import
  have hnone : ∀ entry, .upsert entry ∉ completed (run.fails store) (importPlan run request store) := by
    intro entry hentry
    have hfails : run.fails store (.upsert entry) = false := by
      simpa using mem_takeWhile_imp hentry
    obtain ⟨row, hrow, -, hnow⟩ := exists_updated hplan hentry hfails
    rw [huntouched.classifications] at hrow
    exact (hclock row hrow).ne hnow
  intro statement hstatement hwrites
  rcases mem_completed_of_no_upsert hnone hstatement with hread | hdelete
  · rcases mem_readPlan hread with rfl | rfl <;> exact hwrites
  · rcases mem_deletePlan hdelete with rfl | rfl | rfl
    · obtain ⟨row, hrow, hkey⟩ := hwrites
      rw [← huntouched.classifications] at hrow
      exact noneOf_effects hplan hstatement row hrow hkey
    · obtain ⟨key, hkey, hdeleted⟩ := hwrites
      obtain ⟨r, hr, rfl⟩ := mem_map.1 hkey
      rw [← huntouched.requests] at hr
      exact no_request_effects hstatement r hr hdeleted
    · exact hwrites

/-- **Imports that fail.** The classifications, versions and pending requests are as they were whenever an import
answers with an error exactly if no statement fails, or nothing is written before the first one that does. -/
theorem unchanged_on_error_iff (run : ImportRun) (request : ClassificationImportRequest)
    (store : ClassificationStore) (hreal : request.dryRun = false)
    (hclock : ∀ row ∈ store.classifications, row.updatedAt < run.now) :
    (∀ e after, importBundle run request store = (.error e, after) → Untouched store after) ↔
      (∀ statement ∈ importPlan run request store, run.fails store statement = false) ∨
        ∀ statement ∈ completed (run.fails store) (importPlan run request store),
          ¬Writes store statement := by
  have hfollows : Follows _ _ (importBundle run request) store _ := importBundle_follows hreal
  by_cases hfails : ∃ statement ∈ importPlan run request store, run.fails store statement = true
  · obtain ⟨e, hrun⟩ := hfollows.error hfails
    rw [← untouched_completed_iff hclock]
    constructor
    · intro h
      exact Or.inr (h e _ hrun)
    · rintro (hnone | huntouched) e' after herror
      · obtain ⟨statement, hstatement, hfailed⟩ := hfails
        rw [hnone statement hstatement] at hfailed
        cases hfailed
      · obtain ⟨-, rfl⟩ := Prod.mk.inj (hrun.symm.trans herror)
        exact huntouched
  · have hnone : ∀ statement ∈ importPlan run request store, run.fails store statement = false :=
      fun statement hstatement => Bool.eq_false_iff.2 fun hfailed => hfails ⟨statement, hstatement, hfailed⟩
    refine ⟨fun _ => Or.inl hnone, fun _ e after herror => ?_⟩
    obtain ⟨response, hrun⟩ := hfollows.ok hnone
    cases (Prod.mk.inj (hrun.symm.trans herror)).1

/-! ### The domain `example.com` -/

/-- The services of an import. -/
def importServices : ClassificationServices where
  libs := sampleLibs
  canonicalizationPolicy := { tenantDomainExceptions := .empty }
  taxonomyStore := sampleTaxonomyStore
  evaluatePolicyDecision := fun _ => .error "no engine"

/-- An import at time 10 with the failures given, in the order in which the entries were last bound. -/
def importWith (failing : ImportStatement → Option String) : ImportRun where
  services := importServices
  actor := "admin"
  now := 10
  newId := fun _ => 7
  hashOrder := { intoValues := fun m => m.bindings.map Prod.snd, perm := fun _ => List.Perm.refl _ }
  failing := failing

/-- A row of a bundle for `example.com`. -/
def exampleEntry (riskLevel : Option String) : ExchangeEntry where
  normalizedKey := "domain:example.com"
  primaryCategory := "social-media"
  subcategory := "social-networks"
  riskLevel := riskLevel
  recommendedAction := some "Allow"
  confidence := some (1 / 2)
  status := some "active"
  flags := none

/-- A request to import one row as it is. -/
def importOf (mode : ClassificationImportMode) (entry : ExchangeEntry) : ClassificationImportRequest where
  bundle :=
    { schemaVersion := "od-classification-bundle.v1", exportedAt := 9, taxonomyVersion := "sample",
      entries := [entry] }
  mode := mode
  recomputePolicyFields := false
  dryRun := false

/-- `example.com` is classified. -/
def classifiedStore : ClassificationStore where
  classifications :=
    [{ id := 1, normalizedKey := "domain:example.com", taxonomyVersion := some "sample",
       modelVersion := some "manual-edit", primaryCategory := some "social-media",
       subcategory := some "social-networks", riskLevel := some "high", recommendedAction := some "Block",
       confidence := some (9 / 10), sfw := some false, flags := none, ttlSeconds := some 3600,
       status := "active", nextRefreshAt := none, updatedAt := 5 }]
  versions := []
  requests := []
  pageContents := []

/-- The row of a bundle without a risk level is refused, and the classification of its key is deleted. -/
theorem refused_row_deletes :
    (classifiedStore.classifications.map (·.normalizedKey) = ["domain:example.com"] ∧
      importServices.canonicalizeKey (exampleEntry none).normalizedKey = "domain:example.com") ∧
    (importBundle (importWith fun _ => none) (importOf .replace (exampleEntry none)) classifiedStore).1.toOption.map
        (fun response => (response.invalid.map (·.rejection.errorCode), response.replacedDeleted)) =
      some (["missing_risk_level"], 1) ∧
    (importBundle (importWith fun _ => none) (importOf .replace (exampleEntry none))
        classifiedStore).2.classifications.map (·.normalizedKey) = [] := by
  decide +kernel

/-- The same row with a risk level is imported, and the classification stays. -/
theorem named_kept_low :
    ∃ response after,
      importBundle (importWith fun _ => none) (importOf .replace (exampleEntry (some "low"))) classifiedStore =
        (.ok response, after) ∧
      ∀ row ∈ classifiedStore.classifications,
        Named (importWith fun _ => none) (importOf .replace (exampleEntry (some "low"))) row →
          Kept row after.classifications := by
  have hnone : (importPlan (importWith fun _ => none) (importOf .replace (exampleEntry (some "low")))
      classifiedStore).all (fun statement =>
        !(importWith fun _ => none).fails classifiedStore statement) = true := by decide +kernel
  obtain ⟨response, hrun⟩ := (importBundle_follows rfl).ok fun statement hstatement => by
    simpa using all_eq_true.1 hnone statement hstatement
  refine ⟨response, _, hrun, (named_kept_iff _ _ _ _ response rfl rfl hrun).2 ?_⟩
  intro row hrow _ _
  obtain rfl := mem_singleton.1 hrow
  refine ⟨exampleEntry (some "low"), mem_singleton_self _, ?_, by decide +kernel⟩
  exact
    { key := by decide +kernel
      labels := by decide +kernel
      decided := fun h => by cases h
      asIs := fun _ =>
        { action := ⟨"Allow", .allow, rfl, rfl⟩
          riskLevel := ⟨"low", rfl, by decide +kernel⟩
          confidence := ⟨1 / 2, rfl, by norm_num, by norm_num⟩ } }

/-- Nothing is stored yet. -/
def emptyStore : ClassificationStore where
  classifications := []
  versions := []
  requests := []
  pageContents := []

/-- The insertion of the version fails: the import answers with an error, and the classification is stored,
without a version. -/
theorem version_fails_after_upsert :
    let (answer, after) := importBundle
      (importWith fun | .insertVersion _ => some "connection closed" | _ => none)
      (importOf .merge (exampleEntry (some "low"))) emptyStore
    answer.toOption.isNone = true ∧ after.classifications.map (·.normalizedKey) = ["domain:example.com"] ∧
      after.versions.length = 0 := by
  decide +kernel

/-- The query for the keys fails: the import answers with an error, and nothing has changed. -/
theorem unchanged_on_error_listKeys :
    (∀ row ∈ classifiedStore.classifications, row.updatedAt < 10) ∧
    (importBundle (importWith fun | .listKeys => some "connection closed" | _ => none)
      (importOf .replace (exampleEntry (some "low"))) classifiedStore).1.toOption.isNone = true ∧
    ∀ e after, importBundle (importWith fun | .listKeys => some "connection closed" | _ => none)
        (importOf .replace (exampleEntry (some "low"))) classifiedStore = (.error e, after) →
      Untouched classifiedStore after := by
  have hclock : ∀ row ∈ classifiedStore.classifications, row.updatedAt < 10 := by decide
  refine ⟨hclock, by decide +kernel, (unchanged_on_error_iff _ _ _ rfl hclock).2 (Or.inr ?_)⟩
  intro statement hstatement
  obtain rfl : statement = .listRows := mem_singleton.1 hstatement
  exact id

end OpenDefender.System.BundleImport
