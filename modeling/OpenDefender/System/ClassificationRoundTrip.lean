import OpenDefender.System.BundleImport
import OpenDefender.System.ClassificationChange

/-!
An export of the classifications and an import of what was exported, in mode `replace` and without recomputed
policy fields (`export_bundle`, `import_bundle` of `services/admin-api/src/classifications.rs`).

The import canonicalizes keys, and refuses risk levels and confidences that the writers of the table accept.
`bundle_round_trip_iff` says when the table comes back as it was: if each row of a domain key is `Reimportable`.
`update_not_reimported` is a row that `classifications::update` writes and the round trip moves to another key.
-/

namespace OpenDefender.System.ClassificationRoundTrip

open Admin Lib Lib.Script Lib.FirstMatch Text BundleImport ClassificationChange List

variable {run : ImportRun} {store : ClassificationStore} {row : StoredClassification}
  {single : SingleRounding} {texts : DatabaseTexts}

/-! ### The round trip -/

/-- A request to import a bundle as it is, in mode `replace`. -/
def replaceAsIs (bundle : ExchangeBundle) : ClassificationImportRequest where
  bundle := bundle
  mode := .replace
  recomputePolicyFields := false
  dryRun := false

/-- The category, the subcategory, the risk level and the action of a row. -/
def fields (row : StoredClassification) : Option String × Option String × Option String × Option String :=
  (row.primaryCategory, row.subcategory, row.riskLevel, row.recommendedAction)

/-- The same keys, with the same category, subcategory, risk level and action. -/
def SameClassifications (store after : ClassificationStore) : Prop :=
  ∀ key, (storedOf after.classifications key).map fields = (storedOf store.classifications key).map fields

/-- The row holds values that an upsert has bound, the confidence as its column stores it. -/
structure Bound (row : StoredClassification) (values : ClassificationValues) (confidence : ℚ) : Prop where
  column : numericColumn values.confidence = some confidence
  primaryCategory : row.primaryCategory = some values.primaryCategory
  subcategory : row.subcategory = some values.subcategory
  riskLevel : row.riskLevel = some values.riskLevel
  recommendedAction : row.recommendedAction = some values.recommendedAction.display
  confidence : row.confidence = some confidence

/-- The row is as the writers of the table leave it. -/
def Written (row : StoredClassification) : Prop := ∃ values confidence, Bound row values confidence

/-- The taxonomy resolves the labels of the row to themselves. -/
structure Resolved (services : ClassificationServices) (primaryCategory subcategory : String) : Prop where
  known : (services.validateLabels primaryCategory subcategory).fallbackReason = none
  category : (services.validateLabels primaryCategory subcategory).category.id = primaryCategory
  subcategory : (services.validateLabels primaryCategory subcategory).subcategory.id = subcategory

/-- The row comes back from a round trip: its key is canonical and has a host, the taxonomy resolves its labels to
themselves, its risk level is one of the four, and its confidence is between 0 and 1. -/
structure Reimportable (services : ClassificationServices) (row : StoredClassification) : Prop where
  canonical : services.canonicalizeKey row.normalizedKey = row.normalizedKey
  host : (parseNormalizedKey row.normalizedKey).isSome = true
  labels : ∀ primaryCategory ∈ row.primaryCategory, ∀ subcategory ∈ row.subcategory,
    Resolved services primaryCategory subcategory
  riskLevel : ∀ riskLevel ∈ row.riskLevel, isValidRiskLevel riskLevel = true
  confidence : ∀ confidence ∈ row.confidence, 0 ≤ confidence ∧ confidence ≤ 1

/-! ### What is exported -/

/-- The entry of a row that holds the values. -/
def entryOf (single : SingleRounding) (row : StoredClassification) (values : ClassificationValues)
    (confidence : ℚ) : ExchangeEntry where
  normalizedKey := row.normalizedKey
  primaryCategory := values.primaryCategory
  subcategory := values.subcategory
  riskLevel := some values.riskLevel
  recommendedAction := some values.recommendedAction.display
  confidence := some (single.round confidence)
  status := some row.status
  flags := row.flags

variable {values : ClassificationValues}

lemma exportRow_bound (single : SingleRounding) (h : Bound row values confidence) :
    exportRow single row = some (entryOf single row values confidence) := by
  rw [exportRow, h.primaryCategory, h.subcategory, h.riskLevel, h.recommendedAction, h.confidence]
  rfl

lemma mem_exportedRows :
    row ∈ exportedRows texts none store.classifications ↔
      row ∈ store.classifications ∧ isDomainKey row.normalizedKey = true := by
  have hall : Wildcard.like ("%" ++ toAsciiLowercase (trim ((none : Option String).getD "")) ++ "%")
      (texts.lower row.normalizedKey) = true := by
    have hpattern : Wildcard.likeTokens ("%" ++ toAsciiLowercase (trim ((none : Option String).getD "")) ++
        "%").toList = [.any, .any] := by decide
    rw [Wildcard.like, hpattern, Wildcard.accepts_any]
    exact ⟨[], _, rfl, (Wildcard.accepts_any [] _).2 ⟨_, [], (append_nil _).symm, rfl⟩⟩
  rw [exportedRows, sortBy, (perm_insertionSort _ _).mem_iff, mem_filter, Bool.and_eq_true]
  exact ⟨fun h => ⟨h.1, h.2.1⟩, fun h => ⟨h.1, h.2, hall⟩⟩

/-- **What is exported**: the rows of domain keys. -/
lemma exportBundle_written (services : ClassificationServices) (now : ℕ)
    (hwritten : ∀ row ∈ store.classifications, Written row) :
    ∃ bundle, exportBundle services texts single now none store = some bundle ∧
      ∀ entry, entry ∈ bundle.entries ↔ ∃ row ∈ store.classifications,
        isDomainKey row.normalizedKey = true ∧ exportRow single row = some entry := by
  have hreadable : ∀ row ∈ exportedRows texts none store.classifications,
      (exportRow single row).isSome = true := by
    intro row hrow
    obtain ⟨values, confidence, hbound⟩ := hwritten row (mem_exportedRows.1 hrow).1
    rw [exportRow_bound single hbound]
    rfl
  obtain ⟨entries, hentries, hmem⟩ := Table.mapM_some hreadable
  refine ⟨_, by rw [exportBundle, hentries]; rfl, ?_⟩
  intro entry
  rw [hmem]
  simp only [mem_exportedRows, and_assoc]

/-! ### What is made of it -/

lemma abs_round_sub (single : SingleRounding) (h : numericColumn x = some c) :
    |c - single.round c| < 1 / 10000 := by
  rw [abs_sub_comm]
  exact (single.close c (numericColumn_steps h).1).trans (by norm_num)

/-- Rounding takes no confidence of the column across 0 or 1. -/
lemma round_mem_unit_iff (single : SingleRounding) (h : numericColumn x = some c) :
    (0 ≤ single.round c ∧ single.round c ≤ 1) ↔ (0 ≤ c ∧ c ≤ 1) := by
  obtain ⟨hsmall, k, hk⟩ := numericColumn_steps h
  have hclose := abs_lt.1 (single.close c hsmall)
  constructor
  · rintro ⟨h0, h1⟩
    rw [hk] at hclose h0 h1 ⊢
    have hlow : (-1 : ℤ) < k := by exact_mod_cast (by linarith [hclose.1] : (-1 : ℚ) < k)
    have hhigh : k < (10001 : ℤ) := by exact_mod_cast (by linarith [hclose.2] : (k : ℚ) < 10001)
    have hge : (0 : ℚ) ≤ k := by exact_mod_cast (by omega : (0 : ℤ) ≤ k)
    have hle : (k : ℚ) ≤ 10000 := by exact_mod_cast (by omega : k ≤ (10000 : ℤ))
    exact ⟨by positivity, by linarith⟩
  · rintro ⟨h0, h1⟩
    have hlow := single.monotone h0
    have hhigh := single.monotone h1
    rw [single.round_zero] at hlow
    rw [single.round_one] at hhigh
    exact ⟨hlow, hhigh⟩

/-- The entry that is prepared of a row. -/
structure PreparedOf (services : ClassificationServices) (single : SingleRounding)
    (row : StoredClassification) (p : PreparedImportEntry) : Prop where
  key : p.normalizedKey = services.canonicalizeKey row.normalizedKey
  host : (parseNormalizedKey row.normalizedKey).isSome = true
  columns : ∃ values confidence, Bound row values confidence ∧
    (services.validateLabels values.primaryCategory values.subcategory).fallbackReason = none ∧
    p.primaryCategory = (services.validateLabels values.primaryCategory values.subcategory).category.id ∧
    p.subcategory = (services.validateLabels values.primaryCategory values.subcategory).subcategory.id ∧
    p.riskLevel = toAsciiLowercase (trim values.riskLevel) ∧ isValidRiskLevel p.riskLevel = true ∧
    p.recommendedAction = values.recommendedAction ∧
    p.confidence = single.round confidence ∧ 0 ≤ p.confidence ∧ p.confidence ≤ 1

variable {services : ClassificationServices}

lemma preparedOf_prepareEntry (hwritten : Written row) (hentry : exportRow single row = some entry)
    (hok : prepareEntry services false actor index entry = .ok p) :
    PreparedOf services single row p := by
  obtain ⟨values, confidence, hbound⟩ := hwritten
  obtain rfl := Option.some.inj (hentry.symm.trans (exportRow_bound single hbound))
  obtain ⟨hparse, hlabels, hkey, hcategory, hsubcategory, hfields⟩ := prepareEntry_ok hok
  obtain ⟨haction, hrisk, hconfidence⟩ := policyFieldsAsIs_ok hfields
  obtain ⟨text, htext, hdisplay⟩ := actionAsIs_ok haction
  obtain ⟨level, hlevel, hlower, hvalid⟩ := riskLevelAsIs_ok hrisk
  obtain ⟨hvalue, hrange⟩ := confidenceAsIs_ok hconfidence
  cases htext
  cases hlevel
  rw [PolicyAction.ofDisplay_display] at hdisplay
  exact
    { key := hkey
      host := hparse
      columns := ⟨values, confidence, hbound, hlabels, hcategory, hsubcategory, hlower, hvalid,
        (Option.some.inj hdisplay).symm, (Option.some.inj hvalue).symm, hrange⟩ }

section RoundTrip

variable {bundle : ExchangeBundle} {p : PreparedImportEntry}

/-- The bundle holds the rows of domain keys. -/
def Exports (single : SingleRounding) (store : ClassificationStore) (bundle : ExchangeBundle) : Prop :=
  ∀ entry, entry ∈ bundle.entries ↔ ∃ row ∈ store.classifications,
    isDomainKey row.normalizedKey = true ∧ exportRow single row = some entry

/-- A table that its writers left, and the bundle of it. -/
structure Exported (single : SingleRounding) (store : ClassificationStore) (bundle : ExchangeBundle) : Prop where
  exports : Exports single store bundle
  written : ∀ row ∈ store.classifications, Written row
  unique : Table.Unique (·.normalizedKey) store.classifications

lemma exists_row_of_prepared (h : Exported single store bundle)
    (hp : p ∈ run.preparedEntries (replaceAsIs bundle)) :
    ∃ row ∈ store.classifications, isDomainKey row.normalizedKey = true ∧
      PreparedOf run.services single row p := by
  obtain ⟨entry, hentry, index, hok⟩ := (prepared_preparedEntries run (replaceAsIs bundle)).origin p hp
  obtain ⟨row, hrow, hdomain, hexport⟩ := (h.exports entry).1 hentry
  exact ⟨row, hrow, hdomain, preparedOf_prepareEntry (h.written row hrow) hexport hok⟩

lemma existingRow_bound (h : Bound row values confidence) :
    existingRow row = some
      { normalizedKey := row.normalizedKey
        primaryCategory := values.primaryCategory
        subcategory := values.subcategory
        riskLevel := values.riskLevel
        recommendedAction := values.recommendedAction.display
        confidence } := by
  rw [existingRow, h.primaryCategory, h.subcategory, h.riskLevel, h.recommendedAction, h.confidence]
  rfl

lemma normalizedKey_existingRow (h : existingRow row = some existing) :
    existing.normalizedKey = row.normalizedKey := by
  simp only [existingRow, Option.bind_eq_bind, Option.bind_eq_some_iff] at h
  obtain ⟨_, -, _, -, _, -, _, -, _, -, h⟩ := h
  rw [← Option.some.inj h]

/-- What the import reads of a table that the writers left. -/
lemma existingRows_written (hwritten : ∀ row ∈ store.classifications, Written row) :
    ∃ existing, existingRows store = some existing ∧ ∀ e, e ∈ existing ↔ ∃ row ∈ store.classifications,
      isDomainKey row.normalizedKey = true ∧ existingRow row = some e := by
  have hreadable : ∀ row ∈ store.classifications.filter fun row => isDomainKey row.normalizedKey,
      (existingRow row).isSome = true := by
    intro row hrow
    obtain ⟨values, confidence, hbound⟩ := hwritten row (mem_of_mem_filter hrow)
    rw [existingRow_bound hbound]
    rfl
  obtain ⟨existing, hexisting, hmem⟩ := Table.mapM_some hreadable
  refine ⟨existing, hexisting, fun e => ?_⟩
  rw [hmem]
  simp only [mem_filter, and_assoc]

/-- Nothing fails. -/
lemma fails_eq_false (hworks : ∀ statement, run.failing statement = none) (h : Exported single store bundle) :
    ∀ statement ∈ importPlan run (replaceAsIs bundle) store, run.fails store statement = false := by
  intro statement hstatement
  cases statement with
  | listRows =>
    obtain ⟨existing, hexisting, -⟩ := existingRows_written h.written
    rw [ImportRun.fails, hworks, hexisting]
    rfl
  | upsert p =>
    obtain ⟨row, -, -, hprepared⟩ := exists_row_of_prepared h (mem_prepared_of_upsert hstatement)
    obtain ⟨_, _, -, -, -, -, -, -, -, -, h0, h1⟩ := hprepared.columns
    rw [ImportRun.fails, hworks, Option.isNone_eq_false_iff.2 (isSome_numericColumn h0 h1)]
    rfl
  | clearRequest p => rfl
  | _ => rw [ImportRun.fails, hworks, Option.isSome_none] <;> simp

/-! ### Tables that come back -/

lemma lower_trim_of_valid (h : isValidRiskLevel riskLevel = true) :
    toAsciiLowercase (trim riskLevel) = riskLevel := by
  rcases of_decide_eq_true h with rfl | rfl | rfl | rfl <;> decide

/-- The entry of a row that comes back is the same as the row. -/
lemma isSameClassification_of_reimportable (hrow : Reimportable run.services row)
    (hexisting : existingRow row = some existing) (hp : PreparedOf run.services single row p) :
    isSameClassification existing p = true := by
  obtain ⟨values, confidence, hbound, -, hcategory, hsubcategory, hrisk, -, haction, hconfidence, -⟩ :=
    hp.columns
  obtain rfl := Option.some.inj (hexisting.symm.trans (existingRow_bound hbound))
  have hlabels := hrow.labels _ hbound.primaryCategory _ hbound.subcategory
  have hvalid := hrow.riskLevel _ hbound.riskLevel
  refine decide_eq_true ⟨?_, ?_, ?_, ?_, ?_⟩
  · rw [hcategory, hlabels.category]
  · rw [hsubcategory, hlabels.subcategory]
  · rw [hrisk, lower_trim_of_valid hvalid]
  · rw [haction]
  · rw [hconfidence]
    exact abs_round_sub single hbound.column

/-- The import finds the row of a domain key. -/
lemma find?_existing (h : Exported single store bundle) (hrow : row ∈ store.classifications)
    (hdomain : isDomainKey row.normalizedKey = true) :
    ∃ existing, existingRow row = some existing ∧
      (((existingRows store).getD []).find? fun e => e.normalizedKey = row.normalizedKey) = some existing := by
  obtain ⟨existing, hexisting, hmem⟩ := existingRows_written h.written
  obtain ⟨values, confidence, hbound⟩ := h.written row hrow
  rw [hexisting, Option.getD_some]
  cases hfind : existing.find? fun e => e.normalizedKey = row.normalizedKey with
  | none =>
    have hnone := find?_eq_none.1 hfind _ ((hmem _).2 ⟨row, hrow, hdomain, existingRow_bound hbound⟩)
    simp at hnone
  | some found =>
    obtain ⟨row', hrow', -, hfound⟩ := (hmem found).1 (mem_of_find?_eq_some hfind)
    have hkey : found.normalizedKey = row.normalizedKey := by simpa using find?_some hfind
    have hkey' : row'.normalizedKey = row.normalizedKey := (normalizedKey_existingRow hfound).symm.trans hkey
    obtain rfl := h.unique.eq hrow' hrow hkey'
    exact ⟨found, hfound, rfl⟩

/-- The rows that come back are skipped. -/
lemma entryChange_eq_skipped (h : Exported single store bundle)
    (hall : ∀ row ∈ store.classifications, isDomainKey row.normalizedKey = true →
      Reimportable run.services row)
    (hp : p ∈ run.preparedEntries (replaceAsIs bundle)) :
    entryChange ((existingRows store).getD []) p = .skipped := by
  obtain ⟨row, hrow, hdomain, hprepared⟩ := exists_row_of_prepared h hp
  obtain ⟨existing, hexisting, hfind⟩ := find?_existing h hrow hdomain
  have hreimportable := hall row hrow hdomain
  rw [entryChange, hprepared.key, hreimportable.canonical, hfind]
  exact if_pos (isSameClassification_of_reimportable hreimportable hexisting hprepared)

/-- A row that comes back passes the checks. -/
lemma importable_of_reimportable (hwritten : Written row)
    (hentry : exportRow single row = some entry) (hrow : Reimportable run.services row) :
    Importable run.services false entry := by
  obtain ⟨values, confidence, hbound⟩ := hwritten
  obtain rfl := Option.some.inj (hentry.symm.trans (exportRow_bound single hbound))
  have hvalid := hrow.riskLevel _ hbound.riskLevel
  refine ⟨hrow.host, (hrow.labels _ hbound.primaryCategory _ hbound.subcategory).known, ?_, fun _ => ?_⟩
  · intro h
    cases h
  · refine ⟨⟨_, values.recommendedAction, rfl, PolicyAction.ofDisplay_display _⟩, ⟨_, rfl, ?_⟩, ⟨_, rfl, ?_⟩⟩
    · rw [lower_trim_of_valid hvalid]
      exact hvalid
    · exact (round_mem_unit_iff single hbound.column).2 (hrow.confidence _ hbound.confidence)

/-- The store after the statements of the import. -/
def reimported (run : ImportRun) (taxonomyVersion : String) (bundle : ExchangeBundle) (store : ClassificationStore) :
    ClassificationStore :=
  effects (run.effect taxonomyVersion) (importPlan run (replaceAsIs bundle) store) store

/-- **If every row of a domain key comes back, no classification changes.** -/
lemma classifications_reimported (taxonomyVersion : String) (h : Exported single store bundle)
    (hall : ∀ row ∈ store.classifications, isDomainKey row.normalizedKey = true →
      Reimportable run.services row) :
    (reimported run taxonomyVersion bundle store).classifications = store.classifications := by
  have hkept : ∀ row ∈ store.classifications,
      row.normalizedKey ∉ deletedKeys .replace (run.preparedEntries (replaceAsIs bundle)) store := by
    intro row hrow hdeleted
    obtain ⟨hdomain, hnone⟩ := (mem_deletedKeys_replace hrow).1 hdeleted
    obtain ⟨values, confidence, hbound⟩ := h.written row hrow
    have hexport := exportRow_bound single hbound
    have hreimportable := hall row hrow hdomain
    obtain ⟨p, hp, hkey⟩ := (prepared_preparedEntries run (replaceAsIs bundle)).covered _
      ((h.exports _).2 ⟨row, hrow, hdomain, hexport⟩)
      (importable_of_reimportable ⟨values, confidence, hbound⟩ hexport hreimportable)
    exact hnone p hp (hkey.trans hreimportable.canonical)
  refine effects_invariant (P := fun t : ClassificationStore => t.classifications = store.classifications) rfl ?_
  intro statement hstatement t ht
  obtain hread | ⟨p, hp, hplan⟩ | hdelete := mem_importPlan hstatement
  · rcases mem_readPlan hread with rfl | rfl <;> exact ht
  · rw [entryPlan, if_pos (entryChange_eq_skipped h hall hp)] at hplan
    cases hplan
  · rcases mem_deletePlan hdelete with rfl | rfl | rfl
    · refine (filter_eq_self.2 fun row hrow => ?_).trans ht
      exact decide_eq_true (hkept row (ht ▸ hrow))
    · exact ht
    · exact ht

/-! ### Tables that change -/

/-- The length of a key, where a key in lower case is smaller than others of its length. -/
def keySize (key : String) : ℕ := 2 * key.length + if toAsciiLowercase key = key then 0 else 1

/-- Canonicalizing makes a domain key smaller, or leaves it alone. -/
lemma keySize_canonicalizeKey (hlibs : services.libs.LawfulRoot) (hdomain : isDomainKey key = true)
    (hmoved : services.canonicalizeKey key ≠ key) :
    keySize (services.canonicalizeKey key) < keySize key := by
  obtain ⟨raw, rfl⟩ := isDomainKey_iff.1 hdomain
  rw [ClassificationServices.canonicalizeKey] at hmoved ⊢
  cases hcanonical : canonicalClassificationKeyWithPolicy services.libs ("domain:" ++ raw)
      services.canonicalizationPolicy none with
  | none =>
    rw [hcanonical] at hmoved
    exact absurd rfl hmoved
  | some canonical =>
    rw [hcanonical, Option.getD_some] at hmoved
    rw [Option.getD_some, keySize, keySize]
    obtain ⟨hlower, hsame | hshort⟩ := canonicalKey_shrinks hlibs hcanonical
    · rw [if_pos hlower, if_neg (hsame ▸ hmoved), hsame, length_toAsciiLowercase]
      omega
    · rw [if_pos hlower]
      omega

/-- What the round trip leaves of a row. -/
lemma exists_row_after {after : ClassificationStore} (hsame : SameClassifications store after)
    (hunique : Table.Unique (·.normalizedKey) store.classifications) (hrow : row ∈ store.classifications) :
    ∃ row' ∈ after.classifications, row'.normalizedKey = row.normalizedKey ∧ fields row' = fields row := by
  have hstored : storedOf store.classifications row.normalizedKey = some row := hunique.find?_key hrow
  have hafter := hsame row.normalizedKey
  rw [hstored, Option.map_some] at hafter
  obtain ⟨row', hrow', hfields⟩ := Option.map_eq_some_iff.1 hafter
  exact ⟨row', mem_of_find?_eq_some hrow', by simpa using find?_some hrow', hfields⟩

variable {taxonomyVersion : String}

/-- **If no key is lost, every domain key is canonical**, since otherwise the canonical keys, which are smaller,
would not fill all the places. -/
lemma canonical_of_same (hlibs : run.services.libs.LawfulRoot) (h : Exported single store bundle)
    (hsame : SameClassifications store (reimported run taxonomyVersion bundle store)) :
    ∀ row ∈ store.classifications, isDomainKey row.normalizedKey = true →
      run.services.canonicalizeKey row.normalizedKey = row.normalizedKey ∧
        ∃ p ∈ run.preparedEntries (replaceAsIs bundle), PreparedOf run.services single row p := by
  have horigin : ∀ row ∈ store.classifications, isDomainKey row.normalizedKey = true →
      ∃ row' ∈ store.classifications, isDomainKey row'.normalizedKey = true ∧
        run.services.canonicalizeKey row'.normalizedKey = row.normalizedKey ∧
        ∃ p ∈ run.preparedEntries (replaceAsIs bundle), PreparedOf run.services single row' p := by
    intro row hrow hdomain
    obtain ⟨row', hrow', hkey, -⟩ := exists_row_after hsame h.unique hrow
    have hdeleted : row.normalizedKey ∉
        deletedKeys .replace (run.preparedEntries (replaceAsIs bundle)) store := by
      rw [← hkey]
      exact not_mem_deletedKeys_after hrow'
    rw [mem_deletedKeys_replace hrow] at hdeleted
    push Not at hdeleted
    obtain ⟨p, hp, hpkey⟩ := hdeleted hdomain
    obtain ⟨origin, horigin, hdomain', hprepared⟩ := exists_row_of_prepared h hp
    exact ⟨origin, horigin, hdomain', hprepared.key.symm.trans hpkey, p, hp, hprepared⟩
  have hfixed : ∀ key ∈ (store.classifications.map (·.normalizedKey)).filter isDomainKey,
      run.services.canonicalizeKey key = key := by
    refine Table.fixed_of_onto keySize ?_ ?_
    · intro key hkey
      exact keySize_canonicalizeKey hlibs (mem_filter.1 hkey).2
    · intro key hkey
      obtain ⟨hmem, hdomain⟩ := mem_filter.1 hkey
      obtain ⟨row, hrow, rfl⟩ := mem_map.1 hmem
      obtain ⟨row', hrow', hdomain', hcanonical, -⟩ := horigin row hrow hdomain
      exact ⟨row'.normalizedKey, mem_filter.2 ⟨mem_map_of_mem hrow', hdomain'⟩, hcanonical⟩
  have hcanonical : ∀ row ∈ store.classifications, isDomainKey row.normalizedKey = true →
      run.services.canonicalizeKey row.normalizedKey = row.normalizedKey := fun row hrow hdomain =>
    hfixed _ (mem_filter.2 ⟨mem_map_of_mem hrow, hdomain⟩)
  intro row hrow hdomain
  obtain ⟨row', hrow', hdomain', hkey, p, hp, hprepared⟩ := horigin row hrow hdomain
  obtain rfl := h.unique.eq hrow' hrow ((hcanonical row' hrow' hdomain').symm.trans hkey)
  exact ⟨hcanonical row' hrow hdomain, p, hp, hprepared⟩

/-- The fields of an entry as a row has them. -/
def entryFields (p : PreparedImportEntry) : Option String × Option String × Option String × Option String :=
  (some p.primaryCategory, some p.subcategory, some p.riskLevel, some p.recommendedAction.display)

/-- After its upsert the row of a key has the fields of the entry. -/
lemma fields_upsertRows (h : row ∈ upsertRows run taxonomyVersion p confidence rows)
    (hkey : row.normalizedKey = p.normalizedKey) : fields row = entryFields p := by
  rw [upsertRows] at h
  split at h
  · obtain ⟨old, -, rfl⟩ := mem_map.1 h
    split_ifs with hold
    · rfl
    · rw [if_neg hold] at hkey
      exact absurd hkey hold
  · rename_i hnone
    rcases mem_append.1 h with h | h
    · exact absurd hkey (by simpa using find?_eq_none.1 hnone row h)
    · obtain rfl := mem_singleton.1 h
      rfl

/-- **An upsert of the plan stands in the end.** -/
lemma fields_effects (h : .upsert p ∈ importPlan run request store)
    (hfails : run.fails store (.upsert p) = false)
    (hrow : row ∈ (effects (run.effect taxonomyVersion) (importPlan run request store) s).classifications)
    (hkey : row.normalizedKey = p.normalizedKey) : fields row = entryFields p := by
  have hdone : ∀ t, ∀ row ∈ (run.effect taxonomyVersion (.upsert p) t).classifications,
      row.normalizedKey = p.normalizedKey → fields row = entryFields p := by
    intro t row hrow
    rw [ImportRun.fails, Bool.or_eq_false_iff] at hfails
    obtain ⟨confidence, hcolumn⟩ := Option.isSome_iff_exists.1 (Option.isNone_eq_false_iff.1 hfails.2)
    rw [ImportRun.effect, hcolumn] at hrow
    exact fields_upsertRows hrow
  refine effects_of_mem (P := fun t : ClassificationStore => ∀ row ∈ t.classifications,
    row.normalizedKey = p.normalizedKey → fields row = entryFields p) h hdone ?_ row hrow hkey
  intro statement hstatement t ht row hrow hkey
  rcases origin_effect hrow with ⟨other, rfl, hother⟩ | hrow
  · -- the only upsert of the key is that of the entry
    have hsame : other = p := (prepared_preparedEntries run request).distinct.eq
      (mem_prepared_of_upsert hstatement) (mem_prepared_of_upsert h) (hother.symm.trans hkey)
    exact hdone t row (hsame ▸ hrow) hkey
  · exact ht row hrow hkey

/-- If nothing changes, a row has the fields of the entry that is prepared of it. -/
lemma fields_eq_entryFields (hworks : ∀ statement, run.failing statement = none) (h : Exported single store bundle)
    (hsame : SameClassifications store (reimported run taxonomyVersion bundle store))
    (hrow : row ∈ store.classifications) (hdomain : isDomainKey row.normalizedKey = true)
    (hp : p ∈ run.preparedEntries (replaceAsIs bundle)) (hkey : p.normalizedKey = row.normalizedKey) :
    fields row = entryFields p := by
  by_cases hskipped : entryChange ((existingRows store).getD []) p = .skipped
  · obtain ⟨existing, hexisting, hfind⟩ := find?_existing h hrow hdomain
    obtain ⟨values, confidence, hbound⟩ := h.written row hrow
    obtain rfl := Option.some.inj (hexisting.symm.trans (existingRow_bound hbound))
    rw [entryChange, hkey, hfind] at hskipped
    dsimp only at hskipped
    split_ifs at hskipped with hisSame
    obtain ⟨hcategory, hsubcategory, hrisk, haction, -⟩ := of_decide_eq_true hisSame
    rw [fields, entryFields, hbound.primaryCategory, hbound.subcategory, hbound.riskLevel,
      hbound.recommendedAction]
    rw [← hcategory, ← hsubcategory, ← hrisk, ← haction]
  · have hplan : .upsert p ∈ importPlan run (replaceAsIs bundle) store := by
      rw [importPlan, mem_append, mem_append, mem_flatMap]
      refine Or.inr (Or.inl ⟨p, hp, ?_⟩)
      rw [entryPlan, if_neg hskipped]
      exact mem_cons_self
    obtain ⟨row', hrow', hkey', hfields⟩ := exists_row_after hsame h.unique hrow
    rw [← hfields]
    exact fields_effects hplan (fails_eq_false hworks h _ hplan) hrow' (hkey'.trans hkey.symm)

/-- **If nothing changes, every row of a domain key comes back.** -/
lemma reimportable_of_same (hlibs : run.services.libs.LawfulRoot)
    (hworks : ∀ statement, run.failing statement = none) (h : Exported single store bundle)
    (hsame : SameClassifications store (reimported run taxonomyVersion bundle store))
    (hrow : row ∈ store.classifications) (hdomain : isDomainKey row.normalizedKey = true) :
    Reimportable run.services row := by
  obtain ⟨hcanonical, p, hp, hprepared⟩ := canonical_of_same hlibs h hsame row hrow hdomain
  have hfields := fields_eq_entryFields hworks h hsame hrow hdomain hp (hprepared.key.trans hcanonical)
  obtain ⟨values, confidence, hbound, hlabels, hcategory, hsubcategory, -, hvalid, -, hconfidence, hrange⟩ :=
    hprepared.columns
  simp only [fields, entryFields, Prod.mk.injEq] at hfields
  obtain ⟨hfieldCategory, hfieldSubcategory, hfieldRisk, -⟩ := hfields
  have hcategory' := Option.some.inj (hbound.primaryCategory.symm.trans hfieldCategory)
  have hsubcategory' := Option.some.inj (hbound.subcategory.symm.trans hfieldSubcategory)
  rw [hconfidence] at hrange
  refine ⟨hcanonical, hprepared.host, ?_, ?_, ?_⟩
  · intro c hc d hd
    obtain rfl := Option.some.inj (hbound.primaryCategory.symm.trans hc)
    obtain rfl := Option.some.inj (hbound.subcategory.symm.trans hd)
    exact ⟨hlabels, (hcategory'.trans hcategory).symm, (hsubcategory'.trans hsubcategory).symm⟩
  · intro level hlevel
    obtain rfl := Option.some.inj (hfieldRisk.symm.trans hlevel)
    exact hvalid
  · intro c hc
    obtain rfl := Option.some.inj (hbound.confidence.symm.trans hc)
    exact (round_mem_unit_iff single hbound.column).1 hrange

end RoundTrip

/-- **The round trip.** The keys, categories, subcategories, risk levels and actions of a table that its writers
left come back exactly if every row of a domain key is `Reimportable`. -/
theorem bundle_round_trip_iff (run : ImportRun) (texts : DatabaseTexts) (single : SingleRounding)
    (store : ClassificationStore) (hlibs : run.services.libs.LawfulRoot)
    (hworks : ∀ statement, run.failing statement = none)
    (hunique : Table.Unique (·.normalizedKey) store.classifications)
    (hwritten : ∀ row ∈ store.classifications, Written row) :
    ∃ bundle response after, exportBundle run.services texts single run.now none store = some bundle ∧
      importBundle run (replaceAsIs bundle) store = (.ok response, after) ∧
      (SameClassifications store after ↔ ∀ row ∈ store.classifications,
        isDomainKey row.normalizedKey = true → Reimportable run.services row) := by
  obtain ⟨bundle, hbundle, hexports⟩ := exportBundle_written run.services run.now hwritten
  have hexported : Exported single store bundle := ⟨hexports, hwritten, hunique⟩
  obtain ⟨response, hrun⟩ := (importBundle_follows rfl).ok (fails_eq_false hworks hexported)
  refine ⟨bundle, response, _, hbundle, hrun, ?_⟩
  constructor
  · intro hsame row hrow hdomain
    exact reimportable_of_same hlibs hworks hexported hsame hrow hdomain
  · intro hall key
    rw [← classifications_reimported _ hexported hall, reimported]

/-! ### The tables of the writers -/

variable {table table' : List ClassificationRow}

lemma upsert_of_write (h : writeClassification table key values now = .ok table') :
    upsertClassification table key values now = some table' := by
  rw [writeClassification] at h
  split at h
  · rename_i hupsert
    rw [hupsert, Except.ok.inj h]
  · cases h

/-- **What a change does**: it deletes a row, or it upserts one. -/
lemma apply_cases {change : Change} (h : change.apply services now table = some table') :
    (∃ key, table' = deleteClassificationRow table key) ∨
      ∃ key values, upsertClassification table key values now = some table' := by
  cases change with
  | delete normalizedKey => exact Or.inl ⟨normalizedKey, (Option.some.inj h).symm⟩
  | update normalizedKey payload =>
    have hok := Outcome.toOption_eq_some.1 h
    revert hok
    fun_cases updateClassification services now table normalizedKey payload <;> intro hok
    any_goals cases hok
    exact Or.inr ⟨_, _, upsert_of_write hok⟩
  | manualUnblock normalizedKey payload =>
    have hok := Outcome.toOption_eq_some.1 h
    revert hok
    fun_cases Admin.manualUnblock services now table normalizedKey payload <;> intro hok
    any_goals cases hok
    exact Or.inr ⟨_, _, upsert_of_write hok⟩
  | manualClassify normalizedKey payload =>
    have hok := Outcome.toOption_eq_some.1 h
    revert hok
    fun_cases Admin.manualClassify services now table normalizedKey payload <;> intro hok
    any_goals cases hok
    exact Or.inr ⟨_, _, upsert_of_write hok⟩
  | store normalizedKey verdict finalAction =>
    have hok := Outcome.toOption_eq_some.1 h
    revert hok
    fun_cases Worker.storeClassification table normalizedKey verdict finalAction now <;> rintro ⟨⟩
    exact Or.inr ⟨_, _, ‹_›⟩

/-- A row whose columns a writer has set. -/
def SetByWriter (row : ClassificationRow) : Prop :=
  ∃ old values confidence now, numericColumn values.confidence = some confidence ∧
    row = ClassificationRow.assign old values confidence now

/-- The keys of the table are unique, and a writer has set the columns of each row. -/
structure WriterTable (table : List ClassificationRow) : Prop where
  unique : Table.Unique (·.normalizedKey) table
  rows : ∀ row ∈ table, SetByWriter row

lemma WriterTable.upsert (h : WriterTable table)
    (hupsert : upsertClassification table key values now = some table') : WriterTable table' := by
  obtain ⟨confidence, hcolumn, rfl⟩ := Option.map_eq_some_iff.1 hupsert
  split_ifs with hany
  · constructor
    · refine h.unique.map fun row => ?_
      split_ifs <;> rfl
    · intro row hrow
      obtain ⟨old, hold, rfl⟩ := mem_map.1 hrow
      split_ifs
      · exact ⟨old, values, confidence, now, hcolumn, rfl⟩
      · exact h.rows old hold
  · constructor
    · refine h.unique.concat fun hmem => hany ?_
      obtain ⟨row, hrow, hkey⟩ := mem_map.1 hmem
      exact any_eq_true.2 ⟨row, hrow, decide_eq_true hkey⟩
    · intro row hrow
      rcases mem_append.1 hrow with hrow | hrow
      · exact h.rows row hrow
      · obtain rfl := mem_singleton.1 hrow
        exact ⟨values.newRow key confidence now, values, confidence, now, hcolumn, rfl⟩

/-- The table after a sequence of changes at certain times; one that fails leaves it as it is. -/
def afterChanges (services : ClassificationServices) (changes : List (ℕ × Change)) :
    List ClassificationRow :=
  changes.foldl (fun table change => (change.2.apply services change.1 table).getD table) []

/-- **The tables of the writers**, after whatever changes. -/
theorem writerTable_afterChanges (services : ClassificationServices) (changes : List (ℕ × Change)) :
    WriterTable (afterChanges services changes) := by
  refine List.foldlRecOn changes _ ⟨nodup_nil, ?_⟩ fun table htable change _ => ?_
  · intro row hrow
    cases hrow
  · cases happly : change.2.apply services change.1 table with
    | none => exact htable
    | some table' =>
      rw [Option.getD_some]
      rcases apply_cases happly with ⟨key, rfl⟩ | ⟨key, values, hupsert⟩
      · exact ⟨htable.unique.filter _, fun row hrow => htable.rows row (mem_of_mem_filter hrow)⟩
      · exact htable.upsert hupsert

/-- The row with the columns that its readers there leave aside. -/
def withColumns (others : StoredClassification) (row : ClassificationRow) : StoredClassification :=
  { others with
    normalizedKey := row.normalizedKey
    primaryCategory := row.primaryCategory
    subcategory := row.subcategory
    riskLevel := row.riskLevel
    recommendedAction := some row.recommendedAction
    confidence := row.confidence
    status := row.status
    updatedAt := row.updatedAt }

/-- A row that a writer has set is as `Written` says. -/
lemma SetByWriter.written {row : ClassificationRow} (h : SetByWriter row) (others : StoredClassification) :
    Written (withColumns others row) := by
  obtain ⟨old, values, confidence, now, hcolumn, rfl⟩ := h
  exact ⟨values, confidence, ⟨hcolumn, rfl, rfl, rfl, rfl, rfl⟩⟩

/-! ### The domain `example.com` -/

/-- Services with an engine that allows everything. -/
def allowingServices : ClassificationServices :=
  { importServices with
    evaluatePolicyDecision := fun _ =>
      .ok { action := .allow, cacheHit := false, verdict := none, decisionSource := none } }

/-- An import at time 10 of which nothing fails. -/
def allowingRun : ImportRun := { importWith fun _ => none with services := allowingServices }

/-- An update that classifies a key as social media. -/
def classify (key : String) : Change :=
  .update key { primaryCategory := "social-media", subcategory := "social-networks", reason := none }

/-- The table after one such update. -/
def classifiedAs (key : String) : ClassificationStore :=
  { emptyStore with
    classifications := (afterChanges allowingServices [(5, classify key)]).map (withColumns (emptyRow 1 "")) }

/-- Exact numbers. -/
def exactRounding : SingleRounding where
  round := id
  monotone := monotone_id
  round_zero := rfl
  round_one := rfl
  close := fun x _ => by norm_num

/-- The order of code points, and a `LOWER` for ASCII. -/
def plainTexts : DatabaseTexts where
  sortKey := fun text => text.toList.map Char.toNat
  lower := toAsciiLowercase

/-- An update of `www.example.com` is stored under that key, with labels of the taxonomy; the round trip moves it to
`example.com`. -/
theorem update_not_reimported :
    (classifiedAs "domain:www.example.com").classifications.map (fun row => (row.normalizedKey, fields row)) =
      [("domain:www.example.com", some "social-media", some "social-networks", some "medium", some "Allow")] ∧
    ((exportBundle allowingServices plainTexts exactRounding 10 none
        (classifiedAs "domain:www.example.com")).map fun bundle =>
      (importBundle allowingRun (replaceAsIs bundle)
        (classifiedAs "domain:www.example.com")).2.classifications.map (·.normalizedKey)) =
      some ["domain:example.com"] := by
  decide +kernel

/-- What is stored under `example.com` comes back. -/
theorem bundle_round_trip_example :
    ∃ bundle response after,
      exportBundle allowingServices plainTexts exactRounding 10 none (classifiedAs "domain:example.com") =
        some bundle ∧
      importBundle allowingRun (replaceAsIs bundle) (classifiedAs "domain:example.com") =
        (.ok response, after) ∧
      SameClassifications (classifiedAs "domain:example.com") after := by
  have htable := writerTable_afterChanges allowingServices [(5, classify "domain:example.com")]
  have hwritten : ∀ row ∈ (classifiedAs "domain:example.com").classifications, Written row := by
    intro row hrow
    obtain ⟨row', hrow', rfl⟩ := mem_map.1 hrow
    exact (htable.rows row' hrow').written _
  have hcolumns : (classifiedAs "domain:example.com").classifications.all (fun row =>
      row.normalizedKey = "domain:example.com" ∧ row.primaryCategory = some "social-media" ∧
        row.subcategory = some "social-networks" ∧ row.riskLevel = some "medium" ∧
        row.confidence = some (9 / 10)) = true := by decide +kernel
  have hresolved : Resolved allowingServices "social-media" "social-networks" :=
    ⟨by decide +kernel, by decide +kernel, by decide +kernel⟩
  obtain ⟨bundle, response, after, hexport, himport, hiff⟩ := bundle_round_trip_iff allowingRun plainTexts
    exactRounding (classifiedAs "domain:example.com") lawfulRoot_sampleLibs (fun _ => rfl)
    (by decide +kernel) hwritten
  refine ⟨bundle, response, after, hexport, himport, hiff.2 fun row hrow _ => ?_⟩
  obtain ⟨hkey, hcategory, hsubcategory, hrisk, hconfidence⟩ :=
    of_decide_eq_true (all_eq_true.1 hcolumns row hrow)
  refine ⟨?_, ?_, ?_, ?_, ?_⟩
  · rw [hkey]
    decide +kernel
  · rw [hkey]
    decide +kernel
  · intro category hcategory' subcategory hsubcategory'
    obtain rfl := Option.some.inj (hcategory.symm.trans hcategory')
    obtain rfl := Option.some.inj (hsubcategory.symm.trans hsubcategory')
    exact hresolved
  · intro level hlevel
    obtain rfl := Option.some.inj (hrisk.symm.trans hlevel)
    rfl
  · intro confidence hconfidence'
    obtain rfl := Option.some.inj (hconfidence.symm.trans hconfidence')
    norm_num

end OpenDefender.System.ClassificationRoundTrip
