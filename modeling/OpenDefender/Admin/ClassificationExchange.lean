import OpenDefender.Admin.Classifications
import OpenDefender.Common.Requests
import OpenDefender.Lib.Pool

/-!
The exchange of classifications as bundles: `export_bundle` and the checks `import_bundle` makes of the rows of
a bundle (`services/admin-api/src/classifications.rs`).

The checks accept a row exactly if it is `Importable` (`exists_prepareEntry_iff`). What the loop over the rows
collects is described by `Prepared`: one entry for the canonical key of each importable row, and no other.

A confidence is a rational number. Where the source makes an `f32` of a column, the rounding is a
`SingleRounding`.
-/

namespace OpenDefender.Admin

open Lib Text Lib.FirstMatch Lib.Wildcard TaxonomyStore List

/-! ### The tables -/

/-- A JSON value. -/
inductive Json where
  | null
  | bool (value : Bool)
  | number (value : ℚ)
  | string (value : String)
  | array (items : List Json)
  | object (fields : List (String × Json))

/-- `Map::insert` on the fields of an object. -/
def Json.insert (fields : List (String × Json)) (name : String) (value : Json) : List (String × Json) :=
  fields.filter (fun field => field.1 ≠ name) ++ [(name, value)]

/-- A row of `classifications`, with the columns that may be `NULL`. Times are in seconds. -/
structure StoredClassification where
  id : Uuid
  normalizedKey : String
  taxonomyVersion : Option String
  modelVersion : Option String
  primaryCategory : Option String
  subcategory : Option String
  riskLevel : Option String
  recommendedAction : Option String
  confidence : Option ℚ
  sfw : Option Bool
  flags : Option Json
  ttlSeconds : Option ℕ
  status : String
  nextRefreshAt : Option ℕ
  updatedAt : ℕ

/-- A row of `classification_versions`. -/
structure ClassificationVersion where
  classificationId : Uuid
  version : ℕ
  changedBy : Option String
  reason : Option String
  payload : Json

/-- The tables an import reads and writes. Of `page_contents` only the keys of the rows matter. -/
structure ClassificationStore where
  classifications : List StoredClassification
  versions : List ClassificationVersion
  requests : List RequestRow
  pageContents : List String

/-- `normalized_key LIKE 'domain:%'`. -/
def isDomainKey (normalizedKey : String) : Bool := like "domain:%" normalizedKey

lemma isDomainKey_iff :
    isDomainKey normalizedKey = true ↔ ∃ raw, normalizedKey = "domain:" ++ raw :=
  like_plain_percent (p := "domain:") (by simp [isPlain])

/-! ### Bundles -/

/-- `ClassificationExchangeEntry`. -/
structure ExchangeEntry where
  normalizedKey : String
  primaryCategory : String
  subcategory : String
  riskLevel : Option String
  recommendedAction : Option String
  confidence : Option ℚ
  status : Option String
  flags : Option Json

/-- `ClassificationExchangeBundle`. -/
structure ExchangeBundle where
  schemaVersion : String
  exportedAt : ℕ
  taxonomyVersion : String
  entries : List ExchangeEntry

/-- Rounding to an `f32`. It keeps the order, 0 and 1, and moves no value of the confidence column by
half a step of the column. -/
structure SingleRounding where
  round : ℚ → ℚ
  monotone : Monotone round
  round_zero : round 0 = 0
  round_one : round 1 = 1
  close : ∀ x, |x| < 10 → |round x - x| < 1 / 20000

/-- How the database orders texts, and its `LOWER`. -/
structure DatabaseTexts where
  sortKey : String → List ℕ
  lower : String → String

/-- One row of an export. Reading `NULL` as a text panics. -/
def exportRow (single : SingleRounding) (row : StoredClassification) : Option ExchangeEntry := do
  let primaryCategory ← row.primaryCategory
  let subcategory ← row.subcategory
  pure
    { normalizedKey := row.normalizedKey
      primaryCategory
      subcategory
      riskLevel := row.riskLevel
      recommendedAction := row.recommendedAction
      confidence := row.confidence.map single.round
      status := some row.status
      flags := row.flags }

/-- The query of `export_bundle`. -/
def exportedRows (texts : DatabaseTexts) (q : Option String) (rows : List StoredClassification) :
    List StoredClassification :=
  let qLike := "%" ++ toAsciiLowercase (trim (q.getD "")) ++ "%"
  sortBy (fun row => texts.sortKey row.normalizedKey)
    (rows.filter fun row => isDomainKey row.normalizedKey && like qLike (texts.lower row.normalizedKey))

variable (services : ClassificationServices) (recompute : Bool)

/-- `export_bundle`; `none` if it panics. -/
def exportBundle (texts : DatabaseTexts) (single : SingleRounding)
    (now : ℕ) (q : Option String) (store : ClassificationStore) : Option ExchangeBundle := do
  let entries ← (exportedRows texts q store.classifications).mapM (exportRow single)
  pure
    { schemaVersion := "od-classification-bundle.v1"
      exportedAt := now
      taxonomyVersion := services.taxonomyStore.taxonomy.version
      entries }

/-! ### The checks of an import -/

/-- Why a row of a bundle is not imported: `error_code` and `error_message`. -/
structure Rejection where
  errorCode : String
  errorMessage : String
  deriving DecidableEq, Repr

/-- `InvalidImportRow`; the row itself stands for its JSON. -/
structure InvalidImportRow where
  index : ℕ
  normalizedKey : Option String
  rejection : Rejection
  rawEntry : ExchangeEntry

/-- `PreparedImportEntry`. -/
structure PreparedImportEntry extends ClassificationValues where
  normalizedKey : String
  flags : Json

/-- `is_valid_risk_level`. -/
def isValidRiskLevel (value : String) : Bool :=
  value = "low" ∨ value = "medium" ∨ value = "high" ∨ value = "critical"

/-- The risk level, the action and the confidence of an entry. -/
abbrev PolicyFields := String × PolicyAction × ℚ

/-- `evaluate_decision_for_import`. -/
def evaluateDecisionForImport (normalizedKey : String)
    (validated : ValidatedTaxonomyLabels) : Except String PolicyFields :=
  match parseNormalizedKey normalizedKey with
  | none => .error "normalized_key must start with domain: or subdomain:"
  | some (entityLevel, _) =>
    match services.evaluatePolicyDecision (decisionPayload normalizedKey entityLevel validated) with
    | .error err => .error ("failed to evaluate policy decision: " ++ err)
    | .ok decision => .ok (derivedRisk decision, decision.action, derivedConfidence decision)

variable (entry : ExchangeEntry)

/-- The action of a row that is imported as it is; `parse_policy_action` reads the texts an action is
displayed as. -/
def actionAsIs : Except Rejection PolicyAction :=
  match entry.recommendedAction with
  | none =>
    .error ⟨"missing_recommended_action", "recommended_action is required when recompute is disabled"⟩
  | some actionRaw =>
    match PolicyAction.ofDisplay actionRaw with
    | none =>
      .error ⟨"invalid_recommended_action", "unsupported recommended_action: " ++ actionRaw⟩
    | some action => .ok action

/-- The risk level of a row that is imported as it is. -/
def riskLevelAsIs : Except Rejection String :=
  match entry.riskLevel.filter fun value => !(trim value).isEmpty with
  | none => .error ⟨"missing_risk_level", "risk_level is required when recompute is disabled"⟩
  | some value =>
    let normalized := toAsciiLowercase (trim value)
    if isValidRiskLevel normalized then .ok normalized
    else
      .error ⟨"invalid_risk_level", "risk_level must be one of low|medium|high|critical, got " ++ value⟩

/-- The confidence of a row that is imported as it is. -/
def confidenceAsIs : Except Rejection ℚ :=
  match entry.confidence.filter fun value => 0 ≤ value ∧ value ≤ 1 with
  | none =>
    .error ⟨"invalid_confidence", "confidence must be set between 0.0 and 1.0 when recompute is disabled"⟩
  | some value => .ok value

/-- The policy fields of a row that is imported as it is. -/
def policyFieldsAsIs : Except Rejection PolicyFields := do
  let action ← actionAsIs entry
  let riskLevel ← riskLevelAsIs entry
  let confidence ← confidenceAsIs entry
  pure (riskLevel, action, confidence)

/-- The policy fields of a row, computed anew or as they are. -/
def policyFields (canonical : String)
    (validated : ValidatedTaxonomyLabels) (entry : ExchangeEntry) : Except Rejection PolicyFields :=
  if recompute then
    (evaluateDecisionForImport services canonical validated).mapError fun err =>
      ⟨"policy_decision_failed", err⟩
  else policyFieldsAsIs entry

/-- The flags an entry is stored with. -/
def importFlags (actor : String) (flags : Option Json) : Json :=
  let fields :=
    match flags with
    | some (.object fields) => fields
    | _ => []
  let source := if recompute then "import-recompute" else "import-as-is"
  .object (Json.insert (Json.insert fields "source" (.string source)) "actor" (.string actor))

/-- The checks of one row. -/
def prepareEntry (actor : String) (index : ℕ)
    (entry : ExchangeEntry) : Except InvalidImportRow PreparedImportEntry :=
  let canonical := services.canonicalizeKey entry.normalizedKey
  let validated := services.validateLabels entry.primaryCategory entry.subcategory
  if (parseNormalizedKey entry.normalizedKey).isNone then
    .error ⟨index, some entry.normalizedKey,
      ⟨"invalid_normalized_key", "normalized_key must be canonicalizable to domain:*"⟩, entry⟩
  else
    match validated.fallbackReason with
    | some reason =>
      .error ⟨index, some canonical,
        ⟨"invalid_taxonomy",
          "category/subcategory rejected by canonical taxonomy: " ++ reason.asStr⟩, entry⟩
    | none =>
      match policyFields services recompute canonical validated entry with
      | .error rejection => .error ⟨index, some canonical, rejection, entry⟩
      | .ok (riskLevel, recommendedAction, confidence) =>
        .ok
          { normalizedKey := canonical
            primaryCategory := validated.category.id
            subcategory := validated.subcategory.id
            riskLevel
            recommendedAction
            confidence
            flags := importFlags recompute actor entry.flags }

/-- One round of the loop over the rows: `invalid_rows` and `prepared_by_key`. -/
def collectEntry (actor : String)
    (found : List InvalidImportRow × Assoc String PreparedImportEntry) (entry : ExchangeEntry × ℕ) :
    List InvalidImportRow × Assoc String PreparedImportEntry :=
  match prepareEntry services recompute actor entry.2 entry.1 with
  | .error row => (found.1 ++ [row], found.2)
  | .ok prepared => (found.1, found.2.set prepared.normalizedKey prepared)

/-- The loop over the rows. Of several rows with one canonical key the last stands. -/
def collectEntries (actor : String)
    (entries : List ExchangeEntry) : List InvalidImportRow × Assoc String PreparedImportEntry :=
  entries.zipIdx.foldl (collectEntry services recompute actor) ([], .empty)

/-! ### Which rows pass -/

variable {services : ClassificationServices} {recompute : Bool} {actor : String} {index : ℕ}
  {entry : ExchangeEntry} {entries : List ExchangeEntry} {prepared : PreparedImportEntry}

/-- The policy fields of the row can be taken as they are: the action is a known one, the risk level is one of the
four up to blanks and case, and the confidence is between 0 and 1. -/
structure UsableAsIs (entry : ExchangeEntry) : Prop where
  action : ∃ text action, entry.recommendedAction = some text ∧ PolicyAction.ofDisplay text = some action
  riskLevel : ∃ text, entry.riskLevel = some text ∧ isValidRiskLevel (toAsciiLowercase (trim text)) = true
  confidence : ∃ value, entry.confidence = some value ∧ 0 ≤ value ∧ value ≤ 1

/-- The row passes the checks: its key is one of a domain or subdomain, the taxonomy knows its labels, and its
policy fields can be computed, or can be taken as they are. -/
structure Importable (services : ClassificationServices) (recompute : Bool) (entry : ExchangeEntry) :
    Prop where
  key : (parseNormalizedKey entry.normalizedKey).isSome = true
  labels : (services.validateLabels entry.primaryCategory entry.subcategory).fallbackReason = none
  decided : recompute = true → ∃ fields, evaluateDecisionForImport services
    (services.canonicalizeKey entry.normalizedKey)
    (services.validateLabels entry.primaryCategory entry.subcategory) = .ok fields
  asIs : recompute = false → UsableAsIs entry

lemma actionAsIs_ok (h : actionAsIs entry = .ok action) :
    ∃ text, entry.recommendedAction = some text ∧ PolicyAction.ofDisplay text = some action := by
  rw [actionAsIs] at h
  split at h
  · cases h
  · rename_i text htext
    split at h
    · cases h
    · rename_i action' haction
      cases h
      exact ⟨text, htext, haction⟩

lemma riskLevelAsIs_ok (h : riskLevelAsIs entry = .ok riskLevel) :
    ∃ text, entry.riskLevel = some text ∧ riskLevel = toAsciiLowercase (trim text) ∧
      isValidRiskLevel riskLevel = true := by
  rw [riskLevelAsIs] at h
  split at h
  · cases h
  · rename_i text htext
    dsimp only at h
    split at h
    · rename_i hvalid
      obtain rfl := Except.ok.inj h
      exact ⟨text, (Option.filter_eq_some_iff.1 htext).1, rfl, hvalid⟩
    · cases h

lemma confidenceAsIs_ok (h : confidenceAsIs entry = .ok confidence) :
    entry.confidence = some confidence ∧ 0 ≤ confidence ∧ confidence ≤ 1 := by
  rw [confidenceAsIs] at h
  split at h
  · cases h
  · rename_i value hvalue
    cases h
    obtain ⟨hsome, hrange⟩ := Option.filter_eq_some_iff.1 hvalue
    exact ⟨hsome, of_decide_eq_true hrange⟩

/-- **The fields of a row that is taken as it is.** -/
lemma policyFieldsAsIs_ok (h : policyFieldsAsIs entry = .ok fields) :
    actionAsIs entry = .ok fields.2.1 ∧ riskLevelAsIs entry = .ok fields.1 ∧
      confidenceAsIs entry = .ok fields.2.2 := by
  obtain ⟨action, haction, h⟩ := Outcome.bind_ok.1 h
  obtain ⟨riskLevel, hrisk, h⟩ := Outcome.bind_ok.1 h
  obtain ⟨confidence, hconfidence, h⟩ := Outcome.bind_ok.1 h
  cases h
  exact ⟨haction, hrisk, hconfidence⟩

lemma isEmpty_trim_of_valid (h : isValidRiskLevel (toAsciiLowercase (trim text)) = true) :
    (trim text).isEmpty = false := by
  rw [Bool.eq_false_iff, ne_eq, String.isEmpty_iff]
  intro hempty
  rw [hempty] at h
  exact absurd h (by decide)

lemma exists_policyFieldsAsIs_iff : (∃ fields, policyFieldsAsIs entry = .ok fields) ↔ UsableAsIs entry := by
  constructor
  · rintro ⟨fields, h⟩
    obtain ⟨haction, hrisk, hconfidence⟩ := policyFieldsAsIs_ok h
    obtain ⟨text, htext, hparsed⟩ := actionAsIs_ok haction
    obtain ⟨level, hlevel, hlower, hvalid⟩ := riskLevelAsIs_ok hrisk
    exact ⟨⟨text, _, htext, hparsed⟩, ⟨level, hlevel, hlower ▸ hvalid⟩, ⟨_, confidenceAsIs_ok hconfidence⟩⟩
  · rintro ⟨⟨text, action, htext, haction⟩, ⟨level, hlevel, hvalid⟩, ⟨value, hvalue, hrange⟩⟩
    refine ⟨(toAsciiLowercase (trim level), action, value), ?_⟩
    have hfilter : (entry.riskLevel.filter fun value => !(trim value).isEmpty) = some level := by
      rw [hlevel, Option.filter_some, isEmpty_trim_of_valid hvalid]
      rfl
    have hinside : (entry.confidence.filter fun value => 0 ≤ value ∧ value ≤ 1) = some value := by
      rw [hvalue, Option.filter_some, if_pos (decide_eq_true hrange)]
    rw [policyFieldsAsIs, actionAsIs, htext]
    dsimp only
    rw [haction, riskLevelAsIs, hfilter]
    dsimp only
    rw [if_pos hvalid, confidenceAsIs, hinside]
    rfl

lemma exists_policyFields_iff :
    (∃ fields, policyFields services recompute canonical validated entry = .ok fields) ↔
      (recompute = true → ∃ fields, evaluateDecisionForImport services canonical validated = .ok fields) ∧
        (recompute = false → UsableAsIs entry) := by
  rw [policyFields]
  cases recompute with
  | true =>
    rw [if_pos rfl]
    cases evaluateDecisionForImport services canonical validated with
    | ok fields =>
      refine ⟨fun _ => ⟨fun _ => ⟨fields, rfl⟩, ?_⟩, fun _ => ⟨fields, rfl⟩⟩
      intro h
      cases h
    | error err =>
      constructor
      · rintro ⟨_, h⟩
        cases h
      · rintro ⟨h, -⟩
        obtain ⟨_, h⟩ := h rfl
        cases h
  | false =>
    rw [if_neg Bool.false_ne_true, exists_policyFieldsAsIs_iff]
    refine ⟨fun h => ⟨?_, fun _ => h⟩, fun h => h.2 rfl⟩
    intro hfalse
    cases hfalse

/-- **What a row becomes.** -/
lemma prepareEntry_ok (h : prepareEntry services recompute actor index entry = .ok prepared) :
    (parseNormalizedKey entry.normalizedKey).isSome = true ∧
      (services.validateLabels entry.primaryCategory entry.subcategory).fallbackReason = none ∧
      prepared.normalizedKey = services.canonicalizeKey entry.normalizedKey ∧
      prepared.primaryCategory =
        (services.validateLabels entry.primaryCategory entry.subcategory).category.id ∧
      prepared.subcategory =
        (services.validateLabels entry.primaryCategory entry.subcategory).subcategory.id ∧
      policyFields services recompute (services.canonicalizeKey entry.normalizedKey)
          (services.validateLabels entry.primaryCategory entry.subcategory) entry =
        .ok (prepared.riskLevel, prepared.recommendedAction, prepared.confidence) := by
  rw [prepareEntry] at h
  split at h
  · cases h
  rename_i hparse
  split at h
  · cases h
  rename_i hlabels
  split at h
  · cases h
  rename_i riskLevel action confidence hfields
  cases h
  exact ⟨by simpa [Option.isSome_iff_ne_none] using hparse, hlabels, rfl, rfl, rfl, hfields⟩

/-- **The checks accept the importable rows.** -/
theorem exists_prepareEntry_iff (actor : String) (index : ℕ) :
    (∃ prepared, prepareEntry services recompute actor index entry = .ok prepared) ↔
      Importable services recompute entry := by
  constructor
  · rintro ⟨prepared, h⟩
    obtain ⟨hparse, hlabels, -, -, -, hfields⟩ := prepareEntry_ok h
    obtain ⟨hdecided, hasIs⟩ := exists_policyFields_iff.1 ⟨_, hfields⟩
    exact ⟨hparse, hlabels, hdecided, hasIs⟩
  · rintro ⟨hparse, hlabels, hdecided, hasIs⟩
    obtain ⟨⟨riskLevel, action, confidence⟩, hfields⟩ :=
      exists_policyFields_iff.2 ⟨hdecided, hasIs⟩
    have hsome : (parseNormalizedKey entry.normalizedKey).isNone = false := by simpa using hparse
    rw [prepareEntry, hsome, if_neg Bool.false_ne_true, hlabels]
    dsimp only
    rw [hfields]
    exact ⟨_, rfl⟩

/-! ### What the loop collects -/

/-- The entries that come of the rows of a bundle: one for the canonical key of each importable row, and each of
them is what some row becomes. -/
structure Prepared (services : ClassificationServices) (recompute : Bool) (actor : String)
    (entries : List ExchangeEntry) (prepared : List PreparedImportEntry) : Prop where
  distinct : Table.Unique (·.normalizedKey) prepared
  origin : ∀ p ∈ prepared, ∃ entry ∈ entries, ∃ index,
    prepareEntry services recompute actor index entry = .ok p
  covered : ∀ entry ∈ entries, Importable services recompute entry →
    ∃ p ∈ prepared, p.normalizedKey = services.canonicalizeKey entry.normalizedKey

lemma mem_keys_set {m : Assoc String PreparedImportEntry} :
    k' ∈ (m.set k prepared).keys ↔ k' = k ∨ k' ∈ m.keys := by
  rw [Assoc.mem_keys_iff, Assoc.mem_keys_iff, Assoc.get_set]
  split_ifs with h
  · simp [h]
  · simp [h]

/-- The map after some rows. -/
lemma foldl_collectEntry (services : ClassificationServices) (recompute : Bool) (actor : String)
    (l : List (ExchangeEntry × ℕ)) :
    let m := (l.foldl (collectEntry services recompute actor) ([], .empty)).2
    m.Distinct ∧
      (∀ b ∈ m.bindings, b.2.normalizedKey = b.1 ∧
        ∃ entry ∈ l, prepareEntry services recompute actor entry.2 entry.1 = .ok b.2) ∧
      ∀ entry ∈ l, Importable services recompute entry.1 →
        services.canonicalizeKey entry.1.normalizedKey ∈ m.keys := by
  induction l using List.reverseRecOn with
  | nil =>
    refine ⟨Assoc.distinct_empty, ?_, ?_⟩
    · intro b hb
      cases hb
    · intro entry hentry
      cases hentry
  | append_singleton l x ih =>
    obtain ⟨hdistinct, hvalues, hcovered⟩ := ih
    rw [foldl_append, foldl_cons, foldl_nil, collectEntry]
    have hvalues' : ∀ b ∈ (l.foldl (collectEntry services recompute actor) ([], .empty)).2.bindings,
        b.2.normalizedKey = b.1 ∧
          ∃ entry ∈ l ++ [x], prepareEntry services recompute actor entry.2 entry.1 = .ok b.2 := by
      intro b hb
      obtain ⟨hkey, entry, hentry, hok⟩ := hvalues b hb
      exact ⟨hkey, entry, mem_append_left _ hentry, hok⟩
    cases hprepare : prepareEntry services recompute actor x.2 x.1 with
    | error row =>
      refine ⟨hdistinct, hvalues', Pool.forall_concat (fun himportable => ?_) hcovered⟩
      obtain ⟨p, hok⟩ := (exists_prepareEntry_iff actor x.2).2 himportable
      rw [hprepare] at hok
      cases hok
    | ok p =>
      refine ⟨hdistinct.set, fun b hb => ?_, Pool.forall_concat (fun _ => ?_) fun entry hentry himportable => ?_⟩
      · rcases Assoc.mem_bindings_set hb with rfl | hb
        · exact ⟨rfl, x, mem_append_right _ (mem_singleton_self x), hprepare⟩
        · exact hvalues' b hb
      · exact mem_keys_set.2 (Or.inl (prepareEntry_ok hprepare).2.2.1.symm)
      · exact mem_keys_set.2 (Or.inr (hcovered entry hentry himportable))

/-- **The loop over the rows** collects what `Prepared` says, in whatever order its map is read. -/
theorem prepared_collectEntries
    (hperm : l.Perm ((collectEntries services recompute actor entries).2.bindings.map Prod.snd)) :
    Prepared services recompute actor entries l := by
  obtain ⟨hdistinct, hvalues, hcovered⟩ := foldl_collectEntry services recompute actor entries.zipIdx
  rw [collectEntries] at hperm
  set m := (entries.zipIdx.foldl (collectEntry services recompute actor) ([], .empty)).2
  have hkeys : (m.bindings.map Prod.snd).map (·.normalizedKey) = m.keys := by
    rw [map_map, Assoc.keys]
    exact map_congr_left fun b hb => (hvalues b hb).1
  refine ⟨?_, ?_, ?_⟩
  · rw [Table.Unique, (hperm.map _).nodup_iff, hkeys]
    exact hdistinct
  · intro p hp
    obtain ⟨b, hb, rfl⟩ := mem_map.1 (hperm.mem_iff.1 hp)
    obtain ⟨-, entry, hentry, hok⟩ := hvalues b hb
    exact ⟨entry.1, fst_mem_of_mem_zipIdx hentry, entry.2, hok⟩
  · intro entry hentry himportable
    obtain ⟨i, hi⟩ := mem_iff_getElem?.1 hentry
    have hmem : (entry, i) ∈ entries.zipIdx := mk_mem_zipIdx_iff_getElem?.2 hi
    have hkey := hcovered (entry, i) hmem himportable
    rw [← hkeys] at hkey
    obtain ⟨p, hp, hpkey⟩ := mem_map.1 hkey
    exact ⟨p, hperm.mem_iff.2 hp, hpkey⟩

end OpenDefender.Admin
