import OpenDefender.Admin.ClassificationExchange
import OpenDefender.Lib.Script

/-!
`import_bundle` of `services/admin-api/src/classifications.rs` statement by statement. There is no transaction:
every statement takes effect by itself, and a statement that fails ends the import.

`importBundle_follows`: an import that is no dry run runs the statements of `importPlan`, up to the first one that
fails. What a statement does to the tables is its `effect`.
-/

namespace OpenDefender.Admin

open Lib Script List

/-! ### The import -/

/-- `ClassificationImportMode`. -/
inductive ClassificationImportMode where
  | merge
  | replace
  deriving DecidableEq, Repr

/-- `mode_label`. -/
def modeLabel : ClassificationImportMode → String
  | .merge => "merge"
  | .replace => "replace"

/-- `ClassificationImportRequest`. -/
structure ClassificationImportRequest where
  bundle : ExchangeBundle
  mode : ClassificationImportMode
  recomputePolicyFields : Bool
  dryRun : Bool

/-- `ExistingClassificationRow`. -/
structure ExistingClassificationRow where
  normalizedKey : String
  primaryCategory : String
  subcategory : String
  riskLevel : String
  recommendedAction : String
  confidence : ℚ
  deriving DecidableEq, Repr

/-- The statements of an import, with what they are about. -/
inductive ImportStatement where
  | listRows
  | listKeys
  | upsert (entry : PreparedImportEntry)
  | latestVersion (entry : PreparedImportEntry)
  | insertVersion (entry : PreparedImportEntry)
  | clearRequest (entry : PreparedImportEntry)
  | deleteClassifications (keys : List String)
  | deleteRequests (keys : List String)
  | deletePageContents (keys : List String)

/-- The order in which a hash map gives its values. -/
structure HashOrder where
  intoValues : Assoc String PreparedImportEntry → List PreparedImportEntry
  perm : ∀ m, (intoValues m).Perm (m.bindings.map Prod.snd)

/-- The circumstances of an import: the services, who imports and when, the id drawn for a new row of a key, the
order of the hash map, and which statements fail, with their messages. -/
structure ImportRun where
  services : ClassificationServices
  actor : String
  now : ℕ
  newId : String → Uuid
  hashOrder : HashOrder
  failing : ImportStatement → Option String

/-- How an import ends without a response: a `NULL` is read as a value, or the database reports an error. -/
inductive ImportFailure where
  | panicked
  | answered (error : ApiError)
  deriving DecidableEq, Repr

/-- Statements over the tables of an import. -/
abbrev ImportScript := Script ClassificationStore ImportFailure

/-- `db_error`. -/
def databaseError (message : String) : ImportFailure :=
  .answered { status := 500, errorCode := "DB_ERROR", message }

/-- What the loop over the prepared entries counts. -/
structure ImportTally where
  imported : ℕ
  updated : ℕ
  skipped : ℕ
  deriving DecidableEq, Repr

/-- `ClassificationImportResponse`; the rows that were refused stand for the file that lists them. -/
structure ClassificationImportResponse where
  mode : String
  recomputePolicyFields : Bool
  dryRun : Bool
  totalEntries : ℕ
  tally : ImportTally
  replacedDeleted : ℕ
  invalid : List InvalidImportRow

/-- A row in `list_existing_domain_rows`; reading `NULL` panics. -/
def existingRow (row : StoredClassification) : Option ExistingClassificationRow := do
  let primaryCategory ← row.primaryCategory
  let subcategory ← row.subcategory
  let riskLevel ← row.riskLevel
  let recommendedAction ← row.recommendedAction
  let confidence ← row.confidence
  pure
    { normalizedKey := row.normalizedKey
      primaryCategory
      subcategory
      riskLevel
      recommendedAction
      confidence }

variable (run : ImportRun) (store : ClassificationStore) (taxonomyVersion : String)

/-- `list_existing_domain_rows`, as far as it succeeds. -/
def existingRows : Option (List ExistingClassificationRow) :=
  (store.classifications.filter fun row => isDomainKey row.normalizedKey).mapM existingRow

/-- `list_existing_domain_keys_union`. -/
def domainKeysUnion : List String :=
  ((store.classifications.map (·.normalizedKey) ++ requestKeys store.requests ++
    store.pageContents).filter isDomainKey).dedup

/-- `is_same_classification`. -/
def isSameClassification (existing : ExistingClassificationRow) (incoming : PreparedImportEntry) : Bool :=
  existing.primaryCategory = incoming.primaryCategory ∧
    existing.subcategory = incoming.subcategory ∧
    existing.riskLevel = incoming.riskLevel ∧
    existing.recommendedAction = incoming.recommendedAction.display ∧
    |existing.confidence - incoming.confidence| < 1 / 10000

/-- What an entry is counted as. -/
inductive EntryChange where
  | imported
  | updated
  | skipped
  deriving DecidableEq, Repr

variable (mode : ClassificationImportMode) (request : ClassificationImportRequest) (keys : List String)
  (existing : List ExistingClassificationRow) (prepared : List PreparedImportEntry)
  (entry : PreparedImportEntry)

/-- Whether an entry is new, differs from the row of its key, or is skipped. -/
def entryChange : EntryChange :=
  match existing.find? fun row => row.normalizedKey = entry.normalizedKey with
  | some row => if isSameClassification row entry then .skipped else .updated
  | none => .imported

/-- One more entry. -/
def ImportTally.add (tally : ImportTally) : EntryChange → ImportTally
  | .imported => { tally with imported := tally.imported + 1 }
  | .updated => { tally with updated := tally.updated + 1 }
  | .skipped => { tally with skipped := tally.skipped + 1 }

/-! ### Statements -/

/-- The columns the upsert of an entry sets. -/
def StoredClassification.assign (row : StoredClassification) (entry : PreparedImportEntry)
    (taxonomyVersion : String) (confidence : ℚ) (now : ℕ) : StoredClassification :=
  { row with
    taxonomyVersion := some taxonomyVersion
    modelVersion := some "import"
    primaryCategory := some entry.primaryCategory
    subcategory := some entry.subcategory
    riskLevel := some entry.riskLevel
    recommendedAction := some entry.recommendedAction.display
    confidence := some confidence
    flags := some entry.flags
    updatedAt := now
    ttlSeconds := some 3600
    status := "active"
    nextRefreshAt := some (now + 4 * 3600) }

/-- A new row before its columns are set. -/
def emptyRow (id : Uuid) (normalizedKey : String) : StoredClassification where
  id := id
  normalizedKey := normalizedKey
  taxonomyVersion := none
  modelVersion := none
  primaryCategory := none
  subcategory := none
  riskLevel := none
  recommendedAction := none
  confidence := none
  sfw := some false
  flags := none
  ttlSeconds := none
  status := "active"
  nextRefreshAt := none
  updatedAt := 0

/-- The row of a key. -/
def storedOf (rows : List StoredClassification) (normalizedKey : String) : Option StoredClassification :=
  rows.find? fun row => row.normalizedKey = normalizedKey

/-- `INSERT INTO classifications … ON CONFLICT (normalized_key) DO UPDATE`, with the confidence as the column
stores it. -/
def upsertRows (confidence : ℚ) (rows : List StoredClassification) : List StoredClassification :=
  match storedOf rows entry.normalizedKey with
  | some _ => rows.map fun row =>
    if row.normalizedKey = entry.normalizedKey then row.assign entry taxonomyVersion confidence run.now
    else row
  | none =>
    rows ++ [(emptyRow (run.newId entry.normalizedKey) entry.normalizedKey).assign entry taxonomyVersion
      confidence run.now]

/-- The id that the upsert of an entry returns. -/
def upsertedId (rows : List StoredClassification) : Uuid :=
  match storedOf rows entry.normalizedKey with
  | some row => row.id
  | none => run.newId entry.normalizedKey

/-- The upsert; a confidence without room in its column is refused. -/
def upsertRow : ImportScript Uuid := fun store =>
  match numericColumn entry.confidence with
  | none => (.error (.answered numericOverflow), store)
  | some confidence =>
    (.ok (upsertedId run entry store.classifications),
      { store with
        classifications := upsertRows run taxonomyVersion entry confidence store.classifications })

/-- `SELECT MAX(version)`, 0 without versions. -/
def latestVersion (versions : List ClassificationVersion) (classificationId : Uuid) : ℕ :=
  ((versions.filter fun row => row.classificationId = classificationId).map (·.version)).max?.getD 0

/-- The version that an import adds for an entry. -/
def importVersion (classificationId : Uuid) (version : ℕ) : ClassificationVersion where
  classificationId := classificationId
  version := version
  changedBy := some run.actor
  reason := some "classification import"
  payload := .object
    [("normalized_key", .string entry.normalizedKey), ("category", .string entry.primaryCategory),
      ("subcategory", .string entry.subcategory), ("source", .string "classification-import")]

/-- `DELETE FROM classifications WHERE normalized_key = ANY …`; the versions of the rows go with them. -/
def deleteClassifications (store : ClassificationStore) : ClassificationStore :=
  let gone := (store.classifications.filter fun row => row.normalizedKey ∈ keys).map (·.id)
  { store with
    classifications := store.classifications.filter fun row => row.normalizedKey ∉ keys
    versions := store.versions.filter fun row => row.classificationId ∉ gone }

/-- `DELETE FROM classification_requests WHERE normalized_key = ANY …`. -/
def deleteRequests (store : ClassificationStore) : ClassificationStore :=
  { store with requests := store.requests.filter fun row => row.normalizedKey ∉ keys }

/-- `DELETE FROM page_contents WHERE normalized_key = ANY …`. -/
def deletePageContents (store : ClassificationStore) : ClassificationStore :=
  { store with pageContents := store.pageContents.filter fun key => key ∉ keys }

/-- A statement, which may fail. -/
def ImportRun.statement {α : Type} (run : ImportRun) (name : ImportStatement) (m : ImportScript α) :
    ImportScript α :=
  attempt ((run.failing name).map databaseError) m

/-- `list_existing_domain_rows`. -/
def listExistingDomainRows : ImportScript (List ExistingClassificationRow) :=
  run.statement .listRows fun store =>
    match existingRows store with
    | some rows => (.ok rows, store)
    | none => (.error .panicked, store)

/-- `upsert_import_entry`. -/
def upsertImportEntry : ImportScript Unit := do
  let classificationId ← run.statement (.upsert entry) (upsertRow run taxonomyVersion entry)
  let latest ← run.statement (.latestVersion entry)
    (read fun store => latestVersion store.versions classificationId)
  run.statement (.insertVersion entry) (write fun store =>
    { store with versions := store.versions ++ [importVersion run entry classificationId (latest + 1)] })

/-- One round of the loop over the prepared entries. -/
def importEntry (tally : ImportTally) (entry : PreparedImportEntry) : ImportScript ImportTally :=
  match entryChange existing entry with
  | .skipped => pure (tally.add .skipped)
  | change => do
    upsertImportEntry run taxonomyVersion entry
    ignoring (run.statement (.clearRequest entry) (write fun store =>
      { store with requests := deleteRequest store.requests entry.normalizedKey }))
    pure (tally.add change)

/-- `delete_keys_and_related`. -/
def deleteKeysAndRelated : ImportScript Unit :=
  if keys.isEmpty then pure ()
  else do
    run.statement (.deleteClassifications keys) (write (deleteClassifications keys))
    run.statement (.deleteRequests keys) (write (deleteRequests keys))
    run.statement (.deletePageContents keys) (write (deletePageContents keys))

/-- `to_delete_replace`. -/
def keysToDelete : ImportScript (List String) :=
  match mode with
  | .merge => pure []
  | .replace =>
    run.statement .listKeys (read fun store =>
      (domainKeysUnion store).filter fun key => key ∉ prepared.map (·.normalizedKey))

/-- The part of `import_bundle` that a dry run leaves out. -/
def writeImport (keys : List String) : ImportScript ImportTally := do
  let tally ← prepared.foldlM (importEntry run taxonomyVersion existing) ⟨0, 0, 0⟩
  deleteKeysAndRelated run keys
  pure tally

/-- The counts of an import, as they would be or after its writes. -/
def tallyImport (dryRun : Bool) (taxonomyVersion : String)
    (existing : List ExistingClassificationRow) (prepared : List PreparedImportEntry) (keys : List String) :
    ImportScript ImportTally :=
  if dryRun then
    pure (prepared.foldl (fun tally entry => tally.add (entryChange existing entry)) ⟨0, 0, 0⟩)
  else writeImport run taxonomyVersion existing prepared keys

/-- The entries that `import_bundle` prepares, in the order of the hash map. -/
def ImportRun.preparedEntries : List PreparedImportEntry :=
  run.hashOrder.intoValues (collectEntries run.services request.recomputePolicyFields run.actor
    request.bundle.entries).2

/-- `import_bundle`. -/
def importBundle : ImportScript ClassificationImportResponse := do
  let existing ← listExistingDomainRows run
  let keys ← keysToDelete run request.mode (run.preparedEntries request)
  let tally ← tallyImport run request.dryRun request.bundle.taxonomyVersion existing
    (run.preparedEntries request) keys
  pure
    { mode := modeLabel request.mode
      recomputePolicyFields := request.recomputePolicyFields
      dryRun := request.dryRun
      totalEntries := request.bundle.entries.length
      tally
      replacedDeleted := keys.length
      invalid := (collectEntries run.services request.recomputePolicyFields run.actor
        request.bundle.entries).1 }

/-! ### The plan of an import -/

/-- Whether a statement fails, in an import that starts from the store. -/
def ImportRun.fails (statement : ImportStatement) : Bool :=
  match statement with
  | .listRows => (run.failing .listRows).isSome || (existingRows store).isNone
  | .upsert entry => (run.failing (.upsert entry)).isSome || (numericColumn entry.confidence).isNone
  -- the failure of this one is ignored
  | .clearRequest _ => false
  | statement => (run.failing statement).isSome

/-- What a statement does to the tables. -/
def ImportRun.effect (statement : ImportStatement) (store : ClassificationStore) : ClassificationStore :=
  match statement with
  | .upsert entry =>
    match numericColumn entry.confidence with
    | none => store
    | some confidence =>
      { store with
        classifications := upsertRows run taxonomyVersion entry confidence store.classifications }
  | .insertVersion entry =>
    let classificationId := upsertedId run entry store.classifications
    { store with
      versions := store.versions ++ [importVersion run entry classificationId
        (latestVersion store.versions classificationId + 1)] }
  | .clearRequest entry =>
    if (run.failing (.clearRequest entry)).isSome then store
    else { store with requests := deleteRequest store.requests entry.normalizedKey }
  | .deleteClassifications keys => deleteClassifications keys store
  | .deleteRequests keys => deleteRequests keys store
  | .deletePageContents keys => deletePageContents keys store
  | .listRows | .listKeys | .latestVersion _ => store

/-- The keys an import deletes. -/
def deletedKeys (store : ClassificationStore) : List String :=
  match mode with
  | .merge => []
  | .replace => (domainKeysUnion store).filter fun key => key ∉ prepared.map (·.normalizedKey)

/-- The query for the keys to delete. -/
def keyPlan : ClassificationImportMode → List ImportStatement
  | .merge => []
  | .replace => [.listKeys]

/-- The queries of an import. -/
def readPlan : List ImportStatement := .listRows :: keyPlan mode

/-- The statements for one entry. -/
def entryPlan : List ImportStatement :=
  if entryChange existing entry = .skipped then []
  else [.upsert entry, .latestVersion entry, .insertVersion entry, .clearRequest entry]

/-- The statements that delete. -/
def deletePlan : List ImportStatement :=
  if keys.isEmpty then [] else [.deleteClassifications keys, .deleteRequests keys, .deletePageContents keys]

/-- The statements of an import that is no dry run. -/
def importPlan (store : ClassificationStore) : List ImportStatement :=
  let prepared := run.preparedEntries request
  readPlan request.mode ++ (prepared.flatMap (entryPlan ((existingRows store).getD [])) ++
    deletePlan (deletedKeys request.mode prepared store))

/-! ### An import follows its plan -/

variable {run : ImportRun} {request : ClassificationImportRequest} {taxonomyVersion : String}
  {entry : PreparedImportEntry} {store s : ClassificationStore} {rows : List StoredClassification}
  {confidence : ℚ}

/-- What the row of a key is after its upsert. -/
lemma storedOf_upsertRows (run : ImportRun) (taxonomyVersion : String) (entry : PreparedImportEntry)
    (confidence : ℚ) (rows : List StoredClassification) : ∃ row : StoredClassification,
    storedOf (upsertRows run taxonomyVersion entry confidence rows) entry.normalizedKey =
        some (row.assign entry taxonomyVersion confidence run.now) ∧
      row.id = upsertedId run entry rows := by
  rw [upsertRows, upsertedId]
  cases hfind : storedOf rows entry.normalizedKey with
  | some row =>
    refine ⟨row, ?_, rfl⟩
    have hkey : row.normalizedKey = entry.normalizedKey := by
      simpa using find?_some hfind
    have hsame : ((fun row : StoredClassification => decide (row.normalizedKey = entry.normalizedKey)) ∘
        fun row : StoredClassification => if row.normalizedKey = entry.normalizedKey then
          row.assign entry taxonomyVersion confidence run.now else row) =
        fun row => decide (row.normalizedKey = entry.normalizedKey) := by
      funext row
      rw [Function.comp_apply]
      split_ifs <;> rfl
    rw [storedOf] at hfind ⊢
    rw [find?_map, hsame, hfind, Option.map_some, if_pos hkey]
  | none =>
    refine ⟨emptyRow (run.newId entry.normalizedKey) entry.normalizedKey, ?_, rfl⟩
    rw [storedOf] at hfind ⊢
    rw [find?_append, hfind]
    simp [StoredClassification.assign, emptyRow]

/-- The version is written under the id that the upsert returned. -/
lemma upsertedId_upsertRows : upsertedId run entry (upsertRows run taxonomyVersion entry confidence rows) =
    upsertedId run entry rows := by
  obtain ⟨row, hrow, hid⟩ := storedOf_upsertRows run taxonomyVersion entry confidence rows
  rw [upsertedId, hrow]
  exact hid

variable {name : ImportStatement}

/-- A statement that fails if the database makes it, or if it is refused for what it is about. -/
lemma follows_statement {α : Type} {m : ImportScript α} (refused : Bool)
    (hfails : run.fails store name = ((run.failing name).isSome || refused))
    (hok : refused = false → ∃ a, m s = (.ok a, run.effect taxonomyVersion name s))
    (herror : refused = true → ∃ e, m s = (.error e, s)) :
    Follows (run.fails store) (run.effect taxonomyVersion) (run.statement name m) s [name] := by
  rw [ImportRun.statement]
  refine Follows.single ?_ ?_
  · intro h
    rw [hfails, Bool.or_eq_false_iff, Option.isSome_eq_false_iff, Option.isNone_iff_eq_none] at h
    rw [h.1, Option.map_none, attempt_none]
    exact hok h.2
  · intro h
    cases hfailing : run.failing name with
    | some message => exact ⟨databaseError message, rfl⟩
    | none =>
      rw [hfails, hfailing] at h
      rw [Option.map_none, attempt_none]
      exact herror (by simpa using h)

/-- A query that only the database makes fail. -/
lemma follows_read {α : Type} {f : ClassificationStore → α}
    (hfails : run.fails store name = (run.failing name).isSome)
    (heffect : run.effect taxonomyVersion name s = s) :
    Follows (run.fails store) (run.effect taxonomyVersion) (run.statement name (read f)) s [name] := by
  refine follows_statement false (by rw [hfails, Bool.or_false]) (fun _ => ⟨f s, ?_⟩) ?_
  · rw [read_apply, heffect]
  · intro h
    cases h

/-- A write that only the database makes fail. -/
lemma follows_write {f : ClassificationStore → ClassificationStore}
    (hfails : run.fails store name = (run.failing name).isSome)
    (heffect : run.effect taxonomyVersion name s = f s) :
    Follows (run.fails store) (run.effect taxonomyVersion) (run.statement name (write f)) s [name] := by
  refine follows_statement false (by rw [hfails, Bool.or_false]) (fun _ => ⟨(), ?_⟩) ?_
  · rw [write_apply, heffect]
  · intro h
    cases h

lemma listExistingDomainRows_follows :
    Follows (run.fails store) (run.effect taxonomyVersion) (listExistingDomainRows run) store
      [.listRows] := by
  refine follows_statement (existingRows store).isNone rfl ?_ ?_
  · intro h
    obtain ⟨rows, hrows⟩ := Option.isSome_iff_exists.1 (Option.isNone_eq_false_iff.1 h)
    exact ⟨rows, by rw [hrows]; rfl⟩
  · intro h
    rw [Option.isNone_iff_eq_none.1 h]
    exact ⟨_, rfl⟩

variable {t : ClassificationStore}

/-- A statement that returns has not failed. -/
lemma returns_of_statement {α : Type} {m : ImportScript α} {a : α} (h : run.statement name m s = (.ok a, t)) :
    m s = (.ok a, t) := by
  rw [ImportRun.statement] at h
  cases hfailing : run.failing name with
  | some message =>
    rw [hfailing] at h
    cases h
  | none => rwa [hfailing] at h

/-- The rows that are read. -/
lemma listExistingDomainRows_ok {existing : List ExistingClassificationRow}
    (h : listExistingDomainRows run store = (.ok existing, t)) : existingRows store = some existing := by
  have hread := returns_of_statement h
  split at hread
  · rename_i rows hrows
    cases hread
    exact hrows
  · cases hread

lemma upsertRow_follows :
    Follows (run.fails store) (run.effect taxonomyVersion)
      (run.statement (.upsert entry) (upsertRow run taxonomyVersion entry)) s [.upsert entry] := by
  refine follows_statement (numericColumn entry.confidence).isNone rfl ?_ ?_
  · intro h
    obtain ⟨confidence, hcolumn⟩ := Option.isSome_iff_exists.1 (Option.isNone_eq_false_iff.1 h)
    exact ⟨_, by rw [upsertRow, ImportRun.effect, hcolumn]⟩
  · intro h
    rw [upsertRow, Option.isNone_iff_eq_none.1 h]
    exact ⟨_, rfl⟩

/-- An upsert returns the id under which its row is found afterwards. -/
lemma upsertRow_ok {id : Uuid} (h : upsertRow run taxonomyVersion entry s = (.ok id, t)) :
    id = upsertedId run entry t.classifications := by
  rw [upsertRow] at h
  split at h
  · cases h
  · cases h
    rw [upsertedId_upsertRows]

lemma upsertImportEntry_follows :
    Follows (run.fails store) (run.effect taxonomyVersion) (upsertImportEntry run taxonomyVersion entry) s
      [.upsert entry, .latestVersion entry, .insertVersion entry] := by
  refine upsertRow_follows.bind fun id hid => ?_
  have hid' := upsertRow_ok (returns_of_statement hid)
  refine (follows_read rfl rfl).bind fun latest hlatest => ?_
  cases returns_of_statement hlatest
  refine follows_write rfl ?_
  rw [ImportRun.effect, hid']
  rfl

lemma clearRequest_follows :
    Follows (run.fails store) (run.effect taxonomyVersion)
      (ignoring (run.statement (.clearRequest entry) (write fun store =>
        { store with requests := deleteRequest store.requests entry.normalizedKey }))) s
      [.clearRequest entry] := by
  refine Follows.single (fun _ => ⟨(), ?_⟩) fun h => ?_
  · rw [ignoring, ImportRun.statement, ImportRun.effect]
    cases run.failing (.clearRequest entry) with
    | some message => rfl
    | none => rfl
  · cases h

lemma importEntry_follows (existing : List ExistingClassificationRow) (tally : ImportTally)
    (entry : PreparedImportEntry) (s : ClassificationStore) :
    Follows (run.fails store) (run.effect taxonomyVersion)
      (importEntry run taxonomyVersion existing tally entry) s (entryPlan existing entry) := by
  rw [importEntry, entryPlan]
  split
  · rename_i hskipped
    rw [if_pos hskipped]
    exact Follows.pure _
  · rename_i hchanged
    rw [if_neg hchanged]
    exact upsertImportEntry_follows.bind fun _ _ => clearRequest_follows.bind fun _ _ => Follows.pure _

lemma deleteKeysAndRelated_follows (keys : List String) :
    Follows (run.fails store) (run.effect taxonomyVersion) (deleteKeysAndRelated run keys) s
      (deletePlan keys) := by
  rw [deleteKeysAndRelated, deletePlan]
  split_ifs
  · exact Follows.pure _
  · refine (follows_write rfl rfl).bind fun _ _ => ?_
    refine (follows_write rfl rfl).bind fun _ _ => ?_
    exact follows_write rfl rfl

lemma writeImport_follows (existing : List ExistingClassificationRow) (prepared : List PreparedImportEntry)
    (keys : List String) :
    Follows (run.fails store) (run.effect taxonomyVersion)
      (writeImport run taxonomyVersion existing prepared keys) s
      (prepared.flatMap (entryPlan existing) ++ deletePlan keys) := by
  rw [writeImport]
  refine (Follows.foldlM (importEntry_follows existing) prepared _ s).bind fun tally _ => ?_
  rw [← append_nil (deletePlan keys)]
  exact (deleteKeysAndRelated_follows keys).bind fun _ _ => Follows.pure _

lemma keysToDelete_follows (mode : ClassificationImportMode) (prepared : List PreparedImportEntry) :
    Follows (run.fails store) (run.effect taxonomyVersion) (keysToDelete run mode prepared) s
      (keyPlan mode) := by
  cases mode with
  | merge => exact Follows.pure _
  | replace => exact follows_read rfl rfl

/-- The keys to delete are read before anything is written. -/
lemma keysToDelete_ok {mode : ClassificationImportMode} {prepared : List PreparedImportEntry} {keys : List String}
    (h : keysToDelete run mode prepared s = (.ok keys, t)) : keys = deletedKeys mode prepared s := by
  cases mode with
  | merge =>
    cases h
    rfl
  | replace =>
    cases returns_of_statement h
    rfl

lemma effects_keyPlan (mode : ClassificationImportMode) :
    effects (run.effect taxonomyVersion) (keyPlan mode) s = s := by
  cases mode <;> rfl

/-- **An import that is no dry run follows its plan.** -/
theorem importBundle_follows (hreal : request.dryRun = false) :
    Follows (run.fails store) (run.effect request.bundle.taxonomyVersion) (importBundle run request) store
      (importPlan run request store) := by
  rw [importBundle, importPlan, readPlan, cons_append, ← singleton_append]
  refine listExistingDomainRows_follows.bind fun existing hexisting => ?_
  rw [listExistingDomainRows_ok hexisting, Option.getD_some]
  refine (keysToDelete_follows _ _).bind fun keys hkeys => ?_
  rw [keysToDelete_ok hkeys, effects_keyPlan, tallyImport, hreal, if_neg Bool.false_ne_true,
    ← append_nil (_ ++ deletePlan _)]
  exact (writeImport_follows existing _ _).bind fun _ _ => Follows.pure _

end OpenDefender.Admin
