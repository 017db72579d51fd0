import OpenDefender.System.BundleImport

/-!
The flush of classifications (`flush` of `services/admin-api/src/classifications.rs`). In the scope `prefix`
the keys are those of a `LIKE` query, the prefix put into the pattern as it is: `flush_prefix_iff` says for
which prefixes this is right.
-/

namespace OpenDefender.System.Flush

open Admin BundleImport Lib Lib.Script Text FirstMatch Wildcard List

/-- `ClassificationFlushScope`. -/
inductive FlushScope where
  | all
  | keys
  | withPrefix
  deriving DecidableEq, Repr

/-- `flush_scope_label`. -/
def flushScopeLabel : FlushScope → String
  | .all => "all"
  | .keys => "keys"
  | .withPrefix => "prefix"

/-- `ClassificationFlushRequest`. -/
structure ClassificationFlushRequest where
  scope : FlushScope
  keys : Option (List String)
  rawPrefix : Option String
  dryRun : Bool
  deriving DecidableEq, Repr

/-- `ClassificationFlushResponse`. -/
structure ClassificationFlushResponse where
  scope : String
  dryRun : Bool
  matched : ℕ
  deleted : ℕ
  invalidKeys : List String
  deriving DecidableEq, Repr

/-- A refusal with status 400. -/
def badRequest (errorCode message : String) : ImportFailure :=
  .answered { status := 400, errorCode, message }

/-- The prefix of the keys to delete. -/
def flushPrefix (rawPrefix : String) : Except ImportFailure String :=
  let trimmed := toAsciiLowercase (trim rawPrefix)
  let keyPrefix := if (stripPrefix "domain:" trimmed).isSome then trimmed else "domain:" ++ trimmed
  if keyPrefix = "domain:" then .error (badRequest "INVALID_PREFIX" "prefix cannot be empty") else .ok keyPrefix

/-- The canonical keys of those provided, and the others. -/
def flushKeys (services : ClassificationServices) (provided : List String) :
    Except ImportFailure (List String × List String) :=
  let valid := fun value => (parseNormalizedKey value).isSome
  let canonical := (provided.filter valid).map services.canonicalizeKey
  if provided.isEmpty then .error (badRequest "INVALID_KEYS" "keys must not be empty")
  else if canonical.isEmpty then .error (badRequest "INVALID_KEYS" "no valid domain/subdomain keys provided")
  else .ok ((canonical.insertionSort (· ≤ ·)).dedup, provided.filter fun value => !valid value)

/-- `list_existing_domain_keys`. -/
def existingDomainKeys (store : ClassificationStore) : List String :=
  (store.classifications.map (·.normalizedKey)).filter isDomainKey

/-- `list_existing_domain_keys_with_prefix`. -/
def existingKeysWithPrefix (texts : DatabaseTexts) (keyPrefix : String) (store : ClassificationStore) : List String :=
  sortBy texts.sortKey ((store.classifications.map (·.normalizedKey)).filter (like (keyPrefix ++ "%")))

/-- The keys a flush is about, and those of the request that are not valid. -/
def flushedKeys (run : ImportRun) (texts : DatabaseTexts) (request : ClassificationFlushRequest) :
    ImportScript (List String × List String) :=
  match request.scope with
  | .all => run.statement .listKeys (read fun store => (existingDomainKeys store, []))
  | .keys => ofExcept (flushKeys run.services (request.keys.getD []))
  | .withPrefix =>
    match flushPrefix (request.rawPrefix.getD "") with
    | .error failure => fail failure
    | .ok keyPrefix => run.statement .listKeys (read fun store => (existingKeysWithPrefix texts keyPrefix store, []))

/-- The deletion of a flush, with the number of classifications deleted. -/
def deleteFlushed (run : ImportRun) (dryRun : Bool) (keys : List String) : ImportScript ℕ :=
  if dryRun || keys.isEmpty then pure 0
  else do
    let deleted ← read fun store => (store.classifications.filter fun row => row.normalizedKey ∈ keys).length
    deleteKeysAndRelated run keys
    pure deleted

/-- `flush`, for a user who may edit policies. -/
def flush (run : ImportRun) (texts : DatabaseTexts) (request : ClassificationFlushRequest) :
    ImportScript ClassificationFlushResponse := do
  let (keys, invalidKeys) ← flushedKeys run texts request
  let deleted ← deleteFlushed run request.dryRun keys
  pure
    { scope := flushScopeLabel request.scope
      dryRun := request.dryRun
      matched := keys.length
      deleted
      invalidKeys }

/-- The request to delete the keys with a prefix. -/
def prefixRequest (rawPrefix : String) : ClassificationFlushRequest where
  scope := .withPrefix
  keys := none
  rawPrefix := some rawPrefix
  dryRun := false

variable {run : ImportRun} {texts : DatabaseTexts} {rawPrefix keyPrefix taxonomyVersion : String}
  {store s : ClassificationStore} {row : StoredClassification} {keys : List String}

/-! ### The statements of a flush -/

lemma deleteFlushed_follows :
    Follows (run.fails store) (run.effect taxonomyVersion) (deleteFlushed run false keys) s (deletePlan keys) := by
  rw [deleteFlushed, Bool.false_or]
  split_ifs with hempty
  · rw [deletePlan, if_pos hempty]
    exact Follows.pure _
  · have hdelete : Follows (run.fails store) (run.effect taxonomyVersion)
        (deleteKeysAndRelated run keys >>= fun _ =>
          pure (s.classifications.filter fun row => row.normalizedKey ∈ keys).length) s (deletePlan keys ++ []) :=
      (deleteKeysAndRelated_follows keys).bind fun _ _ => Follows.pure _
    rw [append_nil] at hdelete
    exact ⟨hdelete.ok, hdelete.error⟩

/-- **A flush follows its plan**: the query for the keys, then their deletion. -/
lemma flush_follows (hkeyPrefix : flushPrefix rawPrefix = .ok keyPrefix) :
    Follows (run.fails store) (run.effect taxonomyVersion) (flush run texts (prefixRequest rawPrefix)) store
      (.listKeys :: deletePlan (existingKeysWithPrefix texts keyPrefix store)) := by
  have hkeys : flushedKeys run texts (prefixRequest rawPrefix) =
      run.statement .listKeys (read fun store => (existingKeysWithPrefix texts keyPrefix store, [])) := by
    simp only [flushedKeys, prefixRequest, Option.getD_some, hkeyPrefix]
  rw [flush, hkeys, ← append_nil (deletePlan _), ← singleton_append]
  refine (follows_read rfl rfl).bind fun found hfound => ?_
  have hread := returns_of_statement hfound
  obtain rfl := Except.ok.inj (Prod.mk.inj hread).1
  exact deleteFlushed_follows.bind fun _ _ => Follows.pure _

/-- The classifications after the plan. -/
lemma classifications_of_plan :
    (effects (run.effect taxonomyVersion) (.listKeys :: deletePlan keys) store).classifications =
      store.classifications.filter fun row => row.normalizedKey ∉ keys := by
  rw [deletePlan]
  split_ifs with hempty
  · rw [isEmpty_iff.1 hempty]
    exact (filter_eq_self.2 fun row _ => by simp).symm
  · rfl

lemma mem_existingKeysWithPrefix (h : row ∈ store.classifications) :
    row.normalizedKey ∈ existingKeysWithPrefix texts keyPrefix store ↔
      like (keyPrefix ++ "%") row.normalizedKey = true := by
  rw [existingKeysWithPrefix, mem_sortBy, mem_filter]
  exact and_iff_right (mem_map_of_mem h)

/-- What is left: the classifications whose key does not fit the pattern. -/
lemma mem_after_plan :
    row ∈ (effects (run.effect taxonomyVersion)
        (.listKeys :: deletePlan (existingKeysWithPrefix texts keyPrefix store)) store).classifications ↔
      row ∈ store.classifications ∧ ¬like (keyPrefix ++ "%") row.normalizedKey = true := by
  rw [classifications_of_plan, mem_filter, decide_eq_true_eq]
  exact and_congr_right fun hrow => not_congr (mem_existingKeysWithPrefix hrow)

/-- **Flushing by prefix.** Whatever the tables hold and whichever statements fail, a flush that returns has deleted
exactly the classifications whose key starts with the prefix, if and only if the prefix has no character that `LIKE` does
not read as itself. -/
theorem flush_prefix_iff (run : ImportRun) (texts : DatabaseTexts) (rawPrefix keyPrefix : String)
    (hkeyPrefix : flushPrefix rawPrefix = .ok keyPrefix) :
    (∀ failing store response after,
        flush { run with failing } texts (prefixRequest rawPrefix) store = (.ok response, after) →
        ∀ row, row ∈ after.classifications ↔
          row ∈ store.classifications ∧ ¬∃ rest, row.normalizedKey = keyPrefix ++ rest) ↔
      ∀ c ∈ keyPrefix.toList, isPlain c = true := by
  constructor
  · -- the shortest key that fits the pattern is deleted
    intro h
    set key := String.ofList (shortest 'a' (likeTokens (keyPrefix.toList ++ ['%'])))
    have hlike : like (keyPrefix ++ "%") key = true := by
      simp only [like, key, String.toList_append, String.toList_ofList]
      exact accepts_shortest 'a' (likeTokens (keyPrefix.toList ++ ['%']))
    let store : ClassificationStore := ⟨[emptyRow 1 key], [], [], []⟩
    let run' : ImportRun := { run with failing := fun _ => none }
    have hfollows : Follows (run'.fails store) (run'.effect "") (flush run' texts (prefixRequest rawPrefix)) store _ :=
      flush_follows hkeyPrefix
    obtain ⟨response, hrun⟩ := hfollows.ok fun statement hstatement => by
      rcases mem_cons.1 hstatement with rfl | hdelete
      · rfl
      · rcases mem_deletePlan hdelete with rfl | rfl | rfl <;> rfl
    have hgone := (h _ store response _ hrun (emptyRow 1 key)).not.1 fun hmem => (mem_after_plan.1 hmem).2 hlike
    obtain ⟨rest, hrest⟩ : ∃ rest, key = keyPrefix ++ rest := by
      by_contra hnone
      exact hgone ⟨mem_singleton_self _, hnone⟩
    refine (shortest_percent (x := 'a') (by decide) keyPrefix.toList).2 ⟨rest.toList, ?_⟩
    rw [← String.toList_append, ← hrest, String.toList_ofList]
  · intro hplain failing store response after hrun row
    have hfollows : Follows _ (ImportRun.effect _ "") (flush { run with failing } texts (prefixRequest rawPrefix)) store _ :=
      flush_follows hkeyPrefix
    obtain ⟨-, rfl⟩ := hfollows.of_ok hrun
    rw [mem_after_plan, like_plain_percent hplain]

/-- The order of texts by code points. -/
def codePoints : DatabaseTexts where
  sortKey := fun text => text.toList.map Char.toNat
  lower := toAsciiLowercase

/-- A prefix with a dot. -/
theorem flush_dotted_prefix :
    flushPrefix " Shop.Example " = .ok "domain:shop.example" ∧
      ∀ failing store response after,
        flush { importWith (fun _ => none) with failing } codePoints (prefixRequest " Shop.Example ") store =
          (.ok response, after) →
        ∀ row, row ∈ after.classifications ↔
          row ∈ store.classifications ∧ ¬∃ rest, row.normalizedKey = "domain:shop.example" ++ rest := by
  have hkeyPrefix : flushPrefix " Shop.Example " = .ok "domain:shop.example" := by decide +kernel
  exact ⟨hkeyPrefix, (flush_prefix_iff (importWith fun _ => none) codePoints _ _ hkeyPrefix).2 (by simp [isPlain])⟩

/-- The underscore of the prefix `api_v1` is read as any character: a flush deletes the classification of
`api-v1.example.com`. -/
theorem flush_with_underscore :
    let (answer, after) := flush (importWith fun _ => none) codePoints (prefixRequest "api_v1")
      ⟨[emptyRow 1 "domain:api-v1.example.com"], [], [], []⟩
    answer.toOption.map (·.deleted) = some 1 ∧ after.classifications.map (·.normalizedKey) = [] ∧
      flushPrefix "api_v1" = .ok "domain:api_v1" ∧
      stripPrefix "domain:api_v1" "domain:api-v1.example.com" = none := by
  decide +kernel

end OpenDefender.System.Flush
