import OpenDefender.Worker.Queue

/-!
The pending reconciler (`reconcile_once` of `workers/llm-worker/src/main.rs`): requests that have waited for
content too long are removed if their key has been classified, and sent to both streams again otherwise.

`url::Url` is a parameter.
-/

namespace OpenDefender.Worker

open Lib Text

/-- A parsed URL: its host and path, its text, and its text after `set_path("/")`. -/
structure ParsedUrl where
  host : Option String
  path : String
  text : String
  rooted : String
  deriving DecidableEq, Repr

/-- `parse_normalized_key_parts`. -/
def parseNormalizedKeyParts (normalizedKey : String) : Option (String × String) :=
  match stripPrefix "domain:" normalizedKey with
  | some rest => some ("domain", rest)
  | none => (stripPrefix "subdomain:" normalizedKey).map fun rest => ("subdomain", rest)

/-- `normalize_base_url`. -/
def normalizeBaseUrl (parse : String → Option ParsedUrl) (value : String) : Option String :=
  if (trim value).isEmpty then none
  else (parse (trim value)).map fun url => if url.path.isEmpty then url.rooted else url.text

/-- What `derive_urls` returns. -/
structure DerivedUrls where
  hostname : String
  fullUrl : String
  baseUrl : String
  deriving DecidableEq, Repr

/-- `derive_urls`. -/
def deriveUrls (parse : String → Option ParsedUrl) (keyValue : String) (baseUrl : Option String) :
    DerivedUrls :=
  match baseUrl.bind (normalizeBaseUrl parse) with
  | some base => { hostname := ((parse base).bind (·.host)).getD keyValue, fullUrl := base, baseUrl := base }
  | none =>
    let fallback := "https://" ++ keyValue ++ "/"
    { hostname := keyValue, fullUrl := fallback, baseUrl := fallback }

/-- `PendingReconcileRuntime`, as far as one cycle reads it, and the parser of URLs. -/
structure Reconciler where
  staleMinutes : ℕ
  batch : ℕ
  parse : String → Option ParsedUrl

/-- The requests of a cycle, the oldest first; times are in microseconds. -/
def Reconciler.staleRows (reconciler : Reconciler) (rows : List RequestRow) (now : ℕ) :
    List RequestRow :=
  let minutes := Int.bmod reconciler.staleMinutes (2 ^ 32)
  ((rows.filter fun row => row.status = "waiting_content" ∧
    (row.updatedAt : ℤ) ≤ now - minutes * 60000000).insertionSort
      fun a b => a.updatedAt ≤ b.updatedAt).take reconciler.batch

/-- What a cycle does with a request. -/
inductive Reconciliation where
  | clear
  | invalid
  | enqueue (job : ClassificationJobPayload) (fetchJob : PageFetchJob) (baseUrl : String)
  deriving DecidableEq, Repr

/-- The page fetch of a request that is sent again. -/
def Reconciliation.fetchJob? : Reconciliation → Option PageFetchJob
  | .clear => none
  | .invalid => none
  | .enqueue _ fetchJob _ => some fetchJob

/-- The jobs for a request that is sent again. The trace id is new, and the idempotency key of the page
fetch is made of the key and the URL alone. -/
def reconciledJobs (normalizedKey entityLevel traceId : String) (urls : DerivedUrls) : Reconciliation :=
  .enqueue
    { normalizedKey
      entityLevel
      hostname := urls.hostname
      fullUrl := urls.fullUrl
      traceId
      idempotencyKey := some ("cls:" ++ normalizedKey ++ ":" ++ traceId)
      requiresContent := true
      baseUrl := some urls.baseUrl }
    { normalizedKey
      url := urls.fullUrl
      hostname := urls.hostname
      candidateUrls := [urls.baseUrl]
      traceId := some traceId
      idempotencyKey := some ("page:" ++ normalizedKey ++ ":" ++ urls.baseUrl)
      ttlSeconds := none }
    urls.baseUrl

/-- The body of the loop of `reconcile_once`, with the answer of `is_classified`. -/
def Reconciler.reconcile (reconciler : Reconciler) (classified : Bool) (row : RequestRow)
    (traceId : String) : Reconciliation :=
  if classified then .clear
  else
    match parseNormalizedKeyParts row.normalizedKey with
    | none => .invalid
    | some (entityLevel, keyValue) =>
      reconciledJobs row.normalizedKey entityLevel traceId
        (deriveUrls reconciler.parse keyValue row.baseUrl)

/-- What is written to the table of requests. -/
def Reconciliation.apply (reconciliation : Reconciliation) (rows : List RequestRow)
    (normalizedKey : String) (now : ℕ) : List RequestRow :=
  match reconciliation with
  | .clear => deleteRequest rows normalizedKey
  | .invalid =>
    rows.map fun row =>
      if row.normalizedKey = normalizedKey then
        { row with lastError := some "invalid normalized key", updatedAt := now }
      else row
  | .enqueue _ _ baseUrl =>
    rows.map fun row =>
      if row.normalizedKey = normalizedKey then
        { row with updatedAt := now, lastError := none, baseUrl := some baseUrl }
      else row

/-- Only a request that is cleared goes away. -/
lemma mem_requestKeys_apply {reconciliation : Reconciliation} (rows : List RequestRow)
    (normalizedKey : String) (now : ℕ) (hkey : key ∈ requestKeys rows)
    (hkept : reconciliation = .clear → key ≠ normalizedKey) :
    key ∈ requestKeys (reconciliation.apply rows normalizedKey now) := by
  cases reconciliation with
  | clear => exact (mem_requestKeys_deleteRequest rows normalizedKey key).2 ⟨hkey, hkept rfl⟩
  | invalid =>
    rw [Reconciliation.apply, requestKeys_update]
    · exact hkey
    · exact fun _ => rfl
  | enqueue job fetchJob baseUrl =>
    rw [Reconciliation.apply, requestKeys_update]
    · exact hkey
    · exact fun _ => rfl

/-- Only the request of a classified key is cleared. -/
lemma classified_of_clear {reconciler : Reconciler}
    (h : reconciler.reconcile classified row traceId = .clear) : classified = true := by
  rw [Reconciler.reconcile] at h
  split at h
  · assumption
  · split at h
    · cases h
    · cases h

end OpenDefender.Worker
