import OpenDefender.Common.Classifications
import OpenDefender.Common.Streams

/-!
`process_job` of the page fetcher (`workers/page-fetcher/src/main.rs`): a job is skipped if one with its
idempotency key has been completed, if there is fresh content for its key, or if the last fetch failed not
long ago. Otherwise its URLs are tried in order, and the first page or the failure is stored.

The crawler, DNS and `url::Url::parse` are parameters; the text of a page is left out. Every call to Redis
and to the database may fail, and has a time of its own (microseconds).

* `processes_processJob` lists what can become of a job.
-/

namespace OpenDefender.Fetcher

open Lib Text

/-! ### The tables -/

/-- A row of `page_contents`, without the page. -/
structure FetchRow where
  normalizedKey : String
  fetchVersion : ℤ
  fetchStatus : String
  fetchReason : String
  fetchedAt : ℕ
  expiresAt : ℤ
  deriving DecidableEq, Repr

/-- `WorkerConfig`, as far as `process_job` reads it. -/
structure FetchConfig where
  ttlSeconds : ℤ
  pageContentMaxVersionsPerKey : ℕ
  idempotencyTtlSeconds : ℕ
  terminalRetryCooldownSeconds : ℕ
  blockedRetryCooldownSeconds : ℕ
  unsupportedRetryCooldownSeconds : ℕ
  unsupportedHostAllowlist : List String
  one_le_versions : 1 ≤ pageContentMaxVersionsPerKey

/-- A marker in Redis, with the time at which it goes away. -/
structure Marker where
  key : String
  expiresAt : ℕ
  deriving DecidableEq, Repr

/-- What the fetcher has outside. -/
structure FetchStore where
  markers : List Marker
  contents : List FetchRow
  deriving DecidableEq, Repr

/-- A second, in microseconds. -/
def micros : ℕ := 1000000

/-! ### When a job is skipped -/

/-- `page_fetch_idempotency_key`. -/
def pageFetchIdempotencyKey (job : PageFetchJob) : String :=
  (job.idempotencyKey.filter fun value => !(trim value).isEmpty).getD
    (job.normalizedKey ++ ":" ++ job.url ++ ":" ++ job.traceId.getD "none")

/-- `idempotency_key_seen`. -/
def FetchStore.keySeen (store : FetchStore) (now : ℕ) (idempotencyKey : String) : Bool :=
  store.markers.any fun marker => marker.key = idempotencyKey ∧ now < marker.expiresAt

/-- `content_fresh`. -/
def FetchStore.contentFresh (store : FetchStore) (now : ℕ) (normalizedKey : String) : Bool :=
  store.contents.any fun row =>
    row.normalizedKey = normalizedKey ∧ (now : ℤ) < row.expiresAt ∧
      toAsciiLowercase row.fetchStatus = "ok"

/-- The last fetch of a key (`ORDER BY fetched_at DESC LIMIT 1`). -/
def FetchStore.newestFetch (store : FetchStore) (normalizedKey : String) : Option FetchRow :=
  let rows := store.contents.filter fun row => row.normalizedKey = normalizedKey
  rows.find? fun row => rows.all fun other => other.fetchedAt ≤ row.fetchedAt

/-- The age of a row in seconds, as the query rounds it. -/
def ageSeconds (now : ℕ) (row : FetchRow) : ℕ :=
  (roundHalfAway (((now : ℤ) - row.fetchedAt : ℤ) / micros)).toNat

/-- The cooldown after a fetch with this status, if there is one. -/
def FetchConfig.cooldown (cfg : FetchConfig) (status : String) : Option ℕ :=
  match status with
  | "blocked" => some cfg.blockedRetryCooldownSeconds
  | "unsupported" => some cfg.unsupportedRetryCooldownSeconds
  | "failed" => some cfg.terminalRetryCooldownSeconds
  | _ => none

/-- The row is a failure and its cooldown has not passed. -/
def FetchConfig.coolingDown (cfg : FetchConfig) (now : ℕ) (row : FetchRow) : Bool :=
  (cfg.cooldown (toAsciiLowercase row.fetchStatus)).any fun seconds => ageSeconds now row ≤ seconds

/-- `terminal_fetch_recently_recorded`. -/
def FetchConfig.terminalFetchRecentlyRecorded (cfg : FetchConfig) (store : FetchStore) (now : ℕ)
    (normalizedKey : String) : Bool :=
  (store.newestFetch normalizedKey).any (cfg.coolingDown now)

/-! ### Fetching -/

/-- `FetchFailure`. -/
structure FetchFailure where
  fetchStatus : String
  fetchReason : String
  detail : String
  deriving DecidableEq, Repr

/-- `CrawlAttempt`. -/
structure CrawlAttempt where
  url : String
  outcome : String
  reason : String
  deriving DecidableEq, Repr

/-- What the fetcher asks others while it fetches: the host of a URL, empty if it has none; DNS; and the
crawler. -/
structure FetchServices where
  parseHost : String → Option String
  resolves : String → Bool
  crawl : PageFetchJob → String → Except FetchFailure Unit

/-- `resolve_candidate_urls`: the valid ones, each once. -/
def resolveCandidateUrls (services : FetchServices) (job : PageFetchJob) : List String :=
  (job.url :: job.candidateUrls).foldl (fun deduped value =>
    if (services.parseHost value).isSome && !deduped.contains value then deduped ++ [value]
    else deduped) []

/-- `is_likely_asset_host`. -/
def isLikelyAssetHost (hostname : String) (allowlist : List String) : Bool :=
  !(allowlist.any fun allowed =>
      eqIgnoreAsciiCase hostname allowed || endsWith hostname ("." ++ allowed)) &&
    (split (· == '.') (toAsciiLowercase hostname)).any fun label =>
      label ∈ ["cdn", "cdns", "img", "images", "image", "static", "assets", "media", "js"]

/-- Where the loop over the candidates is. -/
structure Crawl where
  attempts : List CrawlAttempt
  lastFailure : Option FetchFailure
  hadCrawlAttempt : Bool
  deriving DecidableEq, Repr

/-- Nothing has been tried. -/
def Crawl.start : Crawl := { attempts := [], lastFailure := none, hadCrawlAttempt := false }

/-- One candidate: it has been fetched, which ends the loop with its URL, or the loop goes on. -/
def crawlCandidate (services : FetchServices) (cfg : FetchConfig) (job : PageFetchJob) (crawl : Crawl)
    (candidate : String) : Except String Crawl :=
  let host := (services.parseHost candidate).getD ""
  let tried (outcome reason : String) : List CrawlAttempt :=
    crawl.attempts ++ [{ url := candidate, outcome, reason }]
  if host.isEmpty then
    .ok { crawl with
      attempts := tried "failed" "invalid_candidate_host"
      lastFailure := some
        { fetchStatus := "failed"
          fetchReason := "invalid_candidate_host"
          detail := "candidate URL is missing a hostname" } }
  else if isLikelyAssetHost host cfg.unsupportedHostAllowlist then
    .ok { crawl with attempts := tried "unsupported" "asset_endpoint" }
  else if !services.resolves host then
    .ok { crawl with attempts := tried "unsupported" "dns_unresolvable" }
  else
    match services.crawl job candidate with
    | .ok () => .error candidate
    | .error failure =>
      .ok { attempts := tried failure.fetchStatus failure.fetchReason
            lastFailure := some failure
            hadCrawlAttempt := true }

/-- The loop over the candidates: `.error` with the URL of the page that has been fetched. -/
def crawlCandidates (services : FetchServices) (cfg : FetchConfig) (job : PageFetchJob) :
    Crawl → List String → Except String Crawl
  | crawl, [] => .ok crawl
  | crawl, candidate :: rest => do
    let crawl ← crawlCandidate services cfg job crawl candidate
    crawlCandidates services cfg job crawl rest

/-- The failure that is stored when no candidate led to a page. -/
def Crawl.failure (crawl : Crawl) : FetchFailure :=
  if !crawl.hadCrawlAttempt && !crawl.attempts.isEmpty &&
      crawl.attempts.all (fun attempt => attempt.reason == "dns_unresolvable") then
    { fetchStatus := "unsupported"
      fetchReason := "dns_unresolvable"
      detail := "all candidate hosts failed DNS preflight before Crawl4AI" }
  else
    crawl.lastFailure.getD
      { fetchStatus := "unsupported"
        fetchReason := "all_candidates_filtered"
        detail := "all candidate URLs were filtered as non-page endpoints" }

/-! ### Storing -/

/-- `next_version_tx`. -/
def FetchStore.nextVersion (store : FetchStore) (normalizedKey : String) : ℤ :=
  (store.contents.filter fun row => row.normalizedKey = normalizedKey).foldl
    (fun version row => max version row.fetchVersion) 0 + 1

/-- `prune_page_content_versions`: the newest versions are kept. -/
def pruneVersions (rows : List FetchRow) (normalizedKey : String) (keep : ℕ) : List FetchRow :=
  rows.filter fun row => row.normalizedKey ≠ normalizedKey ∨
    rows.countP (fun other => other.normalizedKey = normalizedKey ∧
      row.fetchVersion < other.fetchVersion) < keep

/-- The transaction of `store_content` and `store_failure`. -/
def FetchStore.insertFetch (store : FetchStore) (cfg : FetchConfig) (job : PageFetchJob)
    (status reason : String) (now : ℕ) : FetchStore :=
  { store with
    contents := pruneVersions
      (store.contents ++
        [{ normalizedKey := job.normalizedKey
           fetchVersion := store.nextVersion job.normalizedKey
           fetchStatus := status
           fetchReason := reason
           fetchedAt := now
           expiresAt := now + job.ttlSeconds.getD cfg.ttlSeconds * micros }])
      job.normalizedKey cfg.pageContentMaxVersionsPerKey }

/-- `idempotency_mark_processed`. -/
def FetchStore.markProcessed (store : FetchStore) (cfg : FetchConfig) (now : ℕ)
    (idempotencyKey : String) : FetchStore :=
  { store with
    markers := store.markers ++
      [{ key := idempotencyKey, expiresAt := now + cfg.idempotencyTtlSeconds * micros }] }

/-! ### The job -/

/-- The times of the calls of one `process_job`, and which of them fail. -/
structure FetchCalls where
  services : FetchServices
  seenAt : ℕ
  freshAt : ℕ
  cooldownAt : ℕ
  storedAt : ℕ
  markedAt : ℕ
  seenError : Option String
  freshError : Option String
  cooldownError : Option String
  storeError : Option String
  markError : Option String

/-- How `process_job` ends. -/
inductive FetchOutcome where
  | skipped
  | fetched
  | failed (error : String)
  deriving DecidableEq, Repr

/-- What `process_job` leaves. -/
structure FetchResult where
  outcome : FetchOutcome
  store : FetchStore
  records : List EntryRecord

variable (store : FetchStore) (cfg : FetchConfig) (calls : FetchCalls) (job : PageFetchJob)

/-- An error, with everything as it is. -/
def FetchStore.abort (error : String) : FetchResult :=
  { outcome := .failed error, store, records := [] }

/-- The end of a job that is done: the marker is set. -/
def FetchStore.finish (outcome : FetchOutcome) : FetchResult :=
  match calls.markError with
  | some error => store.abort error
  | none =>
    { outcome
      store := store.markProcessed cfg calls.markedAt (pageFetchIdempotencyKey job)
      records := [.completed (pageFetchIdempotencyKey job)] }

/-- The page that has been fetched from `url` is stored, and then the marker is set. -/
def FetchStore.storePage (url : String) : FetchResult :=
  let stored := store.insertFetch cfg job "ok" ((calls.services.parseHost url).getD job.hostname)
    calls.storedAt
  { stored.finish cfg calls job .fetched with
    records := [.completed (pageFetchIdempotencyKey job)] }

/-- The failure is stored, and it is the error of the job. -/
def FetchStore.storeFailure (failure : FetchFailure) : FetchResult :=
  { outcome := .failed failure.detail
    store := store.insertFetch cfg job failure.fetchStatus failure.fetchReason calls.storedAt
    records := [.recordedFailed job.normalizedKey failure.fetchStatus] }

/-- The part of `process_job` that fetches. -/
def FetchStore.fetch : FetchResult :=
  let candidates := resolveCandidateUrls calls.services job
  if candidates.isEmpty then store.abort "no valid candidate URLs in job payload"
  else
    match calls.storeError with
    | some error => store.abort error
    | none =>
      match crawlCandidates calls.services cfg job .start candidates with
      | .error url => store.storePage cfg calls job url
      | .ok crawl => store.storeFailure cfg calls job crawl.failure

/-- `process_job` for a payload that can be read. -/
def FetchStore.processJob : FetchResult :=
  match calls.seenError with
  | some error => store.abort error
  | none =>
    if store.keySeen calls.seenAt (pageFetchIdempotencyKey job) then
      { outcome := .skipped, store
        records := [.skippedDuplicate (pageFetchIdempotencyKey job)] }
    else
      match calls.freshError with
      | some error => store.abort error
      | none =>
        if store.contentFresh calls.freshAt job.normalizedKey then
          store.finish cfg calls job .skipped
        else
          match calls.cooldownError with
          | some error => store.abort error
          | none =>
            if cfg.terminalFetchRecentlyRecorded store calls.cooldownAt job.normalizedKey then
              store.finish cfg calls job .skipped
            else store.fetch cfg calls job

/-- The worker: its settings, and how jobs are read from JSON. -/
structure PageFetcher where
  cfg : FetchConfig
  decode : String → Except String PageFetchJob

/-- The worker as a consumer of its stream. -/
def PageFetcher.streamConsumer (fetcher : PageFetcher) : StreamConsumer FetchStore FetchCalls where
  parseable payload := (fetcher.decode payload).toOption.isSome
  processJob store calls payload :=
    match fetcher.decode payload with
    | .error _ => { ok := false, store, records := [] }
    | .ok job =>
      let result := store.processJob fetcher.cfg calls job
      { ok := decide (result.outcome = .skipped ∨ result.outcome = .fetched)
        store := result.store
        records := result.records }

/-! ### What can become of a job -/

/-- A call to Redis or to the database fails. -/
def FetchCalls.Faulty : Prop :=
  calls.seenError.isSome ∨ calls.freshError.isSome ∨ calls.cooldownError.isSome ∨
    calls.storeError.isSome ∨ calls.markError.isSome

/-- There is fresh content, or the last fetch failed and its cooldown has not passed. -/
def FetchStore.NeedsNoFetch (freshAt cooldownAt : ℕ) (normalizedKey : String) : Prop :=
  store.contentFresh freshAt normalizedKey = true ∨
    cfg.terminalFetchRecentlyRecorded store cooldownAt normalizedKey = true

instance (freshAt cooldownAt : ℕ) (normalizedKey : String) :
    Decidable (store.NeedsNoFetch cfg freshAt cooldownAt normalizedKey) :=
  inferInstanceAs (Decidable (_ ∨ _))

/-- What `process_job` does, by cases. -/
inductive FetchStore.Processes (store : FetchStore) (cfg : FetchConfig) (calls : FetchCalls)
    (job : PageFetchJob) : FetchResult → Prop
  | aborted (error : String)
      (hwhy : calls.Faulty ∨ resolveCandidateUrls calls.services job = []) :
      store.Processes cfg calls job (store.abort error)
  | duplicate (hseen : store.keySeen calls.seenAt (pageFetchIdempotencyKey job) = true) :
      store.Processes cfg calls job
        { outcome := .skipped, store
          records := [.skippedDuplicate (pageFetchIdempotencyKey job)] }
  | skipped (hneeds : store.NeedsNoFetch cfg calls.freshAt calls.cooldownAt job.normalizedKey) :
      store.Processes cfg calls job
        { outcome := .skipped
          store := store.markProcessed cfg calls.markedAt (pageFetchIdempotencyKey job)
          records := [.completed (pageFetchIdempotencyKey job)] }
  | fetched (url : String) :
      store.Processes cfg calls job (store.storePage cfg calls job url)
  | failed (failure : FetchFailure) :
      store.Processes cfg calls job (store.storeFailure cfg calls job failure)

variable {store : FetchStore} {cfg : FetchConfig} {calls : FetchCalls} {job : PageFetchJob}

lemma processes_finish
    (hneeds : store.NeedsNoFetch cfg calls.freshAt calls.cooldownAt job.normalizedKey) :
    store.Processes cfg calls job (store.finish cfg calls job .skipped) := by
  rw [FetchStore.finish]
  split
  · rename_i error hmark
    exact .aborted error (Or.inl (by simp [FetchCalls.Faulty, hmark]))
  · exact .skipped hneeds

lemma processes_fetch : store.Processes cfg calls job (store.fetch cfg calls job) := by
  rw [FetchStore.fetch]
  split_ifs with hempty
  · exact .aborted _ (Or.inr (List.isEmpty_iff.1 hempty))
  split
  · rename_i error hstore
    exact .aborted error (Or.inl (by simp [FetchCalls.Faulty, hstore]))
  · split
    · exact .fetched _
    · exact .failed _

/-- **What can become of a job** of the page fetcher. -/
lemma processes_processJob (store : FetchStore) (cfg : FetchConfig) (calls : FetchCalls)
    (job : PageFetchJob) : store.Processes cfg calls job (store.processJob cfg calls job) := by
  rw [FetchStore.processJob]
  split
  · rename_i error herror
    exact .aborted error (Or.inl (by simp [FetchCalls.Faulty, herror]))
  by_cases hseen : store.keySeen calls.seenAt (pageFetchIdempotencyKey job) = true
  · rw [if_pos hseen]
    exact .duplicate hseen
  rw [if_neg hseen]
  split
  · rename_i error herror
    exact .aborted error (Or.inl (by simp [FetchCalls.Faulty, herror]))
  by_cases hfresh : store.contentFresh calls.freshAt job.normalizedKey = true
  · rw [if_pos hfresh]
    exact processes_finish (Or.inl hfresh)
  rw [if_neg hfresh]
  split
  · rename_i error herror
    exact .aborted error (Or.inl (by simp [FetchCalls.Faulty, herror]))
  by_cases hcooling : cfg.terminalFetchRecentlyRecorded store calls.cooldownAt job.normalizedKey = true
  · rw [if_pos hcooling]
    exact processes_finish (Or.inr hcooling)
  · rw [if_neg hcooling]
    exact processes_fetch

/-! ### A fetcher with its defaults -/

/-- The defaults of `WorkerConfig`. -/
def defaultFetchConfig : FetchConfig where
  ttlSeconds := 21600
  pageContentMaxVersionsPerKey := 30
  idempotencyTtlSeconds := 86400
  terminalRetryCooldownSeconds := 1200
  blockedRetryCooldownSeconds := 14400
  unsupportedRetryCooldownSeconds := 21600
  unsupportedHostAllowlist := []
  one_le_versions := by decide

/-- A job at one moment, for a site that is there; the database may refuse the page. -/
def fetchCallsAt (now : ℕ) (storeError : Option String) : FetchCalls where
  services :=
    { parseHost := fun _ => some "site.example"
      resolves := fun _ => true
      crawl := fun _ _ => .ok () }
  seenAt := now
  freshAt := now
  cooldownAt := now
  storedAt := now
  markedAt := now
  seenError := none
  freshError := none
  cooldownError := none
  storeError := storeError
  markError := none

end OpenDefender.Fetcher
