import OpenDefender.Common.Requests
import OpenDefender.Common.Streams
import OpenDefender.Worker.Invocation

/-!
The queue side of the classification worker (`process_job` and `requeue` of
`workers/llm-worker/src/main.rs`): a job is skipped if one with its idempotency key has been completed,
put back into the stream if its handler asks for another try, and recorded as failed otherwise.

What `handle_job` does is in `Worker.Handler`; here it is an answer from outside, with what it leaves of
the requests. The other calls to Redis and to the database may each fail.

* `processes_processJob` lists what can become of a job that can be read.
-/

namespace OpenDefender.Worker

open Lib Text

/-- `classification_idempotency_key`. -/
def classificationIdempotencyKey (job : ClassificationJobPayload) : String :=
  (job.idempotencyKey.filter fun value => !(trim value).isEmpty).getD
    (job.normalizedKey ++ ":" ++ job.fullUrl ++ ":" ++ job.traceId)

/-- The text of an error. -/
def JobError.display : JobError → String
  | .retryable reason => reason
  | .nonRetryable reason => reason
  | .contentNotReady => "page content not ready"
  | .other message => message

/-- The errors after which a job is put back into the stream. -/
def JobError.shouldRequeue : JobError → Bool
  | .retryable _ => true
  | .contentNotReady => true
  | .nonRetryable _ => false
  | .other _ => false

/-- What a worker has outside: the markers of completed jobs in Redis, the table of requests, and what it
has added to the two streams. -/
structure QueueStore where
  markers : List String
  requests : List RequestRow
  jobs : List String
  fetchJobs : List PageFetchJob
  deriving DecidableEq, Repr

/-- What becomes of an `XADD`. One that fails may have added its entry all the same. -/
inductive XaddOutcome where
  | added
  | failed (error : String) (added : Bool)
  deriving DecidableEq, Repr

/-- What the calls of one `process_job` are answered: the check of the marker, the handler with what it
leaves of the requests, the new marker, the two `XADD`s of `requeue`, and `mark_pending`. -/
structure JobCalls where
  seenError : Option String
  handled : Except JobError Unit
  handlerRequests : List RequestRow → List RequestRow
  markError : Option String
  requeued : XaddOutcome
  fetchPublished : Bool
  pendingError : Option String
  now : ℕ

/-- `DEFAULT_JOB_REQUEUE_MAX_ATTEMPTS`. -/
def defaultJobRequeueMaxAttempts : ℕ := 6

/-- The settings of the queue side of `JobConsumer`, and how jobs are written as JSON. -/
structure QueueConsumer where
  maxRequeueAttempts : ℕ
  one_le_attempts : 1 ≤ maxRequeueAttempts
  attempts_lt : maxRequeueAttempts < 2 ^ 64
  decode : String → Except String ClassificationJobPayload
  encode : ClassificationJobPayload → Except String String

variable (consumer : QueueConsumer) (store : QueueStore) (calls : JobCalls)

/-- `mark_pending` with status `failed`, whose errors are ignored. -/
def QueueStore.markFailed (job : ClassificationJobPayload)
    (message : String) : QueueStore × List EntryRecord :=
  if calls.pendingError.isSome then (store, [])
  else
    ({ store with
        requests := upsertRequest store.requests job.normalizedKey "failed"
          (job.baseUrl.or (some job.fullUrl)) (some message) calls.now },
      [.recordedFailed job.normalizedKey "failed"])

/-- `handle_job`, which reads the payload first. -/
def QueueConsumer.handleJob (payload : String) : Except JobError Unit × QueueStore :=
  match consumer.decode payload with
  | .error message => (.error (.other message), store)
  | .ok _ => (calls.handled, { store with requests := calls.handlerRequests store.requests })

/-- The job that is put back: `usize::saturating_add` on the counter. -/
def ClassificationJobPayload.nextAttempt (job : ClassificationJobPayload) : ClassificationJobPayload :=
  { job with requeueAttempt := min (job.requeueAttempt + 1) (2 ^ 64 - 1) }

variable (payload : String) (hint : Option ClassificationJobPayload)

/-- The text that is put back. -/
def QueueConsumer.outbound : String :=
  match hint with
  | none => payload
  | some job =>
    match consumer.encode job.nextAttempt with
    | .ok text => text
    | .error _ => payload

/-- The page fetch that goes with a job that is put back. -/
def ClassificationJobPayload.fetchJob (job : ClassificationJobPayload) : PageFetchJob where
  normalizedKey := job.normalizedKey
  url := job.fullUrl
  hostname := job.hostname
  candidateUrls := job.baseUrl.toList
  traceId := some job.traceId
  idempotencyKey := some ("page:" ++ job.normalizedKey ++ ":" ++ job.traceId)
  ttlSeconds := none

/-- `requeue`: its error, if it has one. -/
def QueueConsumer.requeue : Option String × QueueStore × List EntryRecord :=
  let text := consumer.outbound payload hint
  match calls.requeued with
  | .failed error false => (some error, store, [])
  | .failed error true => (some error, { store with jobs := store.jobs ++ [text] }, [.requeued text])
  | .added =>
    let fetches := if calls.fetchPublished then
      ((hint.filter (·.requiresContent)).map (·.fetchJob)).toList else []
    (none, { store with jobs := store.jobs ++ [text], fetchJobs := store.fetchJobs ++ fetches },
      [.requeued text])

/-- What `process_job` does after its handler has failed. -/
def QueueConsumer.settleFailure (err : JobError) : QueueStore × List EntryRecord :=
  let failed (store : QueueStore) (message : String) : QueueStore × List EntryRecord :=
    match hint with
    | none => (store, [])
    | some job => store.markFailed calls job message
  if !err.shouldRequeue then failed store err.display
  else if hint.any fun job => decide (consumer.maxRequeueAttempts ≤ job.requeueAttempt) then
    failed store ("retry exhausted after " ++ toString consumer.maxRequeueAttempts ++
      " queue requeues: " ++ err.display)
  else
    match consumer.requeue store calls payload hint with
    | (none, store, records) => (store, records)
    | (some error, store, records) =>
      let marked := failed store ("requeue publish failed: " ++ error)
      (marked.1, records ++ marked.2)

/-- `idempotency_mark_processed`, whose errors are ignored. -/
def QueueStore.markProcessed : QueueStore :=
  match hint with
  | none => store
  | some job =>
    if calls.markError.isSome then store
    else { store with markers := store.markers ++ [classificationIdempotencyKey job] }

/-- The job is recognised as one that has been completed before. An error of the check counts as no. -/
def QueueStore.isDuplicate : Bool :=
  hint.any fun job =>
    calls.seenError.isNone && store.markers.contains (classificationIdempotencyKey job)

/-- The records of a job, by its idempotency key. -/
def keyRecord (record : String → EntryRecord) (hint : Option ClassificationJobPayload) :
    List EntryRecord :=
  (hint.map fun job => record (classificationIdempotencyKey job)).toList

/-- `process_job`. -/
def QueueConsumer.processJob : JobResult QueueStore :=
  let hint := (consumer.decode payload).toOption
  if store.isDuplicate calls hint then
    { ok := true, store, records := keyRecord .skippedDuplicate hint }
  else
    match consumer.handleJob store calls payload with
    | (.ok (), store) =>
      { ok := true, store := store.markProcessed calls hint, records := keyRecord .completed hint }
    | (.error err, store) =>
      let settled := consumer.settleFailure store calls payload hint err
      { ok := false, store := settled.1, records := settled.2 }

/-- The worker as a consumer of its stream. -/
def QueueConsumer.streamConsumer : StreamConsumer QueueStore JobCalls where
  parseable payload := (consumer.decode payload).toOption.isSome
  processJob := consumer.processJob

/-! ### What can become of a job -/

/-- What `process_job` does with a job, by cases; `text` is what it would put back. -/
inductive QueueConsumer.Processes (consumer : QueueConsumer) (store : QueueStore) (calls : JobCalls)
    (job : ClassificationJobPayload) (text : String) : JobResult QueueStore → Prop
  | duplicate (hseen : classificationIdempotencyKey job ∈ store.markers) :
      consumer.Processes store calls job text
        { ok := true, store, records := [.skippedDuplicate (classificationIdempotencyKey job)] }
  | completed {store' : QueueStore} (hhandled : calls.handled = .ok ())
      (hjobs : store'.jobs = store.jobs)
      (hmarkers : store'.markers = store.markers ∨
        store'.markers = store.markers ++ [classificationIdempotencyKey job]) :
      consumer.Processes store calls job text
        { ok := true, store := store', records := [.completed (classificationIdempotencyKey job)] }
  | requeued {store' : QueueStore} {more : List EntryRecord}
      (hattempt : job.requeueAttempt < consumer.maxRequeueAttempts)
      (hjobs : store'.jobs = store.jobs ++ [text]) (hmarkers : store'.markers = store.markers)
      (hmore : more ⊆ [.recordedFailed job.normalizedKey "failed"]) :
      consumer.Processes store calls job text
        { ok := false, store := store', records := .requeued text :: more }
  | failed {store' : QueueStore} (hjobs : store'.jobs = store.jobs)
      (hmarkers : store'.markers = store.markers)
      (hrow : (requestOf store'.requests job.normalizedKey).map (·.status) = some "failed") :
      consumer.Processes store calls job text
        { ok := false, store := store'
          records := [.recordedFailed job.normalizedKey "failed"] }
  | unrecorded {store' : QueueStore} (hfault : calls.pendingError.isSome)
      (hjobs : store'.jobs = store.jobs) (hmarkers : store'.markers = store.markers) :
      consumer.Processes store calls job text { ok := false, store := store', records := [] }

variable {consumer : QueueConsumer} {store : QueueStore} {calls : JobCalls}
  {job : ClassificationJobPayload} {payload text : String}

/-- A job that has not been completed leaves the markers alone. -/
lemma QueueConsumer.Processes.markers (h : consumer.Processes store calls job text result)
    (hok : result.ok = false) : result.store.markers = store.markers := by
  cases h with
  | duplicate => cases hok
  | completed => cases hok
  | requeued _ _ hmarkers => exact hmarkers
  | failed _ hmarkers => exact hmarkers
  | unrecorded _ _ hmarkers => exact hmarkers

/-- A failure that is written, unless that fails too. -/
lemma processes_markFailed {store' : QueueStore} (hjobs : store'.jobs = store.jobs)
    (hmarkers : store'.markers = store.markers) (message : String) :
    consumer.Processes store calls job text
      { ok := false
        store := (store'.markFailed calls job message).1
        records := (store'.markFailed calls job message).2 } := by
  rw [QueueStore.markFailed]
  split_ifs with hfault
  · exact .unrecorded hfault hjobs hmarkers
  · refine .failed hjobs hmarkers ?_
    obtain ⟨row, hrow, hstatus, -⟩ := requestOf_upsertRequest store'.requests job.normalizedKey
      "failed" (job.baseUrl.or (some job.fullUrl)) (some message) calls.now
    rw [hrow, ← hstatus]
    rfl

lemma jobs_markFailed (store : QueueStore) (calls : JobCalls) (job : ClassificationJobPayload)
    (message : String) : (store.markFailed calls job message).1.jobs = store.jobs := by
  rw [QueueStore.markFailed]
  split_ifs <;> rfl

lemma markers_markFailed (store : QueueStore) (calls : JobCalls) (job : ClassificationJobPayload)
    (message : String) : (store.markFailed calls job message).1.markers = store.markers := by
  rw [QueueStore.markFailed]
  split_ifs <;> rfl

lemma records_markFailed (store : QueueStore) (calls : JobCalls) (job : ClassificationJobPayload)
    (message : String) :
    (store.markFailed calls job message).2 ⊆ [.recordedFailed job.normalizedKey "failed"] := by
  rw [QueueStore.markFailed]
  split_ifs
  · exact List.nil_subset _
  · exact List.Subset.refl _

lemma processes_settleFailure (store' : QueueStore) (hjobs : store'.jobs = store.jobs)
    (hmarkers : store'.markers = store.markers) (err : JobError) :
    consumer.Processes store calls job (consumer.outbound payload (some job))
      { ok := false
        store := (consumer.settleFailure store' calls payload (some job) err).1
        records := (consumer.settleFailure store' calls payload (some job) err).2 } := by
  rw [QueueConsumer.settleFailure]
  by_cases hrequeue : (!err.shouldRequeue) = true
  · rw [if_pos hrequeue]
    exact processes_markFailed hjobs hmarkers _
  rw [if_neg hrequeue]
  by_cases hattempt : consumer.maxRequeueAttempts ≤ job.requeueAttempt
  · rw [if_pos (by simpa using hattempt)]
    exact processes_markFailed hjobs hmarkers _
  rw [if_neg (by simpa using hattempt), QueueConsumer.requeue]
  cases calls.requeued with
  | added =>
    refine .requeued (not_le.1 hattempt) ?_ hmarkers (List.nil_subset _)
    rw [← hjobs]
  | failed error added =>
    cases added with
    | false => exact processes_markFailed hjobs hmarkers _
    | true =>
      refine .requeued (not_le.1 hattempt) ?_ ?_ (records_markFailed _ calls job _)
      · rw [jobs_markFailed, ← hjobs]
      · rw [markers_markFailed]
        exact hmarkers

lemma jobs_markProcessed (store : QueueStore) (calls : JobCalls) (job : ClassificationJobPayload) :
    (store.markProcessed calls (some job)).jobs = store.jobs := by
  rw [QueueStore.markProcessed]
  split_ifs <;> rfl

lemma markers_markProcessed (store : QueueStore) (calls : JobCalls) (job : ClassificationJobPayload) :
    (store.markProcessed calls (some job)).markers = store.markers ∨
      (store.markProcessed calls (some job)).markers =
        store.markers ++ [classificationIdempotencyKey job] := by
  rw [QueueStore.markProcessed]
  split_ifs
  · exact Or.inl rfl
  · exact Or.inr rfl

/-- **What can become of a job** of the classification worker. -/
lemma processes_processJob (store : QueueStore) (calls : JobCalls)
    (hdecode : consumer.decode payload = .ok job) :
    consumer.Processes store calls job (consumer.outbound payload (some job))
      (consumer.processJob store calls payload) := by
  have hhint : (consumer.decode payload).toOption = some job := by rw [hdecode]; rfl
  rw [QueueConsumer.processJob, hhint]
  by_cases hduplicate : store.isDuplicate calls (some job) = true
  · rw [if_pos hduplicate]
    simp only [QueueStore.isDuplicate, Option.any_some, Bool.and_eq_true, List.contains_iff_mem]
      at hduplicate
    exact .duplicate hduplicate.2
  rw [if_neg hduplicate, QueueConsumer.handleJob, hdecode]
  cases hhandled : calls.handled with
  | ok _ =>
    exact .completed hhandled (jobs_markProcessed _ calls job) (markers_markProcessed _ calls job)
  | error err =>
    let handled := { store with requests := calls.handlerRequests store.requests }
    have hjobs : handled.jobs = store.jobs := rfl
    have hmarkers : handled.markers = store.markers := rfl
    exact processes_settleFailure handled hjobs hmarkers err

/-- A payload that cannot be read leaves nothing. -/
lemma processJob_unreadable (store : QueueStore) (calls : JobCalls)
    (hdecode : consumer.decode payload = .error message) :
    consumer.processJob store calls payload = { ok := false, store, records := [] } := by
  have hhint : (consumer.decode payload).toOption = none := by rw [hdecode]; rfl
  rw [QueueConsumer.processJob, hhint, QueueConsumer.handleJob, hdecode]
  rfl

/-! ### A worker with one job -/

/-- A worker that knows one job. -/
def oneJob : QueueConsumer where
  maxRequeueAttempts := defaultJobRequeueMaxAttempts
  one_le_attempts := by decide
  attempts_lt := by decide
  decode text :=
    if text = "job" then
      .ok
        { normalizedKey := "domain:site.example"
          entityLevel := "domain"
          hostname := "site.example"
          fullUrl := "https://site.example/"
          traceId := "t1" }
    else .error "expected value"
  encode _ := .ok "job"

/-- A handler that answers so, and no call that fails. -/
def handledAs (handled : Except JobError Unit) : JobCalls where
  seenError := none
  handled := handled
  handlerRequests := id
  markError := none
  requeued := .added
  fetchPublished := true
  pendingError := none
  now := 0

end OpenDefender.Worker
