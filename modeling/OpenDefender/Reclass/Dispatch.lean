import OpenDefender.Lib.Script
import OpenDefender.Reclass.Batches

/-!
One call of `dispatch_batch` (`workers/reclass-worker/src/main.rs`), step by step, with the steps that may
fail.

The jobs of a batch are set to running in a transaction, and then handled one after the other, each with
statements of its own. A failure to publish puts the job back; a failure of the page content query or
of a status update ends the call, and the jobs that were still to come stay running: nothing picks up a
running job again. `others_settled_iff` says which single failures leave the other jobs of the batch settled.
-/

namespace OpenDefender.Reclass

open Lib Script List

/-! ### The dispatcher -/

/-- `PageFetchPublisher`. -/
structure PageFetchPublisher where
  defaultTtl : ℤ
  deriving DecidableEq, Repr

/-- `PageFetchPublisher::new`. -/
def PageFetchPublisher.new (defaultTtl : ℤ) : PageFetchPublisher where
  defaultTtl := max defaultTtl 60

/-- The job as `PageFetchPublisher::publish` sends it. -/
def PageFetchPublisher.payload (publisher : PageFetchPublisher) (job : PageFetchJob) : PageFetchJob :=
  if job.ttlSeconds.getD 0 ≤ 0 then { job with ttlSeconds := some publisher.defaultTtl } else job

/-- `Dispatcher`, with the functions it takes from the `url` crate. -/
structure Dispatcher where
  batchSize : ℤ
  pageFetchPublisher : Option PageFetchPublisher
  parse : String → Option Worker.ParsedUrl
  /-- Scheme and host of a URL that has a host, as a URL. -/
  origin : String → Option String

/-- The tables and streams of a dispatcher. -/
structure DispatchStore where
  jobs : List ReclassJob
  pageContents : List Worker.PageContentRow
  classificationJobs : List Worker.ClassificationJobPayload
  pageFetchJobs : List PageFetchJob
  deriving DecidableEq, Repr

/-- The steps in the handling of a job that may fail. -/
inductive DispatchStep where
  | load
  | publish
  | publishFetch
  | update
  deriving DecidableEq, Repr

/-- The failures of a call, with their messages: of the transaction that picks the batch, of the
steps of each job, and of the last query. -/
structure DispatchFaults where
  pick : Option String
  job : ℕ → DispatchStep → Option String
  backlog : Option String

variable (dispatcher : Dispatcher) (faults : DispatchFaults)

/-- `derive_base_url`. -/
def Dispatcher.deriveBaseUrl (fullUrl hostname : String) : String :=
  (dispatcher.origin fullUrl).getD ("https://" ++ hostname ++ "/")

/-- `load_page_content`: unlike the classification worker's, of any fetch status. -/
def loadPageContent (pageContents : List Worker.PageContentRow) (now : ℕ) (normalizedKey : String) :
    Option Worker.PageContentSnippet :=
  (Worker.newestRow (pageContents.filter fun row =>
    row.normalizedKey = normalizedKey ∧ now < row.expiresAt)).map fun row =>
      { contentExcerpt := row.textExcerpt
        contentHash := row.contentHash
        contentVersion := some row.fetchVersion
        contentLanguage := none }

/-- The `ClassificationJobMessage` of a job, as the classification worker reads it. -/
def classificationJobMessage (row : ReclassJob) (target : JobTarget) (baseUrl : String)
    (pageContent : Option Worker.PageContentSnippet) : Worker.ClassificationJobPayload where
  normalizedKey := row.normalizedKey
  entityLevel := target.entityLevel
  hostname := target.hostname
  fullUrl := target.fullUrl
  traceId := toString row.id
  idempotencyKey := some ("cls:" ++ row.normalizedKey ++ ":" ++ toString row.id)
  requiresContent := true
  baseUrl := some baseUrl
  contentExcerpt := pageContent.bind (·.contentExcerpt)
  contentHash := pageContent.bind (·.contentHash)
  contentVersion := pageContent.bind (·.contentVersion)
  contentLanguage := pageContent.bind (·.contentLanguage)

/-- The `PageFetchJob` of a job. -/
def pageFetchJob (row : ReclassJob) (target : JobTarget) (baseUrl : String) : PageFetchJob where
  normalizedKey := row.normalizedKey
  url := baseUrl
  hostname := target.hostname
  candidateUrls := [baseUrl]
  traceId := some (toString row.id)
  idempotencyKey := some ("page:" ++ row.normalizedKey ++ ":" ++ toString row.id)
  ttlSeconds := none

/-- `UPDATE reclassification_jobs SET status = … WHERE id = …`. -/
def updateStatus (id : ℕ) (status : JobStatus) : Script DispatchStore String Unit :=
  attempt (faults.job id .update) <|
    write fun store => { store with jobs := setStatus store.jobs [id] status }

/-- The page fetch of a job that has been published; its failure is only logged. -/
def publishPageFetch (row : ReclassJob) (job : PageFetchJob) : Script DispatchStore String Unit :=
  match dispatcher.pageFetchPublisher with
  | none => pure ()
  | some fetcher =>
    ignoring <| attempt (faults.job row.id .publishFetch) <|
      write fun store => { store with pageFetchJobs := store.pageFetchJobs ++ [fetcher.payload job] }

/-- The body of the loop of `dispatch_batch`; it returns whether the job counts as processed. -/
def handleJob (now : ℕ) (row : ReclassJob) : Script DispatchStore String Bool :=
  match buildTarget dispatcher.parse row.normalizedKey with
  | .error _ => do
    updateStatus faults row.id .failed
    pure false
  | .ok target => do
    let pageContent ← attempt (faults.job row.id .load) <|
      read fun store => loadPageContent store.pageContents now row.normalizedKey
    let baseUrl := dispatcher.deriveBaseUrl target.fullUrl target.hostname
    match faults.job row.id .publish with
    | none => do
      write fun store => { store with classificationJobs := store.classificationJobs ++
            [classificationJobMessage row target baseUrl pageContent] }
      updateStatus faults row.id .completed
      publishPageFetch dispatcher faults row (pageFetchJob row target baseUrl)
      pure true
    | some _ => do
      updateStatus faults row.id .pending
      pure false

/-- The pending jobs that no other transaction has locked, oldest first, at most `limit` of them. -/
def pickBatch (jobs : List ReclassJob) (locked : List ℕ) (limit : ℤ) : List ReclassJob :=
  ((jobs.filter fun job => job.status = .pending ∧ job.id ∉ locked).insertionSort
    fun a b => a.createdAt ≤ b.createdAt).take limit.toNat

/-- The jobs of a batch, all of them handled or up to the first failure that ends the call. -/
def handleBatch (now : ℕ) (batch : List ReclassJob) : Script DispatchStore String ℕ :=
  batch.foldlM
    (fun processed row => do
      let sent ← handleJob dispatcher faults now row
      pure (if sent then processed + 1 else processed)) 0

/-- `dispatch_batch`, while other transactions have these jobs locked. -/
def dispatchBatch (now : ℕ) (locked : List ℕ) : Script DispatchStore String ℕ := do
  if dispatcher.batchSize < 0 then
    fail "LIMIT must not be negative"
  -- the selection and the updates to running are one transaction
  let batch ← attempt faults.pick <|
    read fun store => pickBatch store.jobs locked dispatcher.batchSize
  if batch.isEmpty then
    attempt faults.backlog (pure 0)
  else
    write fun store => { store with jobs := setStatus store.jobs (batch.map (·.id)) .running }
    let processed ← handleBatch dispatcher faults now batch
    attempt faults.backlog (pure processed)

/-! ### One job -/

variable {dispatcher : Dispatcher} {faults : DispatchFaults} {now : ℕ} {row : ReclassJob}

/-- The step fails in a way that ends the call: a status update, or the query for the page content if it
comes to that. -/
def EndsCall (parse : String → Option Worker.ParsedUrl) (row : ReclassJob) : DispatchStep → Prop
  | .load => (buildTarget parse row.normalizedKey).isOk = true
  | .publish => False
  | .publishFetch => False
  | .update => True

instance (parse : String → Option Worker.ParsedUrl) (row : ReclassJob) (step : DispatchStep) :
    Decidable (EndsCall parse row step) := by
  unfold EndsCall
  split <;> infer_instance

/-- No step of the job fails in such a way. -/
def Goes (dispatcher : Dispatcher) (faults : DispatchFaults) (row : ReclassJob) : Prop :=
  ∀ step, EndsCall dispatcher.parse row step → faults.job row.id step = none

/-- The status a job is left in when it has been handled. -/
def handledStatus (dispatcher : Dispatcher) (faults : DispatchFaults) (row : ReclassJob) : JobStatus :=
  settledStatus (buildTarget dispatcher.parse row.normalizedKey) (faults.job row.id .publish).isNone

lemma handledStatus_ne_running : handledStatus dispatcher faults row ≠ .running := by
  rw [handledStatus, settledStatus.eq_def]
  split
  · exact JobStatus.noConfusion
  · split_ifs <;> exact JobStatus.noConfusion

/-- The page fetch neither fails nor touches the jobs. -/
lemma jobs_publishPageFetch (dispatcher : Dispatcher) (faults : DispatchFaults) (row : ReclassJob)
    (job : PageFetchJob) (store : DispatchStore) :
    ∃ store', publishPageFetch dispatcher faults row job store = (.ok (), store') ∧
      store'.jobs = store.jobs := by
  rw [publishPageFetch]
  cases dispatcher.pageFetchPublisher with
  | none => exact ⟨store, rfl, rfl⟩
  | some fetcher =>
    refine ⟨_, rfl, ?_⟩
    cases faults.job row.id .publishFetch <;> rfl

/-- A job that no failure stops has its status set. -/
lemma handleJob_of_goes (now : ℕ) (h : Goes dispatcher faults row) (store : DispatchStore) :
    ∃ sent store', handleJob dispatcher faults now row store = (.ok sent, store') ∧
      store'.jobs = setStatus store.jobs [row.id] (handledStatus dispatcher faults row) := by
  have hupdate : faults.job row.id .update = none := h .update trivial
  rw [handleJob, handledStatus]
  cases htarget : buildTarget dispatcher.parse row.normalizedKey with
  | error message =>
    dsimp only
    rw [updateStatus, hupdate]
    exact ⟨false, _, rfl, rfl⟩
  | ok target =>
    have hload : faults.job row.id .load = none := h .load (by rw [EndsCall, htarget]; rfl)
    dsimp only
    rw [hload, updateStatus, updateStatus, hupdate]
    cases faults.job row.id .publish with
    | some message => exact ⟨false, _, rfl, rfl⟩
    | none =>
      simp only [attempt_none, bind_apply, read_apply, write_apply]
      obtain ⟨store', hrun, hjobs⟩ := jobs_publishPageFetch dispatcher faults row
        (pageFetchJob row target (dispatcher.deriveBaseUrl target.fullUrl target.hostname))
        { store with
          classificationJobs := store.classificationJobs ++ [classificationJobMessage row target
              (dispatcher.deriveBaseUrl target.fullUrl target.hostname)
              (loadPageContent store.pageContents now row.normalizedKey)]
          jobs := setStatus store.jobs [row.id] .completed }
      rw [hrun]
      exact ⟨true, store', rfl, hjobs⟩

/-- A job that a failure stops has its status from before. -/
lemma handleJob_of_not_goes (now : ℕ) (h : ¬Goes dispatcher faults row) (store : DispatchStore) :
    ∃ message store', handleJob dispatcher faults now row store = (.error message, store') ∧
      store'.jobs = store.jobs := by
  rw [handleJob]
  cases hupdate : faults.job row.id .update with
  | some message =>
    cases buildTarget dispatcher.parse row.normalizedKey with
    | error _ =>
      dsimp only
      rw [updateStatus, hupdate]
      exact ⟨message, store, rfl, rfl⟩
    | ok target =>
      dsimp only
      cases faults.job row.id .load with
      | some message' => exact ⟨message', store, rfl, rfl⟩
      | none =>
        rw [updateStatus, updateStatus, hupdate]
        cases faults.job row.id .publish with
        | some _ => exact ⟨message, store, rfl, rfl⟩
        | none => exact ⟨message, _, rfl, rfl⟩
  | none =>
    -- only the query for the page content is left to fail
    obtain ⟨step, hends, hfails⟩ : ∃ step, EndsCall dispatcher.parse row step ∧
        faults.job row.id step ≠ none := by
      by_contra hnone
      exact h fun step hends => not_not.1 fun hfails => hnone ⟨step, hends, hfails⟩
    cases step with
    | publish => exact hends.elim
    | publishFetch => exact hends.elim
    | update => exact absurd hupdate hfails
    | load =>
      obtain ⟨message, hload⟩ := Option.ne_none_iff_exists'.1 hfails
      cases htarget : buildTarget dispatcher.parse row.normalizedKey with
      | error _ =>
        rw [EndsCall, htarget] at hends
        exact Bool.noConfusion hends
      | ok target =>
        dsimp only
        rw [hload]
        exact ⟨message, store, rfl, rfl⟩

/-! ### The batch -/

/-- The jobs after these have been handled. -/
def settle (dispatcher : Dispatcher) (faults : DispatchFaults) (jobs rows : List ReclassJob) :
    List ReclassJob :=
  rows.foldl (fun jobs row => setStatus jobs [row.id] (handledStatus dispatcher faults row)) jobs

lemma settle_concat (jobs rows : List ReclassJob) : settle dispatcher faults jobs (rows ++ [row]) =
      setStatus (settle dispatcher faults jobs rows) [row.id]
        (handledStatus dispatcher faults row) := by
  rw [settle, foldl_concat]
  rfl

variable {jobs rows : List ReclassJob}

/-- A job that has been handled is not running, and the others are as they were. -/
lemma mem_settle (h : job ∈ settle dispatcher faults jobs rows) :
    (job.id ∈ rows.map (·.id) ∧ job.status ≠ .running) ∨ (job.id ∉ rows.map (·.id) ∧ job ∈ jobs) := by
  induction rows using List.reverseRecOn generalizing job with
  | nil => exact Or.inr ⟨by simp, h⟩
  | append_singleton rows row ih =>
    rw [settle_concat] at h
    obtain ⟨old, hold, heq⟩ := mem_map.1 h
    rw [map_append, mem_append]
    by_cases hid : old.id ∈ [row.id]
    · rw [if_pos hid] at heq
      subst heq
      exact Or.inl ⟨Or.inr hid, handledStatus_ne_running⟩
    · rw [if_neg hid] at heq
      subst heq
      rcases ih hold with ⟨hmem, hstatus⟩ | ⟨hmem, hjob⟩
      · exact Or.inl ⟨Or.inl hmem, hstatus⟩
      · exact Or.inr ⟨not_or.2 ⟨hmem, hid⟩, hjob⟩

lemma mem_settle_of_not_mem (hjob : job ∈ jobs) (h : job.id ∉ rows.map (·.id)) :
    job ∈ settle dispatcher faults jobs rows := by
  induction rows using List.reverseRecOn with
  | nil => exact hjob
  | append_singleton rows row ih =>
    rw [map_append, mem_append, not_or] at h
    rw [settle_concat]
    exact mem_setStatus_of_not_mem _ (ih h.1) h.2

/-- Jobs that no failure stops leave the table of jobs as `settle` says. -/
lemma jobs_foldl_handleJob (now : ℕ) (h : ∀ row ∈ rows, Goes dispatcher faults row) (store : DispatchStore) :
    (rows.foldl (fun store row => (handleJob dispatcher faults now row store).2) store).jobs =
      settle dispatcher faults store.jobs rows := by
  induction rows generalizing store with
  | nil => rfl
  | cons row rows ih =>
    obtain ⟨sent, store', hrun, hjobs⟩ := handleJob_of_goes now (h row mem_cons_self) store
    rw [foldl_cons, ih (fun row hrow => h row (mem_cons_of_mem _ hrow)), hrun, hjobs]
    rfl

/-- The jobs when a batch has been handled: all of it, or up to a job that a failure stops. -/
lemma handleBatch_cases (dispatcher : Dispatcher) (faults : DispatchFaults) (now : ℕ)
    (batch : List ReclassJob) (store : DispatchStore) :
    ((∀ row ∈ batch, Goes dispatcher faults row) ∧
      ∃ processed store', handleBatch dispatcher faults now batch store = (.ok processed, store') ∧
        store'.jobs = settle dispatcher faults store.jobs batch) ∨
    ∃ before row after message store', batch = before ++ row :: after ∧ ¬Goes dispatcher faults row ∧
      handleBatch dispatcher faults now batch store = (.error message, store') ∧
      store'.jobs = settle dispatcher faults store.jobs before := by
  have hcases := foldlM_cases
    (fun processed row => do
      let sent ← handleJob dispatcher faults now row
      pure (if sent then processed + 1 else processed))
    (Goes dispatcher faults) (fun row store => (handleJob dispatcher faults now row store).2)
    (fun row store => (handleJob dispatcher faults now row store).2)
    (fun processed row store hgoes => by
      obtain ⟨sent, store', hrun, -⟩ := handleJob_of_goes now hgoes store
      rw [bind_of_ok hrun, hrun]
      exact ⟨_, rfl⟩)
    (fun processed row store hstops => by
      obtain ⟨message, store', hrun, -⟩ := handleJob_of_not_goes now hstops store
      rw [bind_of_error hrun, hrun]
      exact ⟨message, rfl⟩) batch 0 store
  rcases hcases with ⟨hgo, processed, hrun⟩ | ⟨before, row, after, message, hbatch, hgo, hstops, hrun⟩
  · exact Or.inl ⟨hgo, processed, _, hrun, jobs_foldl_handleJob now hgo store⟩
  · obtain ⟨message', store', hrow, hjobs⟩ := handleJob_of_not_goes now hstops
      (before.foldl (fun store row => (handleJob dispatcher faults now row store).2) store)
    refine Or.inr ⟨before, row, after, message, _, hbatch, hstops, hrun, ?_⟩
    rw [hrow, hjobs]
    exact jobs_foldl_handleJob now hgo store

/-! ### A single failure -/

/-- This step of this job fails, and nothing else. -/
def DispatchFaults.only (id : ℕ) (step : DispatchStep) (message : String) : DispatchFaults where
  pick := none
  job := fun id' step' => if id' = id ∧ step' = step then some message else none
  backlog := none

/-- It stops that job, if it is a failure that ends the call, and no other. -/
lemma goes_only {id : ℕ} :
    Goes dispatcher (.only id step message) row ↔
      (row.id = id → ¬EndsCall dispatcher.parse row step) := by
  constructor
  · intro h hid hends
    have hnone := h step hends
    rw [DispatchFaults.only] at hnone
    simp [hid] at hnone
  · intro h step' hends
    rw [DispatchFaults.only]
    refine if_neg ?_
    rintro ⟨hid, rfl⟩
    exact h hid hends

lemma mem_of_mem_pickBatch (h : row ∈ pickBatch jobs locked limit) : row ∈ jobs :=
  (mem_filter.1 ((mem_insertionSort _).1 (mem_of_mem_take h))).1

/-- No job is in a batch twice. -/
lemma nodup_pickBatch (hids : Table.Unique (·.id) jobs) (locked : List ℕ) (limit : ℤ) :
    ((pickBatch jobs locked limit).map (·.id)).Nodup := by
  have hperm := perm_insertionSort (fun a b : ReclassJob => a.createdAt ≤ b.createdAt)
    (jobs.filter fun job => job.status = .pending ∧ job.id ∉ locked)
  have hsorted := (hperm.map ReclassJob.id).nodup_iff.2 (hids.filter _)
  exact hsorted.sublist ((take_sublist _ _).map _)

/-- What is left of the jobs when the call has returned. -/
lemma jobs_dispatchBatch (hpick : faults.pick = none)
    (hbatch : pickBatch store.jobs locked dispatcher.batchSize ≠ []) :
    (dispatchBatch dispatcher faults now locked store).2 =
      (handleBatch dispatcher faults now (pickBatch store.jobs locked dispatcher.batchSize)
        { store with
          jobs := setStatus store.jobs
            ((pickBatch store.jobs locked dispatcher.batchSize).map (·.id)) .running }).2 := by
  have hsize : ¬dispatcher.batchSize < 0 := by
    intro hneg
    rw [pickBatch, Int.toNat_of_nonpos hneg.le] at hbatch
    exact hbatch rfl
  have hempty : (pickBatch store.jobs locked dispatcher.batchSize).isEmpty = false := by
    simpa using hbatch
  rw [dispatchBatch, if_neg hsize, hpick]
  simp only [attempt_none, bind_apply, read_apply, hempty, Bool.false_eq_true, if_false, write_apply]
  cases handleBatch dispatcher faults now (pickBatch store.jobs locked dispatcher.batchSize)
    { store with
      jobs := setStatus store.jobs
        ((pickBatch store.jobs locked dispatcher.batchSize).map (·.id)) .running } with
  | mk outcome store' =>
    cases outcome with
    | error message => rfl
    | ok processed => cases faults.backlog <;> rfl

/-- **The other jobs of a batch.** After a call with a single failure, in the handling of one of the
jobs it has picked, no other job of the batch is left running exactly when the failure is not one
that ends the call, or the job is the last one. -/
theorem others_settled_iff (dispatcher : Dispatcher) (store : DispatchStore)
    (hids : Table.Unique (·.id) store.jobs) (now : ℕ) (locked : List ℕ) (failing : ReclassJob)
    (hfailing : failing ∈ pickBatch store.jobs locked dispatcher.batchSize) (step : DispatchStep)
    (message : String) :
    (∀ job ∈ (dispatchBatch dispatcher (.only failing.id step message) now locked store).2.jobs,
      job.id ∈ (pickBatch store.jobs locked dispatcher.batchSize).map (·.id) →
      job.id ≠ failing.id → job.status ≠ .running) ↔
    (¬EndsCall dispatcher.parse failing step ∨
      (pickBatch store.jobs locked dispatcher.batchSize).getLast? = some failing) := by
  rw [jobs_dispatchBatch rfl (ne_nil_of_mem hfailing)]
  have hnodup := nodup_pickBatch hids locked dispatcher.batchSize
  have hmem : ∀ row ∈ pickBatch store.jobs locked dispatcher.batchSize, row ∈ store.jobs :=
    fun row hrow => mem_of_mem_pickBatch hrow
  generalize pickBatch store.jobs locked dispatcher.batchSize = batch at *
  rcases handleBatch_cases dispatcher (.only failing.id step message) now batch
      { store with jobs := setStatus store.jobs (batch.map (·.id)) .running } with
    ⟨hgo, processed, store', hrun, hjobs⟩ |
    ⟨before, row, after, text, store', rfl, hstops, hrun, hjobs⟩
  · -- the call goes through the whole batch
    rw [hrun]
    have hends : ¬EndsCall dispatcher.parse failing step := goes_only.1 (hgo failing hfailing) rfl
    refine iff_of_true ?_ (Or.inl hends)
    intro job hjob hbatch _
    rw [hjobs] at hjob
    rcases mem_settle hjob with ⟨-, hstatus⟩ | ⟨hnot, -⟩
    · exact hstatus
    · exact absurd hbatch hnot
  · -- the call stops at the failing job, and the jobs after it are still running
    rw [hrun, hjobs]
    rw [goes_only, Classical.not_imp, not_not] at hstops
    obtain ⟨hid, hends⟩ := hstops
    obtain rfl : failing = row := hids.eq (hmem failing hfailing) (hmem row (by simp)) hid.symm
    rw [map_append, map_cons, nodup_append] at hnodup
    obtain ⟨-, hafter, hapart⟩ := hnodup
    cases after with
    | nil =>
      refine iff_of_true ?_ (Or.inr (by simp))
      intro job hjob hbatch hne
      rcases mem_settle hjob with ⟨-, hstatus⟩ | ⟨hnot, -⟩
      · exact hstatus
      · rw [map_append, mem_append] at hbatch
        rcases hbatch with hbatch | hbatch
        · exact absurd hbatch hnot
        · exact absurd (by simpa using hbatch) hne
    | cons next rest =>
      have hnext : next.id ≠ failing.id := by
        intro heq
        rw [map_cons, heq] at hafter
        exact (nodup_cons.1 hafter).1 mem_cons_self
      have hlast : (before ++ failing :: next :: rest).getLast? ≠ some failing := by
        intro hlast
        have hin : failing ∈ next :: rest := by
          rw [getLast?_append_of_ne_nil _ (by simp), getLast?_cons_cons] at hlast
          exact mem_of_getLast? hlast
        exact (nodup_cons.1 hafter).1 (mem_map_of_mem hin)
      refine iff_of_false (fun hall => ?_) (not_or.2 ⟨not_not.2 hends, hlast⟩)
      have hrunning : { next with status := .running } ∈
          setStatus store.jobs ((before ++ failing :: next :: rest).map (·.id)) .running :=
        mem_setStatus_of_mem _ (hmem next (by simp)) (by simp)
      have hleft : { next with status := .running } ∈ settle dispatcher
          (.only failing.id step message) (setStatus store.jobs
            ((before ++ failing :: next :: rest).map (·.id)) .running) before :=
        mem_settle_of_not_mem hrunning fun hin => hapart next.id hin next.id (by simp) rfl
      exact hall _ hleft (by simp) hnext rfl

/-! ### Two jobs -/

/-- A pending job. -/
def firstJob : ReclassJob where
  id := 1
  normalizedKey := "domain:example.com"
  reason := "ttl_refresh"
  status := .pending
  createdAt := 10

/-- Two pending jobs. -/
def twoJobs : DispatchStore where
  jobs := [firstJob, { firstJob with id := 2, normalizedKey := "domain:example.org", createdAt := 20 }]
  pageContents := []
  classificationJobs := []
  pageFetchJobs := []

/-- A dispatcher with the batch size of the defaults. -/
def defaultDispatcher : Dispatcher where
  batchSize := 200
  pageFetchPublisher := none
  parse := fun _ => none
  origin := fun _ => none

/-- When the first of two jobs cannot be published, the second one is settled. -/
theorem others_settled_publish : firstJob ∈ pickBatch twoJobs.jobs [] defaultDispatcher.batchSize ∧
      ∀ job ∈ (dispatchBatch defaultDispatcher (.only firstJob.id .publish "connection refused") 30
          [] twoJobs).2.jobs,
        job.id ∈ (pickBatch twoJobs.jobs [] defaultDispatcher.batchSize).map (·.id) →
        job.id ≠ firstJob.id → job.status ≠ .running := by
  have hmem : firstJob ∈ pickBatch twoJobs.jobs [] defaultDispatcher.batchSize := by decide +kernel
  have hstep : ¬EndsCall defaultDispatcher.parse firstJob .publish := by decide +kernel
  exact ⟨hmem, (others_settled_iff defaultDispatcher twoJobs (by decide) 30 [] firstJob hmem .publish
    "connection refused").2 (Or.inl hstep)⟩

/-- When the page content of the first of two jobs cannot be loaded, the second one, of which nothing has
failed, stays running. -/
theorem others_running_load :
    (dispatchBatch defaultDispatcher (.only firstJob.id .load "connection reset") 30 []
      twoJobs).2.jobs.map (fun job => (job.id, job.status)) = [(1, .running), (2, .running)] := by
  decide +kernel

end OpenDefender.Reclass
