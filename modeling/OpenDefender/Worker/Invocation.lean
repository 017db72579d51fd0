import OpenDefender.Lib.Procedure
import OpenDefender.Taxonomy.Activation
import OpenDefender.Worker.Prompt
import OpenDefender.Worker.Store

/-!
How the classification worker gets a verdict (`workers/llm-worker/src/main.rs`): the page content it
adds to a job, the request it prepares for a provider, the retries, the diversion of stale jobs and the
fallback.

The worker is a procedure over its own state, with the outside as an environment: what the clock shows,
what a table holds and what a provider answers may be different at every interaction. A verdict carries
the call it comes from, which the source does not keep. `invokeWithFallback_made` is what all paths
have in common: a request has either an excerpt in its prompt and the mode that says so, or neither.
-/

namespace OpenDefender.Worker

open Lib Text Procedure

/-! ### Verdicts -/

/-- `str::to_lowercase`, as far as the result is ASCII: the Kelvin sign is the only other character
whose lower case is an ASCII letter. -/
def toLowercase (s : String) : String :=
  String.ofList (s.toList.map fun c => if c = 'K' then 'k' else c.toLower)

/-- The action names `LlmResponse::normalize` accepts. -/
def canonicalAction : String → Option String
  | "allow" => some "Allow"
  | "block" => some "Block"
  | "warn" => some "Warn"
  | "monitor" => some "Monitor"
  | "review" => some "Review"
  | "requireapproval" => some "RequireApproval"
  | "require_approval" => some "RequireApproval"
  | "require-approval" => some "RequireApproval"
  | _ => none

/-- `LlmResponse::normalize`. -/
def LlmResponse.normalize (r : LlmResponse) : Except InvocationError LlmResponse :=
  let riskLevel := toLowercase r.riskLevel
  if ¬ (0 ≤ r.confidence ∧ r.confidence ≤ 1) then
    .error { message := "confidence must be between 0 and 1", request := none }
  else if riskLevel ∉ ["low", "medium", "high", "critical"] then
    .error { message := "invalid risk_level", request := none }
  else
    match canonicalAction (toLowercase r.recommendedAction) with
    | some action => .ok { r with riskLevel, recommendedAction := action }
    | none => .error { message := "invalid recommended_action: " ++ toLowercase r.recommendedAction,
                       request := none }

/-- `synthesize_insufficient_evidence_verdict`. -/
def synthesizeInsufficientEvidenceVerdict : LlmResponse :=
  { primaryCategory := "unknown-unclassified"
    subcategory := "insufficient-evidence"
    riskLevel := "low"
    confidence := 2 / 10
    recommendedAction := PolicyAction.monitor.display }

/-! ### The worker and its environment -/

/-- A row of `page_contents`. -/
structure PageContentRow where
  normalizedKey : String
  fetchVersion : ℤ
  contentHash : Option String
  textExcerpt : Option String
  fetchStatus : String
  expiresAt : ℕ
  deriving DecidableEq, Repr

/-- A row of `classification_requests`. -/
structure ClassificationRequestRow where
  normalizedKey : String
  status : String
  requestedAt : ℕ
  deriving DecidableEq, Repr

/-- The outside, at the `t`-th interaction: the instant and the time of the database (microseconds),
whether a database call fails, the tables, and what providers answer. -/
structure Environment where
  clock : ℕ → ℕ
  now : ℕ → ℕ
  databaseError : ℕ → Option String
  pageContents : ℕ → List PageContentRow
  requests : ℕ → List ClassificationRequestRow
  classifications : ℕ → List ClassificationRow
  answer : ℕ → ResolvedProvider → ClassificationJobPayload → String →
    Except InvocationError LlmResponse
  healthcheck : ℕ → ResolvedProvider → Bool
  publishError : ℕ → Option String

/-- The settings of `JobConsumer`, with the activation profile in force when the verdict is in. -/
structure JobConsumer where
  router : ProviderRouter
  taxonomy : TaxonomyStore
  activation : ActivationProfile
  failover : FailoverRuntime
  stalePending : Option StalePendingRuntime
  onlineContext : OnlineContextRuntime
  promptInjection : PromptInjectionRuntime

/-- What the worker does to the outside. -/
inductive Effect where
  | markedPending (normalizedKey status : String) (baseUrl error : Option String)
  | clearedPending (normalizedKey : String)
  | called (provider : ResolvedProvider) (job : ClassificationJobPayload) (prompt : String)
  | waited (ms : ℕ)
  | stored (table : List ClassificationRow)
  | published (key : String)
  deriving DecidableEq

/-- The state of the worker: its budgets, the health it remembers of providers, and what it has done.
-/
structure World where
  tick : ℕ
  fallbackBudget : FallbackBudgetState
  staleDivertBudget : WindowBudgetState
  providerHealth : Assoc String ProviderHealthState
  effects : List Effect

/-- The errors of a job. -/
inductive JobError where
  | retryable (reason : String)
  | nonRetryable (reason : String)
  | contentNotReady
  | other (message : String)
  deriving DecidableEq, Repr

/-- A procedure of the worker. -/
abbrev WorkerM := StateT World (Except JobError)

/-- The next interaction with the outside. -/
def interact : WorkerM ℕ := fun w => .ok (w.tick, { w with tick := w.tick + 1 })

/-- Does something to the outside. -/
def perform (effect : Effect) : WorkerM Unit :=
  fun w => .ok ((), { w with effects := w.effects ++ [effect] })

/-- A database call. -/
def query {α : Type} (env : Environment) (read : ℕ → α) : WorkerM α := do
  let t ← interact
  match env.databaseError t with
  | some message => fail (.other message)
  | none => pure (read t)

/-- A `usize` or `u64` cast to `i64`. -/
def asI64 (n : ℕ) : ℤ := Int.bmod n (2 ^ 64)

/-! ### Page content -/

/-- `PageContentSnippet`; the worker reads no language. -/
structure PageContentSnippet where
  contentExcerpt : Option String
  contentHash : Option String
  contentVersion : Option ℤ
  contentLanguage : Option String
  deriving DecidableEq, Repr

/-- The row of the highest version (`ORDER BY fetch_version DESC LIMIT 1`). -/
def newestRow (rows : List PageContentRow) : Option PageContentRow :=
  (rows.insertionSort fun a b => b.fetchVersion ≤ a.fetchVersion).head?

/-- `load_page_content`. -/
def loadPageContent (env : Environment) (normalizedKey : String) :
    WorkerM (Option PageContentSnippet) :=
  query env fun t =>
    (newestRow ((env.pageContents t).filter fun row =>
      row.normalizedKey = normalizedKey ∧ toAsciiLowercase row.fetchStatus = "ok" ∧
        env.now t < row.expiresAt)).map fun row =>
      { contentExcerpt := row.textExcerpt
        contentHash := row.contentHash
        contentVersion := some row.fetchVersion
        contentLanguage := none }

/-- `CONTENT_WAIT_ATTEMPTS`. -/
def contentWaitAttempts : ℕ := 40

/-- `await_page_content`, with the attempts that are left. -/
def awaitPageContent (env : Environment) (normalizedKey : String) :
    ℕ → WorkerM PageContentSnippet
  | 0 => fail .contentNotReady
  | attempts + 1 => do
    match ← loadPageContent env normalizedKey with
    | some snippet => pure snippet
    | none => do
      perform (.waited 3000)
      awaitPageContent env normalizedKey attempts

/-- `enrich_job_with_content`: the job with the page content. -/
def enrichJobWithContent (env : Environment) (job : ClassificationJobPayload)
    (requireContent : Bool) : WorkerM ClassificationJobPayload :=
  if requireContent then do
    let snippet ← awaitPageContent env job.normalizedKey contentWaitAttempts
    pure { job with
      contentExcerpt := snippet.contentExcerpt
      contentHash := snippet.contentHash
      contentVersion := snippet.contentVersion
      contentLanguage := snippet.contentLanguage }
  else if hasContent job.contentExcerpt && job.contentHash.isSome && job.contentVersion.isSome then
    pure job
  else do
    match ← loadPageContent env job.normalizedKey with
    | some snippet => pure { job with
        contentExcerpt :=
          if hasContent job.contentExcerpt then job.contentExcerpt else snippet.contentExcerpt
        contentHash := job.contentHash.or snippet.contentHash
        contentVersion := job.contentVersion.or snippet.contentVersion
        contentLanguage := job.contentLanguage.or snippet.contentLanguage }
    | none => pure job

/-- `PageFetchState`. -/
structure PageFetchState where
  latestStatus : Option String
  failureCount : ℕ
  deriving DecidableEq, Repr

/-- `load_page_fetch_state`: two queries, of the newest row and of the failures. -/
def loadPageFetchState (env : Environment) (cfg : OnlineContextRuntime) (normalizedKey : String) :
    WorkerM PageFetchState := do
  let latestStatus ← query env fun t =>
    ((newestRow ((env.pageContents t).filter fun row => row.normalizedKey = normalizedKey)).map
      fun row => toAsciiLowercase (trim row.fetchStatus)).filter fun status => !status.isEmpty
  let failureCount ← query env fun t =>
    (env.pageContents t).countP fun row => row.normalizedKey = normalizedKey ∧
      toAsciiLowercase row.fetchStatus ∈ cfg.metadataOnlyNoContentStatuses
  pure { latestStatus, failureCount }

/-- `metadata_only_fetch_failure_reason`. -/
def metadataOnlyFetchFailureReason (env : Environment) (cfg : OnlineContextRuntime)
    (job : ClassificationJobPayload) : WorkerM (Option String) := do
  let state ← loadPageFetchState env cfg job.normalizedKey
  let hasTerminalStatus := state.latestStatus.any (· ∈ cfg.metadataOnlyNoContentStatuses)
  if hasTerminalStatus ∧ asI64 cfg.metadataOnlyFetchFailureThreshold ≤ state.failureCount then
    pure (some "fetch_failed_threshold")
  else pure none

/-! ### Preparing a request -/

/-- `ProviderRequestPlan`. -/
structure ProviderRequestPlan where
  requireContent : Bool
  sendExcerpt : Bool
  metadataOnlyReason : Option String
  deriving DecidableEq, Repr

/-- The plan when no fetch failure stands in the way. -/
def contentPlan (cfg : OnlineContextRuntime) (provider : ResolvedProvider)
    (job : ClassificationJobPayload) : ProviderRequestPlan :=
  if !isOnlineProvider provider then
    { requireContent := job.requiresContent, sendExcerpt := true, metadataOnlyReason := none }
  else
    let requireContent :=
      match cfg.contentRequiredMode with
      | .required => job.requiresContent
      | .auto => false
    match cfg.mode with
    | .required => { requireContent, sendExcerpt := true, metadataOnlyReason := none }
    | .preferred => { requireContent, sendExcerpt := true, metadataOnlyReason := none }
    | .metadataOnly =>
      { requireContent := false, sendExcerpt := false, metadataOnlyReason := some "mode_forced" }

/-- The provider may be asked without page content. -/
def metadataOnlyAllowed (cfg : OnlineContextRuntime) (provider : ResolvedProvider) : Bool :=
  match cfg.metadataOnlyAllowedFor with
  | .all => true
  | .online => isOnlineProvider provider

/-- `provider_request_plan`. -/
def providerRequestPlan (env : Environment) (cfg : OnlineContextRuntime)
    (provider : ResolvedProvider) (job : ClassificationJobPayload) : WorkerM ProviderRequestPlan :=
  if job.requiresContent && metadataOnlyAllowed cfg provider then do
    match ← metadataOnlyFetchFailureReason env cfg job with
    | some reason =>
      pure { requireContent := false, sendExcerpt := true, metadataOnlyReason := some reason }
    | none => pure (contentPlan cfg provider job)
  else pure (contentPlan cfg provider job)

/-- A request for a provider. -/
structure PreparedRequest where
  job : ClassificationJobPayload
  prompt : String
  contextMode : PromptContextMode
  excerptSent : Bool
  metadataOnlyReason : Option String
  deriving DecidableEq, Repr

/-- The job without its page content. -/
def ClassificationJobPayload.withoutContent (job : ClassificationJobPayload) :
    ClassificationJobPayload :=
  { job with
    contentExcerpt := none, contentHash := none, contentVersion := none, contentLanguage := none }

variable (env : Environment) (provider : ResolvedProvider) (consumer : JobConsumer)
  (job : ClassificationJobPayload)

variable (baseJob : ClassificationJobPayload) (retryInstruction : Option String)

/-- `prepare_provider_request`. -/
def prepareProviderRequest (provider : ResolvedProvider)
    (retryInstruction : Option String) : WorkerM PreparedRequest := do
  let plan ← providerRequestPlan env consumer.onlineContext provider baseJob
  let job ← enrichJobWithContent env baseJob plan.requireContent
  let taxonomyPrompt := buildTaxonomyPrompt consumer.taxonomy.taxonomy
  if plan.sendExcerpt && hasContent job.contentExcerpt then
    pure { job
           prompt := buildPrompt job taxonomyPrompt retryInstruction .withExcerpt
           contextMode := .withExcerpt
           excerptSent := true
           metadataOnlyReason := none }
  else
    pure { job := job.withoutContent
           prompt := buildPrompt job.withoutContent taxonomyPrompt retryInstruction .metadataOnly
           contextMode := .metadataOnly
           excerptSent := false
           metadataOnlyReason := plan.metadataOnlyReason.or
             (some (if plan.sendExcerpt then "missing_excerpt" else "mode_forced")) }

/-- `prepare_online_verification_request`. -/
def prepareOnlineVerificationRequest : PreparedRequest :=
  let job := { baseJob.withoutContent with requiresContent := false }
  { job
    prompt := buildPrompt job (buildTaxonomyPrompt consumer.taxonomy.taxonomy) retryInstruction
      .metadataOnly
    contextMode := .metadataOnly
    excerptSent := false
    metadataOnlyReason := some "local_output_invalid_online_verification" }

/-! ### Calling providers -/

/-- A call that was answered. -/
structure ProviderCall where
  provider : ResolvedProvider
  job : ClassificationJobPayload
  prompt : String
  response : LlmResponse
  deriving DecidableEq, Repr

/-- The excerpt a call gives the provider: a `CustomJson` provider gets it as a field of its own, the
others in the prompt. -/
def ProviderCall.excerpt (call : ProviderCall) : Option String :=
  match call.provider.kind with
  | .customJson => jobExcerpt call.job
  | _ => (jobExcerpt call.job).map fun excerpt => (formatExcerpt excerpt).1

/-- `invoke_llm`. -/
def invokeLlm (prompt : String) : WorkerM (Except InvocationError ProviderCall) := do
  let t ← interact
  perform (.called provider job prompt)
  match env.answer t provider job prompt with
  | .error err => pure (.error err)
  | .ok raw =>
    match raw.normalize with
    | .error err => pure (.error err)
    | .ok response => pure (.ok { provider, job, prompt, response })

/-- The loop of `invoke_primary_with_retry`, with the attempts that are left after this one. -/
def retryLoop (env : Environment) (failover : FailoverRuntime) (provider : ResolvedProvider)
    (job : ClassificationJobPayload) (prompt : String) :
    (left attempt : ℕ) → WorkerM (Except InvocationFailure ProviderCall)
  | left, attempt => do
    match ← invokeLlm env provider job prompt with
    | .ok call => pure (.ok call)
    | .error err =>
      let failure := classifyInvocationFailure err failover
      match left with
      | 0 => pure (.error failure)
      | left + 1 =>
        if failure.failureClass = .nonRetryable then pure (.error failure)
        else do
          perform (.waited (calculateRetryBackoffMs failover attempt))
          retryLoop env failover provider job prompt left (attempt + 1)

/-- `invoke_primary_with_retry`. -/
def invokePrimaryWithRetry (failover : FailoverRuntime)
    (provider : ResolvedProvider) (job : ClassificationJobPayload) (prompt : String) :
    WorkerM (Except InvocationFailure ProviderCall) :=
  retryLoop env failover provider job prompt (max failover.primaryRetryMax 1 - 1) 1

/-- What `invoke_with_fallback` returns, and the call the verdict comes from; none if the verdict is
synthesized. -/
structure Invocation where
  response : LlmResponse
  provider : String
  contextMode : PromptContextMode
  excerptSent : Bool
  metadataOnlyReason : Option String
  call : Option ProviderCall
  deriving DecidableEq, Repr

/-- The result of a call that was made for a prepared request. -/
def PreparedRequest.answered (request : PreparedRequest) (call : ProviderCall) : Invocation :=
  { response := call.response
    provider := call.provider.name
    contextMode := request.contextMode
    excerptSent := request.excerptSent
    metadataOnlyReason := request.metadataOnlyReason
    call := some call }

/-- The verdict for output that could not be used. -/
def insufficientEvidence (reason : String) : Invocation :=
  { response := synthesizeInsufficientEvidenceVerdict
    provider := "terminal-insufficient-evidence"
    contextMode := .metadataOnly
    excerptSent := false
    metadataOnlyReason := some reason
    call := none }

/-- The error of a failed invocation. -/
def failInvocation {α : Type} (failureClass : InvocationFailureClass) (reason : String) : WorkerM α :=
  match failureClass with
  | .retryable => fail (.retryable reason)
  | .nonRetryable => fail (.nonRetryable reason)

/-- Takes one call from the fallback budget. -/
def takeFallbackBudget (failover : FailoverRuntime) : WorkerM (Except String Unit) := do
  let t ← interact
  fun w =>
    let (answer, fallbackBudget) := w.fallbackBudget.allowAndRecord (env.clock t) failover
    .ok (answer, { w with fallbackBudget })

/-- Starts the cooldown of the fallback. -/
def tripFallbackCooldown (failover : FailoverRuntime) : WorkerM Unit := do
  let t ← interact
  fun w => .ok ((), { w with
    fallbackBudget := w.fallbackBudget.tripCooldown (env.clock t) failover })

/-- The request for the fallback provider: output that cannot be used is verified without content. -/
def fallbackRequest (fallback : ResolvedProvider) (outputInvalid : Bool) : WorkerM PreparedRequest :=
  if outputInvalid then pure (prepareOnlineVerificationRequest consumer job retryInstruction)
  else prepareProviderRequest env consumer job fallback retryInstruction

/-- The call of the fallback provider, after the primary has failed. -/
def callFallback (fallback : ResolvedProvider) (failure : InvocationFailure) : WorkerM Invocation := do
  let request ← fallbackRequest env consumer job retryInstruction fallback failure.outputInvalid
  match ← invokeLlm env fallback request.job request.prompt with
  | .ok call => pure (request.answered call)
  | .error err => do
    let classified := classifyInvocationFailure err consumer.failover
    tripFallbackCooldown env consumer.failover
    if failure.outputInvalid then
      pure (insufficientEvidence "local_output_invalid_online_failed")
    else
      failInvocation classified.failureClass
        ("fallback provider failed after primary error: " ++ classified.reason)

/-- The branch of `invoke_with_fallback` after the primary has failed. -/
def afterPrimaryFailure (primary : ResolvedProvider) (failure : InvocationFailure) : WorkerM Invocation :=
  if !shouldAttemptFallback consumer.failover failure then
    if failure.outputInvalid then
      pure (insufficientEvidence "local_output_invalid_online_unavailable")
    else
      failInvocation failure.failureClass
        ("primary provider failed and fallback skipped: " ++ failure.reason)
  else
    match (if primary.name = consumer.router.primary.name then consumer.router.fallback
      else some consumer.router.primary) with
    | none =>
      if failure.outputInvalid then
        pure (insufficientEvidence "local_output_invalid_online_unavailable")
      else
        fail (.retryable ("primary failed and fallback not configured: " ++ failure.reason))
    | some fallback => do
      match ← takeFallbackBudget env consumer.failover with
      | .error blockedReason =>
        if failure.outputInvalid then
          pure (insufficientEvidence "local_output_invalid_online_skipped")
        else
          fail (.retryable ("fallback blocked by " ++ blockedReason ++
            " after primary failure: " ++ failure.reason))
      | .ok () => callFallback env consumer job retryInstruction fallback failure

/-- The primary provider and what follows its failure. -/
def invokePrimary (primary : ResolvedProvider) : WorkerM Invocation := do
  let request ← prepareProviderRequest env consumer job primary retryInstruction
  match ← invokePrimaryWithRetry env consumer.failover primary request.job request.prompt with
  | .ok call => pure (request.answered call)
  | .error failure => afterPrimaryFailure env consumer job retryInstruction primary failure

/-- `invoke_with_fallback`. -/
def invokeWithFallback (staleProvider : Option ResolvedProvider) : WorkerM Invocation :=
  let primary := (job.providerOverride.bind consumer.router.byName).getD consumer.router.primary
  match staleProvider.filter fun provider => provider.name ≠ primary.name with
  | none => invokePrimary env consumer job retryInstruction primary
  | some provider => do
    let request ← prepareProviderRequest env consumer job provider retryInstruction
    match ← invokePrimaryWithRetry env consumer.failover provider request.job request.prompt with
    | .ok call => pure (request.answered call)
    | .error _ => invokePrimary env consumer job retryInstruction primary

/-! ### What all paths have in common -/

/-- A prepared request has an excerpt and says so, or has none and says so. A job that needs no content
and brings an excerpt is sent with its own. -/
structure PreparedRequest.Sound (base : ClassificationJobPayload) (request : PreparedRequest) :
    Prop where
  mode : (request.contextMode = .withExcerpt ∧ hasContent request.job.contentExcerpt = true) ∨
    (request.contextMode = .metadataOnly ∧ request.job.contentExcerpt = none)
  own : base.requiresContent = false → hasContent base.contentExcerpt = true →
    request.contextMode = .withExcerpt → request.job.contentExcerpt = base.contentExcerpt

/-- A verdict is the answer to a sound request, or synthesized. -/
inductive Invocation.Sound (base : ClassificationJobPayload) : Invocation → Prop where
  | answered (request : PreparedRequest) (call : ProviderCall) (hrequest : request.Sound base)
      (hjob : call.job = request.job) : Sound base (request.answered call)
  | synthesized (reason : String) : Sound base (insufficientEvidence reason)

variable (env : Environment) (consumer : JobConsumer) (job : ClassificationJobPayload) (provider : ResolvedProvider)
  (retryInstruction : Option String)

lemma contentPlan_requireContent {provider : ResolvedProvider} {job : ClassificationJobPayload}
    (h : job.requiresContent = false) : (contentPlan cfg provider job).requireContent = false := by
  unfold contentPlan
  split
  · exact h
  · cases cfg.contentRequiredMode <;> cases cfg.mode <;> simp [h]

lemma providerRequestPlan_returns (cfg : OnlineContextRuntime) :
    Returns (providerRequestPlan env cfg provider job) fun plan =>
      job.requiresContent = false → plan.requireContent = false := by
  unfold providerRequestPlan
  split
  · refine (Returns.trivial _).bind fun reason _ => ?_
    cases reason with
    | some reason => exact .pure fun _ => rfl
    | none => exact .pure contentPlan_requireContent
  · exact .pure contentPlan_requireContent

/-- Only the content of a job is added to. One that is not made to wait for content keeps an excerpt of its own. -/
lemma enrichJobWithContent_returns (requireContent : Bool) :
    Returns (enrichJobWithContent env job requireContent) fun enriched =>
      enriched.withoutContent = job.withoutContent ∧ (requireContent = false → hasContent job.contentExcerpt = true →
        enriched.contentExcerpt = job.contentExcerpt) := by
  unfold enrichJobWithContent
  split
  · rename_i hrequire
    refine (Returns.trivial _).bind fun snippet _ => .pure ⟨rfl, fun hfalse => ?_⟩
    exact absurd hrequire (by simp [hfalse])
  split
  · exact .pure ⟨rfl, fun _ _ => rfl⟩
  · refine (Returns.trivial _).bind fun snippet _ => ?_
    cases snippet with
    | none => exact .pure ⟨rfl, fun _ _ => rfl⟩
    | some snippet => exact .pure ⟨rfl, fun _ hown => if_pos hown⟩

/-- A request without content: its prompt is that of the job without content. -/
structure PreparedRequest.Bare (consumer : JobConsumer) (base : ClassificationJobPayload) (request : PreparedRequest) :
    Prop where
  mode : request.contextMode = .metadataOnly
  excerpt : request.job.contentExcerpt = none
  prompt : ∃ retryInstruction, request.prompt = buildPrompt base.withoutContent
    (buildTaxonomyPrompt consumer.taxonomy.taxonomy) retryInstruction .metadataOnly

/-- What is prepared for a job: a sound request, with an excerpt or bare. -/
def PreparedRequest.Prepared (consumer : JobConsumer) (base : ClassificationJobPayload) (request : PreparedRequest) :
    Prop :=
  request.Sound base ∧ (request.contextMode = .withExcerpt ∨ request.Bare consumer base)

lemma prepareProviderRequest_returns :
    Returns (prepareProviderRequest env consumer job provider retryInstruction)
      (PreparedRequest.Prepared consumer job) := by
  refine (providerRequestPlan_returns env job provider consumer.onlineContext).bind fun plan hplan => ?_
  refine (enrichJobWithContent_returns env job plan.requireContent).bind fun enriched ⟨hsame, hown⟩ => ?_
  simp only
  split
  · rename_i hsend
    refine .pure ⟨⟨Or.inl ⟨rfl, (Bool.and_eq_true _ _ ▸ hsend).2⟩, fun hrequires hhas _ => ?_⟩, Or.inl rfl⟩
    exact hown (hplan hrequires) hhas
  · exact .pure ⟨⟨Or.inr ⟨rfl, rfl⟩, fun _ _ hmode => by cases hmode⟩, Or.inr ⟨rfl, rfl, _, by rw [hsame]⟩⟩

lemma prepareOnlineVerificationRequest_prepared :
    (prepareOnlineVerificationRequest consumer job retryInstruction).Prepared consumer job :=
  ⟨⟨Or.inr ⟨rfl, rfl⟩, fun _ _ hmode => by cases hmode⟩, Or.inr ⟨rfl, rfl, _, rfl⟩⟩

/-- The call of a prepared request. -/
structure ProviderCall.Sends (call : ProviderCall) (job : ClassificationJobPayload) (prompt : String) : Prop where
  job : call.job = job
  prompt : call.prompt = prompt

/-- An answered call is about the job it was made with. -/
lemma invokeLlm_returns (prompt : String) :
    Returns (invokeLlm env provider job prompt) fun result => ∀ call, result = .ok call → call.Sends job prompt := by
  refine (Returns.trivial _).bind fun t _ => (Returns.trivial _).bind fun _ _ => ?_
  split
  · exact .pure fun call h => by cases h
  split
  · exact .pure fun call h => by cases h
  · refine .pure fun call h => ?_
    cases h
    exact ⟨rfl, rfl⟩

lemma retryLoop_returns (failover : FailoverRuntime) (prompt : String) (left attempt : ℕ) :
    Returns (retryLoop env failover provider job prompt left attempt) fun result =>
      ∀ call, result = .ok call → call.Sends job prompt := by
  induction left generalizing attempt with
  | zero =>
    unfold retryLoop
    refine (invokeLlm_returns env job provider prompt).bind fun result hresult => ?_
    cases result with
    | ok call => exact .pure fun call' h => Except.ok.inj h ▸ hresult call rfl
    | error err => exact .pure fun call h => by cases h
  | succ left ih =>
    unfold retryLoop
    refine (invokeLlm_returns env job provider prompt).bind fun result hresult => ?_
    cases result with
    | ok call => exact .pure fun call' h => Except.ok.inj h ▸ hresult call rfl
    | error err =>
      simp only
      split
      · exact .pure fun call h => by cases h
      · exact (Returns.trivial _).bind fun _ _ => ih (attempt + 1)

/-- A verdict is the answer to a request that was prepared, or synthesized. -/
inductive Invocation.Made (consumer : JobConsumer) (base : ClassificationJobPayload) : Invocation → Prop where
  | answered (request : PreparedRequest) (call : ProviderCall) (hrequest : request.Prepared consumer base)
      (hcall : call.Sends request.job request.prompt) : Made consumer base (request.answered call)
  | synthesized (reason : String) : Made consumer base (insufficientEvidence reason)

variable {consumer job} in
lemma Invocation.Made.sound {invocation : Invocation} (h : invocation.Made consumer job) : invocation.Sound job := by
  cases h with
  | answered request call hrequest hcall => exact .answered request call hrequest.1 hcall.job
  | synthesized reason => exact .synthesized reason

lemma callFallback_made (failure : InvocationFailure) :
    Returns (callFallback env consumer job retryInstruction provider failure) (Invocation.Made consumer job) := by
  have hrequest : Returns (fallbackRequest env consumer job retryInstruction provider failure.outputInvalid)
      (PreparedRequest.Prepared consumer job) := by
    unfold fallbackRequest
    split
    · exact .pure (prepareOnlineVerificationRequest_prepared consumer job retryInstruction)
    · exact prepareProviderRequest_returns env consumer job provider retryInstruction
  refine hrequest.bind fun request hprepared => ?_
  refine (invokeLlm_returns env request.job provider request.prompt).bind fun result hresult => ?_
  cases result with
  | ok call => exact .pure (.answered request call hprepared (hresult call rfl))
  | error err =>
    refine (Returns.trivial _).bind fun _ _ => ?_
    split
    · exact .pure (.synthesized _)
    · unfold failInvocation
      split <;> exact .fail _

lemma afterPrimaryFailure_made (failure : InvocationFailure) :
    Returns (afterPrimaryFailure env consumer job retryInstruction provider failure)
      (Invocation.Made consumer job) := by
  unfold afterPrimaryFailure
  split
  · split
    · exact .pure (.synthesized _)
    · unfold failInvocation
      split <;> exact .fail _
  split
  · split
    · exact .pure (.synthesized _)
    · exact .fail _
  · refine (Returns.trivial _).bind fun budget _ => ?_
    cases budget with
    | error blockedReason =>
      simp only
      split
      · exact .pure (.synthesized _)
      · exact .fail _
    | ok _ => exact callFallback_made env consumer job _ retryInstruction failure

lemma invokePrimary_made :
    Returns (invokePrimary env consumer job retryInstruction provider) (Invocation.Made consumer job) := by
  refine (prepareProviderRequest_returns env consumer job provider retryInstruction).bind fun request hprepared => ?_
  refine (retryLoop_returns env request.job provider consumer.failover request.prompt _ 1).bind fun result hresult => ?_
  cases result with
  | ok call => exact .pure (.answered request call hprepared (hresult call rfl))
  | error failure => exact afterPrimaryFailure_made env consumer job provider retryInstruction failure

/-- **Every verdict is the answer to a request that was prepared for the job, or synthesized.** -/
theorem invokeWithFallback_made (staleProvider : Option ResolvedProvider) :
    Returns (invokeWithFallback env consumer job retryInstruction staleProvider) (Invocation.Made consumer job) := by
  unfold invokeWithFallback
  simp only
  split
  · exact invokePrimary_made env consumer job _ retryInstruction
  · rename_i provider _
    refine (prepareProviderRequest_returns env consumer job provider retryInstruction).bind
      fun request hprepared => ?_
    refine (retryLoop_returns env request.job provider consumer.failover request.prompt _ 1).bind
      fun result hresult => ?_
    cases result with
    | ok call => exact .pure (.answered request call hprepared (hresult call rfl))
    | error failure => exact invokePrimary_made env consumer job _ retryInstruction

end OpenDefender.Worker
