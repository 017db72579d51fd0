import OpenDefender.Common.Types
import OpenDefender.Lib.Text

/-!
The runtime settings of the classification worker (`workers/llm-worker/src/main.rs`): providers and
their routing, the rules for failover and its budgets, the handling of requests without page content,
and the guardrail against prompt injection.

A setting the worker clamps when it starts carries the bound as a field. Instants are nanoseconds.
-/

namespace OpenDefender.Worker

open Lib Text

/-! ### Providers -/

/-- `ProviderKind`. -/
inductive ProviderKind where
  | lmStudio
  | ollama
  | vllm
  | openai
  | anthropic
  | openaiCompatible
  | customJson
  deriving DecidableEq, Repr

/-- `ResolvedProvider`, without what only the HTTP calls use. -/
structure ResolvedProvider where
  name : String
  kind : ProviderKind
  deriving DecidableEq, Repr

/-- `is_online_provider`. -/
def isOnlineProvider (provider : ResolvedProvider) : Bool :=
  match provider.kind with
  | .openai | .openaiCompatible | .anthropic | .vllm => true
  | .lmStudio | .ollama | .customJson => false

/-- `ProviderRouter`. -/
structure ProviderRouter where
  primary : ResolvedProvider
  fallback : Option ResolvedProvider
  deriving DecidableEq, Repr

/-- `ProviderRouter::by_name`. -/
def ProviderRouter.byName (router : ProviderRouter) (name : String) : Option ResolvedProvider :=
  if router.primary.name = name then some router.primary
  else router.fallback.filter fun provider => provider.name = name

/-! ### Requests without page content -/

/-- `OnlineContextMode`. -/
inductive OnlineContextMode where
  | required
  | preferred
  | metadataOnly
  deriving DecidableEq, Repr

/-- `ContentRequiredMode`. -/
inductive ContentRequiredMode where
  | required
  | auto
  deriving DecidableEq, Repr

/-- `MetadataOnlyAllowedFor`. -/
inductive MetadataOnlyAllowedFor where
  | online
  | all
  deriving DecidableEq, Repr

/-- `PromptContextMode`. -/
inductive PromptContextMode where
  | withExcerpt
  | metadataOnly
  deriving DecidableEq, Repr

/-- `PromptContextMode::as_str`. -/
def PromptContextMode.asStr : PromptContextMode → String
  | withExcerpt => "with_excerpt"
  | metadataOnly => "metadata_only"

/-- `OnlineContextRuntime`. -/
structure OnlineContextRuntime where
  mode : OnlineContextMode
  metadataOnlyForceAction : PolicyAction
  metadataOnlyMaxConfidence : ℚ
  metadataOnlyRequeueForContent : Bool
  contentRequiredMode : ContentRequiredMode
  metadataOnlyAllowedFor : MetadataOnlyAllowedFor
  metadataOnlyFetchFailureThreshold : ℕ
  metadataOnlyNoContentStatuses : List String
  confidence_mem : 0 ≤ metadataOnlyMaxConfidence ∧ metadataOnlyMaxConfidence ≤ 1
  threshold_pos : 1 ≤ metadataOnlyFetchFailureThreshold

/-! ### The guardrail -/

/-- `PromptInjectionRuntime`. -/
structure PromptInjectionRuntime where
  enabled : Bool
  reviewThreshold : ℕ
  confidenceCap : ℚ
  threshold_pos : 1 ≤ reviewThreshold
  cap_mem : 0 ≤ confidenceCap ∧ confidenceCap ≤ 1

/-- `resolve_prompt_injection`, of the values read from the environment. -/
def resolvePromptInjection (enabled : Option Bool) (reviewThreshold : Option ℕ)
    (confidenceCap : Option ℚ) : PromptInjectionRuntime where
  enabled := enabled.getD true
  reviewThreshold := max (reviewThreshold.getD 3) 1
  confidenceCap := min (max (confidenceCap.getD (40 / 100)) 0) 1
  threshold_pos := le_max_right _ _
  cap_mem := ⟨le_min (le_max_right _ _) zero_le_one, min_le_right _ _⟩

/-! ### Failover -/

/-- `FailoverPolicy`. -/
inductive FailoverPolicy where
  | aggressive
  | safe
  | disabled
  deriving DecidableEq, Repr

/-- `FailoverRuntime`. -/
structure FailoverRuntime where
  policy : FailoverPolicy
  primaryRetryMax : ℕ
  primaryRetryBackoffMs : ℕ
  primaryRetryMaxBackoffMs : ℕ
  retryableStatusCodes : List ℕ
  fallbackCooldownSecs : ℕ
  fallbackMaxPerMin : ℕ
  deriving DecidableEq, Repr

/-- `calculate_retry_backoff_ms`; the `u64` operations saturate. -/
def calculateRetryBackoffMs (cfg : FailoverRuntime) (attempt : ℕ) : ℕ :=
  let base := max cfg.primaryRetryBackoffMs 1
  let exp := min (2 ^ min (attempt - 1) 10) (2 ^ 64 - 1)
  let raw := min (base * exp) (2 ^ 64 - 1)
  min raw (max cfg.primaryRetryMaxBackoffMs base)

/-- `InvocationFailureClass`. -/
inductive InvocationFailureClass where
  | retryable
  | nonRetryable
  deriving DecidableEq, Repr

/-- What the worker sees of a failed call: the message of the error and, where it is one of the HTTP
client, whether it is a timeout, connect or request error, and its status. -/
structure InvocationError where
  message : String
  request : Option (Bool × Option ℕ)
  deriving DecidableEq, Repr

/-- `InvocationFailure`. -/
structure InvocationFailure where
  failureClass : InvocationFailureClass
  status : Option ℕ
  reason : String
  outputInvalid : Bool
  deriving DecidableEq, Repr

/-- `is_output_invalid_message`. -/
def isOutputInvalidMessage (lowered : String) : Bool :=
  contains lowered "did not contain valid json object" ||
    contains lowered "invalid response format" || contains lowered "missing choices" ||
    contains lowered "failed to parse"

/-- `classify_invocation_failure`. -/
def classifyInvocationFailure (err : InvocationError) (failover : FailoverRuntime) :
    InvocationFailure :=
  let lowered := toAsciiLowercase err.message
  let byMessage : InvocationFailure :=
    { failureClass :=
        if contains lowered "timed out" || contains lowered "connection refused" ||
            contains lowered "temporarily unavailable" then .retryable
        else .nonRetryable
      status := none
      reason := err.message
      outputInvalid := isOutputInvalidMessage lowered }
  match err.request with
  | some (true, _) => { byMessage with failureClass := .retryable }
  | some (false, some status) =>
    { byMessage with
      failureClass :=
        if status ∈ failover.retryableStatusCodes then .retryable else .nonRetryable
      status := some status }
  | some (false, none) => byMessage
  | none => byMessage

/-- `should_attempt_fallback`. -/
def shouldAttemptFallback (failover : FailoverRuntime) (failure : InvocationFailure) : Bool :=
  if failure.outputInvalid then true
  else
    match failover.policy with
    | .disabled => false
    | .aggressive => true
    | .safe => failure.failureClass = .retryable

/-! ### Budgets -/

/-- A duration of the given seconds, in nanoseconds. -/
def seconds (n : ℕ) : ℕ := n * 1000000000

/-- `duration_since(ts).as_secs()`, zero for an instant in the future. -/
def elapsedSecs (now ts : ℕ) : ℕ := (now - ts) / 1000000000

/-- `WindowBudgetState`, also the window of `FallbackBudgetState`. -/
structure WindowBudgetState where
  windowStart : ℕ
  windowEvents : List ℕ
  deriving DecidableEq, Repr

/-- The window at `now`: begun anew after a minute, without the events older than that. -/
def WindowBudgetState.current (s : WindowBudgetState) (now : ℕ) : WindowBudgetState :=
  let s := if 60 ≤ elapsedSecs now s.windowStart then { windowStart := now, windowEvents := [] } else s
  { s with windowEvents := s.windowEvents.dropWhile fun ts => 60 ≤ elapsedSecs now ts }

/-- `WindowBudgetState::allow_and_record`. -/
def WindowBudgetState.allowAndRecord (s : WindowBudgetState) (now maxPerMin : ℕ) :
    Bool × WindowBudgetState :=
  let s := s.current now
  if maxPerMin ≤ s.windowEvents.length then (false, s)
  else (true, { s with windowEvents := s.windowEvents ++ [now] })

/-- `FallbackBudgetState`. -/
structure FallbackBudgetState where
  openedUntil : Option ℕ
  window : WindowBudgetState
  deriving DecidableEq, Repr

/-- `FallbackBudgetState::allow_and_record`. -/
def FallbackBudgetState.allowAndRecord (s : FallbackBudgetState) (now : ℕ) (cfg : FailoverRuntime) :
    Except String Unit × FallbackBudgetState :=
  if s.openedUntil.any (now < ·) then (.error "cooldown_active", s)
  else
    match s.window.allowAndRecord now cfg.fallbackMaxPerMin with
    | (true, window) => (.ok (), { openedUntil := none, window })
    | (false, window) => (.error "budget_exhausted", { openedUntil := none, window })

/-- `FallbackBudgetState::trip_cooldown`. -/
def FallbackBudgetState.tripCooldown (s : FallbackBudgetState) (now : ℕ) (cfg : FailoverRuntime) :
    FallbackBudgetState :=
  { s with openedUntil := some (now + seconds cfg.fallbackCooldownSecs) }

/-- `StalePendingRuntime`. -/
structure StalePendingRuntime where
  thresholdMinutes : ℕ
  onlineProvider : ResolvedProvider
  healthTtlSecs : ℕ
  maxPerMin : ℕ
  deriving DecidableEq, Repr

/-- `ProviderHealthState`. -/
structure ProviderHealthState where
  checkedAt : ℕ
  healthy : Bool
  deriving DecidableEq, Repr

end OpenDefender.Worker
