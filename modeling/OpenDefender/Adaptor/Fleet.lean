import OpenDefender.Adaptor.Connection
import OpenDefender.Lib.Coherence
import OpenDefender.Lib.Wildcard

/-!
Several adaptors with one Redis: the caches that requests fill and that invalidation clears.

Each adaptor has its own memory map and subscribes to the invalidation channel; Redis is shared. The
instance of `Lib.Coherence` fixes the language: Redis key patterns and the adaptors' messages.
`Fleet.handleRequest_ok` says what a request can do to the caches.
-/

namespace OpenDefender.Adaptor

open Lib Text Coherence Wildcard Lib.Outcome

/-- The caches of `n` adaptors. -/
abbrev Fleet (n : ℕ) (γ : Type) := Cluster n String (CacheEntry γ)

/-- Commands to Redis. -/
abbrev RedisCommand := Command String String CacheInvalidationEvent

/-- An invalidation in progress. -/
abbrev Invalidation (n : ℕ) := Job n String String CacheInvalidationEvent

/-- Redis patterns, and messages as the adaptors apply them. -/
def dialect (γ : Type) : Dialect String (CacheEntry γ) String CacheInvalidationEvent where
  fits := globMatches
  clears := CacheInvalidationEvent.clears
  apply := applyInvalidation
  get_apply := get_applyInvalidation

variable {n : ℕ} {γ : Type}

variable (fleet : Fleet n γ) (a : Fin n)

/-- The cache client of one adaptor. -/
def Fleet.client : CacheClient γ :=
  { memory := fleet.memories a, redis := some fleet.server.data }

/-- The caches after a client's cache has become `cache`. -/
def Fleet.putBack (cache : CacheClient γ) : Fleet n γ :=
  { memories := Function.update fleet.memories a cache.memory
    server := { fleet.server with data := cache.redis.getD fleet.server.data } }

/-- `handle_connection` at adaptor `a`: the answer and the caches afterwards. -/
def Fleet.handleRequest (cfg : IcapConfig) (libs : HostLibs)
    (evaluate : PolicyDecisionRequest → Except String (PolicyDecision × γ)) (now : Nat)
    (req : IcapRequest) : Except String (Answer × Fleet n γ) := do
  let outcome ← handleConnection cfg libs evaluate now (fleet.client a) req
  return (outcome.answer, fleet.putBack a outcome.cache)

/-- The entry a fill writes to memory. -/
def memoryEntry (cfg : IcapConfig) (now : Nat) (decision : PolicyDecision) (origin : γ) :
    CacheEntry γ :=
  { decision := responseDecision cfg decision
    expiresAt := now + responseTtl cfg decision
    origin }

/-- The entry a fill writes to Redis. -/
def redisEntry (cfg : IcapConfig) (now : Nat) (decision : PolicyDecision) (origin : γ) :
    CacheEntry γ :=
  { decision := responseDecision cfg decision
    expiresAt := now + max (responseTtl cfg decision) 1
    origin }

/-! ### Keys of the fleet -/

/-- A key of a domain or of a subdomain. -/
def IsHostKey (key : String) : Prop :=
  ∃ host, key = "domain:" ++ host ∨ key = "subdomain:" ++ host

variable {libs : HostLibs} {req : IcapRequest}

/-- Requests have such keys. -/
lemma isHostKey_of_requestTarget (h : requestTarget libs req = .ok (target, host)) :
    IsHostKey target.normalizedKey := by
  obtain ⟨_, path, hnormalized⟩ := requestTarget_ok h
  obtain ⟨hostname, fullUrl, rfl, _⟩ := normalizeTarget_ok hnormalized
  refine ⟨hostname, ?_⟩
  simp only [targetOfHost]
  split
  · exact Or.inr rfl
  · exact Or.inl rfl

/-- The key a request asks the engine for, if the cache does not answer it. -/
def Fleet.missedKey (fleet : Fleet n γ) (a : Fin n) (libs : HostLibs) (now : Nat)
    (req : IcapRequest) : Option String :=
  if eqIgnoreAsciiCase req.method "OPTIONS" then none
  else
    match requestTarget libs req with
    | .error _ => none
    | .ok (target, _) =>
      if (resolveCachedDecision (fleet.client a) now target).isNone then some target.normalizedKey
      else none

variable {evaluate : PolicyDecisionRequest → Except String (PolicyDecision × γ)}

/-- **What a request can do.** The caches change only under a host key the request misses, by the
decision of the engine. -/
theorem Fleet.handleRequest_ok {fleet fleet' : Fleet n γ} {a : Fin n} {cfg : IcapConfig} {now : Nat}
    {answer : Answer} (h : fleet.handleRequest a cfg libs evaluate now req = .ok (answer, fleet')) :
    fleet' = fleet ∨
      ∃ key r decision origin,
        fleet.missedKey a libs now req = some key ∧ IsHostKey key ∧
        evaluate r = .ok (decision, origin) ∧
        fleet' = fleet.fill a key (memoryEntry cfg now decision origin)
          (redisEntry cfg now decision origin) := by
  obtain ⟨outcome, houtcome, h⟩ := bind_ok.1 h
  obtain ⟨_, rfl⟩ := Prod.mk.inj (Except.ok.inj h)
  by_cases hoptions : eqIgnoreAsciiCase req.method "OPTIONS" = true
  · left
    simp only [handleConnection, hoptions, if_true] at houtcome
    cases houtcome
    simp [putBack, client]
  rcases handleConnection_cache houtcome with hsame | ⟨target, host, decision, origin, ht, hc, he, hs⟩
  · left
    rw [hsame]
    simp [putBack, client]
  · refine Or.inr ⟨_, _, decision, origin, ?_, isHostKey_of_requestTarget ht, he, ?_⟩
    · rw [missedKey, if_neg hoptions, ht]
      simp [hc]
    · rw [hs]
      rfl

/-! ### A miss in two steps -/

/-- The first step of a request that misses: the key it asks for and the engine's answer. -/
def Fleet.evaluateMiss (fleet : Fleet n γ) (a : Fin n) (libs : HostLibs)
    (evaluate : PolicyDecisionRequest → Except String (PolicyDecision × γ)) (now : Nat)
    (req : IcapRequest) : Option (String × PolicyDecision × γ) :=
  if eqIgnoreAsciiCase req.method "OPTIONS" then none
  else
    match requestTarget libs req with
    | .error _ => none
    | .ok (target, httpHost) =>
      if (resolveCachedDecision (fleet.client a) now target).isSome then none
      else
        match evaluate (decisionRequest target httpHost (extractIdentity req.headers)) with
        | .error _ => none
        | .ok (decision, origin) => some (target.normalizedKey, decision, origin)

/-- The answer is one the engine has given. -/
lemma Fleet.evaluateMiss_evaluate {fleet : Fleet n γ} {a : Fin n} {now : Nat} {key : String}
    {decision : PolicyDecision} {origin : γ}
    (h : fleet.evaluateMiss a libs evaluate now req = some (key, decision, origin)) :
    ∃ r, evaluate r = .ok (decision, origin) := by
  unfold evaluateMiss at h
  split at h
  · cases h
  split at h
  · cases h
  split at h
  · cases h
  split at h
  · cases h
  · rename_i hengine
    obtain ⟨-, rfl, rfl⟩ : _ ∧ _ = decision ∧ _ = origin := by simpa using h
    exact ⟨_, hengine⟩

/-- The second step: the answer goes to the adaptor's memory and to Redis. -/
def Fleet.setDecision (fleet : Fleet n γ) (a : Fin n) (cfg : IcapConfig) (now : Nat) (key : String)
    (decision : PolicyDecision) (origin : γ) : Fleet n γ :=
  fleet.fill a key (memoryEntry cfg now decision origin) (redisEntry cfg now decision origin)

/-- The two steps one after the other are the request. -/
theorem Fleet.handleRequest_of_evaluateMiss (cfg : IcapConfig) {fleet : Fleet n γ} {a : Fin n}
    {now : Nat} {key : String} {decision : PolicyDecision} {origin : γ}
    (h : fleet.evaluateMiss a libs evaluate now req = some (key, decision, origin)) :
    IsHostKey key ∧ ∃ answer, fleet.handleRequest a cfg libs evaluate now req =
      .ok (answer, fleet.setDecision a cfg now key decision origin) := by
  unfold evaluateMiss at h
  split at h
  · cases h
  · rename_i hmethod
    split at h
    · cases h
    · rename_i target httpHost htarget
      split at h
      · cases h
      · rename_i hcached
        split at h
        · cases h
        · rename_i decision' origin' hengine
          obtain ⟨rfl, rfl, rfl⟩ : target.normalizedKey = key ∧ decision' = decision ∧
              origin' = origin := by simpa using h
          obtain ⟨effects, hmiss⟩ := handleConnection_miss cfg evaluate
            (Bool.eq_false_iff.2 hmethod) htarget (by simpa using hcached) hengine
          refine ⟨isHostKey_of_requestTarget htarget,
            .action (responseDecision cfg decision').action, ?_⟩
          rw [handleRequest, hmiss]
          rfl

end OpenDefender.Adaptor
