import OpenDefender.Common.Normalizer

/-!
The decision cache of the ICAP adaptor (`services/icap-adaptor/src/cache.rs`): a map in memory and
the same keys in Redis, with the invalidation messages that reach the map.

A cached decision here also carries its `origin`, a value of any type that says what it was computed
from. The source has no such field and no function reads it; it is there for statements about how
fresh the cached decisions are. Redis values are the decisions themselves: writing a decision as
JSON and reading it back gives the decision.
-/

namespace OpenDefender.Adaptor

open Lib Text

/-- `CacheEntry`, with the origin of its decision. -/
structure CacheEntry (γ : Type) where
  decision : PolicyDecision
  expiresAt : Nat
  origin : γ
  deriving DecidableEq, Repr

/-- `CacheClient`: the memory map, and the Redis keys if Redis is configured. -/
structure CacheClient (γ : Type) where
  memory : Assoc String (CacheEntry γ)
  redis : Option (Assoc String (CacheEntry γ))

namespace CacheClient

variable {γ : Type}

/-- The cache at start. -/
def empty (withRedis : Bool) : CacheClient γ :=
  { memory := .empty, redis := if withRedis then some .empty else none }

variable (cache : CacheClient γ) (now : Nat)

/-- `memory_get`: an entry counts up to and including its last instant. -/
def memoryGet (key : String) : Option PolicyDecision :=
  ((cache.memory.get key).filter fun entry => now ≤ entry.expiresAt).map (·.decision)

/-- `redis_get`: Redis has dropped a key at the end of its time to live. -/
def redisGet (key : String) : Option PolicyDecision :=
  ((cache.redis.bind (·.get key)).filter fun entry => now < entry.expiresAt).map (·.decision)

/-- `CacheClient::get`: memory, then Redis. A Redis answer is not copied into memory. -/
def get (key : String) : Option PolicyDecision :=
  (cache.memoryGet now key).or (cache.redisGet now key)

/-- `CacheClient::set`. -/
def set (cache : CacheClient γ) (now : Nat) (key : String) (decision : PolicyDecision) (ttl : Nat)
    (origin : γ) : CacheClient γ :=
  { memory := cache.memory.set key { decision, expiresAt := now + ttl, origin }
    redis := cache.redis.map fun store =>
      store.set key { decision, expiresAt := now + max ttl 1, origin } }

/-- The entry a lookup finds if it has not expired: memory first. -/
def held (key : String) : Option (CacheEntry γ) :=
  (cache.memory.get key).or (cache.redis.bind (·.get key))

/-- No entry of either store has run out of time. -/
structure NothingExpired (cache : CacheClient γ) (now : Nat) : Prop where
  memory : ∀ key entry, cache.memory.get key = some entry → now ≤ entry.expiresAt
  redis : ∀ key entry, cache.redis.bind (·.get key) = some entry → now < entry.expiresAt

/-- It is enough to look at the bindings. -/
lemma nothingExpired_of_bindings {cache : CacheClient γ} {now : Nat}
    (hmemory : ∀ b ∈ cache.memory.bindings, now ≤ b.2.expiresAt)
    (hredis : ∀ store ∈ cache.redis, ∀ b ∈ store.bindings, now < b.2.expiresAt) :
    cache.NothingExpired now := by
  refine ⟨fun key entry h => hmemory _ (Assoc.mem_bindings_of_get h), fun key entry h => ?_⟩
  obtain ⟨store, hstore, hget⟩ := Option.bind_eq_some_iff.1 h
  exact hredis store hstore _ (Assoc.mem_bindings_of_get hget)

/-- Without expiry a lookup returns what is held. -/
lemma NothingExpired.get {cache : CacheClient γ} {now : Nat} (h : cache.NothingExpired now)
    (key : String) : cache.get now key = (cache.held key).map (·.decision) := by
  unfold CacheClient.get memoryGet redisGet held
  cases hm : cache.memory.get key with
  | some entry => simp [Option.filter, h.memory key entry hm]
  | none =>
    cases hr : cache.redis.bind (·.get key) with
    | some entry => simp [Option.filter, h.redis key entry hr]
    | none => rfl

/-- After `set` the new entry is held under its key and nothing else has changed. -/
lemma held_set (key : String) (decision : PolicyDecision) (ttl : Nat) (origin : γ) (key' : String) :
    (cache.set now key decision ttl origin).held key' =
      if key' = key then some { decision, expiresAt := now + ttl, origin } else cache.held key' := by
  unfold held set
  by_cases h : key' = key
  · simp [h]
  · cases cache.redis <;> simp [h]

end CacheClient

/-! ### Invalidation messages -/

/-- `CacheInvalidationEvent`. -/
inductive CacheInvalidationEvent where
  | override (scopeType scopeValue : String)
  | review (normalizedKey : String)
  | policy
  deriving DecidableEq, Repr

/-- `key_matches_domain_scope`: a `domain:` key matches its own host only; a `subdomain:` key also
every scope above it, with or without the wildcard. -/
def keyMatchesDomainScope (key scopeValue : String) (wildcard : Bool) : Bool :=
  match stripPrefix "domain:" key with
  | some host => host == scopeValue
  | none =>
    match stripPrefix "subdomain:" key with
    | some host =>
      if wildcard then host == scopeValue || endsWith host ("." ++ scopeValue)
      else host == scopeValue || endsWith host ("." ++ scopeValue)
    | none => false

/-- A scope without its `*.`, and whether it had one. -/
def splitWildcard (scopeValue : String) : Bool × String :=
  match stripPrefix "*." scopeValue with
  | some rest => (true, rest)
  | none => (false, scopeValue)

variable {ν : Type}

variable (memory : Assoc String ν)

/-- `invalidate_scope`. -/
def invalidateScope (scopeType scopeValue : String) : Assoc String ν :=
  if scopeType ≠ "domain" then .empty
  else
    let (wildcard, value) := splitWildcard scopeValue
    memory.retain fun key => !keyMatchesDomainScope key value wildcard

/-- `invalidate_key`. -/
def invalidateKey (normalizedKey : String) : Assoc String ν :=
  memory.erase normalizedKey

/-- `invalidate_policy`. -/
def invalidatePolicy (_memory : Assoc String ν) : Assoc String ν :=
  .empty

/-- `apply_invalidation`. -/
def applyInvalidation : CacheInvalidationEvent → Assoc String ν
  | .override scopeType scopeValue => invalidateScope memory scopeType scopeValue
  | .review normalizedKey => invalidateKey memory normalizedKey
  | .policy => invalidatePolicy memory

/-- The keys a domain scope invalidates. -/
def ScopeCoversKey (scopeValue key : String) : Prop :=
  keyMatchesDomainScope key (splitWildcard scopeValue).2 (splitWildcard scopeValue).1 = true

instance (scopeValue key : String) : Decidable (ScopeCoversKey scopeValue key) :=
  inferInstanceAs (Decidable (_ = true))

/-- After a domain scope is applied, exactly the keys it covers are gone from memory. -/
lemma get_invalidateScope_domain (scopeValue key : String) :
    (invalidateScope memory "domain" scopeValue).get key =
      if ScopeCoversKey scopeValue key then none else memory.get key := by
  simp only [invalidateScope, ne_eq, not_true_eq_false, if_false, Assoc.get_retain]
  by_cases h : ScopeCoversKey scopeValue key
  · have hmatch : keyMatchesDomainScope key (splitWildcard scopeValue).2
        (splitWildcard scopeValue).1 = true := h
    rw [if_pos h, hmatch]
    rfl
  · have hmatch : keyMatchesDomainScope key (splitWildcard scopeValue).2
        (splitWildcard scopeValue).1 = false := Bool.eq_false_iff.2 h
    rw [if_neg h, hmatch]
    rfl

/-- The keys a message removes from memory. -/
def CacheInvalidationEvent.clears : CacheInvalidationEvent → String → Bool
  | .override scopeType scopeValue, key => scopeType ≠ "domain" || ScopeCoversKey scopeValue key
  | .review normalizedKey, key => key == normalizedKey
  | .policy, _ => true

/-- After a message is applied, exactly the keys it clears are gone from memory. -/
lemma get_applyInvalidation (event : CacheInvalidationEvent) (key : String) :
    (applyInvalidation memory event).get key =
      if event.clears key then none else memory.get key := by
  cases event with
  | override scopeType scopeValue =>
    by_cases htype : scopeType = "domain"
    · subst htype
      simp [applyInvalidation, CacheInvalidationEvent.clears, get_invalidateScope_domain]
    · simp [applyInvalidation, CacheInvalidationEvent.clears, invalidateScope, htype]
  | review normalizedKey => simp [applyInvalidation, CacheInvalidationEvent.clears, invalidateKey]
  | policy => rfl

/-- The keys a scope covers, written out: the host itself under either prefix, and every name below
it under the prefix of subdomains. The wildcard makes no difference. -/
lemma scopeCoversKey_iff :
    ScopeCoversKey scopeValue key ↔
      key = "domain:" ++ (splitWildcard scopeValue).2 ∨
      key = "subdomain:" ++ (splitWildcard scopeValue).2 ∨
      ∃ u, key = "subdomain:" ++ (u ++ ("." ++ (splitWildcard scopeValue).2)) := by
  unfold ScopeCoversKey keyMatchesDomainScope
  generalize (splitWildcard scopeValue).2 = value
  generalize (splitWildcard scopeValue).1 = wildcard
  cases hd : stripPrefix "domain:" key with
  | some host =>
    obtain rfl := stripPrefix_eq_some.1 hd
    simp [domain_ne_subdomain]
  | none =>
    have hnot := stripPrefix_eq_none.1 hd
    cases hs : stripPrefix "subdomain:" key with
    | some host =>
      obtain rfl := stripPrefix_eq_some.1 hs
      simp [hnot, endsWith_iff]
    | none => simp [hnot, stripPrefix_eq_none.1 hs]

end OpenDefender.Adaptor
