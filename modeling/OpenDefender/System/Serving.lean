import OpenDefender.Adaptor.Connection
import OpenDefender.Engine.Decision
import OpenDefender.Lib.Run

/-!
The adaptor in front of the policy engine: sequences of requests, answered by the engine or from the
decision cache.

The cache is keyed by the normalised key alone, while the engine's answer also depends on the user, the groups
and the HTTP host of the request. `served_eq_engine_iff` says when this shows.
-/

namespace OpenDefender.System

open Lib Text Run Adaptor Engine List

/-! ### Asking the engine -/

/-- A decision request as the engine's API reads it from JSON: an empty group list is left out by
the sender and read as absent. -/
def engineRequest (r : PolicyDecisionRequest) : DecisionRequest :=
  { normalizedKey := r.normalizedKey
    entityLevel := r.entityLevel.wireName
    sourceIp := r.sourceIp
    userId := r.userId
    groupIds := if r.groupIds.isEmpty then none else some r.groupIds }

/-- `PolicyClient::evaluate` on an engine in the given state; the origin is attached to the answer.
-/
def askEngine {γ : Type} (state : AppState) (now : Nat) (origin : γ) (r : PolicyDecisionRequest) :
    Except String (PolicyDecision × γ) :=
  match handleDecision state now (engineRequest r) with
  | .ok decision => .ok (decision, origin)
  | .error err => .error err.message

variable {state : AppState} {r : PolicyDecisionRequest}

/-- The origin of an answer is the one given. -/
lemma askEngine_origin {γ : Type} {now : Nat} {origin origin' : γ} {decision : PolicyDecision}
    (h : askEngine state now origin r = .ok (decision, origin')) : origin' = origin := by
  unfold askEngine at h
  split at h
  · exact (Prod.mk.inj (Except.ok.inj h)).2.symm
  · cases h

/-- The engine answers every request that has a key. -/
lemma askEngine_ok {γ : Type} (state : AppState) (now : Nat) (origin : γ)
    (hkey : r.normalizedKey.isEmpty = false) :
    ∃ decision, askEngine state now origin r = .ok (decision, origin) ∧
      decision.action = state.engineAction now (engineRequest r) := by
  obtain ⟨decision, hd, haction⟩ :=
    handleDecision_ok state now (engineRequest r) hkey
  exact ⟨decision, by rw [askEngine, hd], haction⟩

/-- A request for a registered domain: what arrives, and the target it normalises to. -/
structure DomainArrival (libs : HostLibs) where
  now : Nat
  req : IcapRequest
  target : NormalizedTarget
  host : String
  method : eqIgnoreAsciiCase req.method "OPTIONS" = false
  resolved : requestTarget libs req = .ok (target, host)
  level : target.entityLevel = .domain

namespace DomainArrival

variable {libs : HostLibs}

/-- The key the decision of this request is cached under. -/
def key (a : DomainArrival libs) : String :=
  a.target.normalizedKey

/-- The request the engine gets for this request's own host, user and groups. -/
def request (a : DomainArrival libs) : PolicyDecisionRequest :=
  decisionRequest a.target a.host (extractIdentity a.req.headers)

/-- The action the engine returns for it. -/
def engineAction (state : AppState) (a : DomainArrival libs) : PolicyAction :=
  state.engineAction a.now (engineRequest a.request)

lemma key_not_empty (a : DomainArrival libs) : a.request.normalizedKey.isEmpty = false := by
  obtain ⟨-, path, hnormalized⟩ := requestTarget_ok a.resolved
  exact normalizeTarget_key_not_empty hnormalized

end DomainArrival

/-- The adaptor between requests: its cache and what it has served. -/
structure Session (libs : HostLibs) where
  cache : CacheClient Unit
  served : List (DomainArrival libs × Answer)

/-- An adaptor that has just started, with or without Redis. -/
def Session.start (libs : HostLibs) (withRedis : Bool) : Session libs :=
  { cache := .empty withRedis, served := [] }

variable {libs : HostLibs}

/-- One request against an engine in a fixed state. -/
def serve (cfg : IcapConfig) (state : AppState) (s : Session libs) (a : DomainArrival libs) :
    Option (Session libs) :=
  match handleConnection cfg libs (askEngine state a.now ()) a.now s.cache a.req with
  | .ok outcome => some { cache := outcome.cache, served := s.served ++ [(a, outcome.answer)] }
  | .error _ => none

/-- A registered domain has no ancestor to inherit from: the lookup is exact. -/
lemma resolveCachedDecision_domain (cache : CacheClient Unit) (now : Nat)
    (ht : t.entityLevel = .domain) :
    resolveCachedDecision cache now t =
      (cache.get now t.normalizedKey).map fun decision => (decision, .exact) := by
  have hnone : ancestorDomainKey t = none := by simp [ancestorDomainKey, ht]
  unfold resolveCachedDecision
  rw [hnone]
  cases cache.get now t.normalizedKey <;> rfl

/-- What one request does: it is served the cached decision and nothing changes, or it is served
the engine's decision, which is then cached. -/
lemma serve_cases (cfg : IcapConfig) (state : AppState) (s : Session libs) (a : DomainArrival libs) :
    (∃ decision, s.cache.get a.now a.key = some decision ∧
      serve cfg state s a = some { cache := s.cache
                                   served := s.served ++ [(a, .action decision.action)] }) ∨
    (∃ decision : PolicyDecision, s.cache.get a.now a.key = none ∧
      decision.action = a.engineAction state ∧
      serve cfg state s a =
        some { cache := s.cache.set a.now a.key (responseDecision cfg decision)
                 (responseTtl cfg decision) ()
               served := s.served ++ [(a, .action (responseDecision cfg decision).action)] }) := by
  have hcached := resolveCachedDecision_domain s.cache a.now a.level
  cases hget : s.cache.get a.now a.key with
  | some decision =>
    left
    rw [DomainArrival.key] at hget
    rw [hget] at hcached
    obtain ⟨effects, hout⟩ :=
      handleConnection_hit cfg (askEngine state a.now ()) a.method a.resolved hcached
    exact ⟨decision, rfl, by rw [serve, hout]⟩
  | none =>
    right
    rw [DomainArrival.key] at hget
    rw [hget] at hcached
    obtain ⟨decision, hengine, haction⟩ := askEngine_ok state a.now () a.key_not_empty
    obtain ⟨effects, hout⟩ :=
      handleConnection_miss cfg (askEngine state a.now ()) a.method a.resolved hcached hengine
    exact ⟨decision, rfl, haction, by rw [serve, hout]; rfl⟩

/-- Every request finds a next state: the engine answers every key. -/
lemma serve_total (cfg : IcapConfig) (state : AppState) (s : Session libs) (a : DomainArrival libs) :
    ∃ s', serve cfg state s a = some s' := by
  rcases serve_cases cfg state s a with ⟨_, _, h⟩ | ⟨_, _, _, h⟩ <;> exact ⟨_, h⟩

/-- Each request is logged with its answer. -/
lemma serve_served {cfg : IcapConfig} {s s' : Session libs} {a : DomainArrival libs}
    (h : serve cfg state s a = some s') :
    s'.served.map Prod.fst = s.served.map Prod.fst ++ [a] := by
  rcases serve_cases cfg state s a with ⟨_, _, hs⟩ | ⟨_, _, _, hs⟩
  all_goals
    rw [hs] at h
    cases h
    simp

/-- The cache in terms of what was served: every served request has its answer in the cache, and
every cached decision is the engine's answer to some request that was served. -/
structure Session.Recorded (state : AppState) (s : Session libs) : Prop where
  answered : ∀ p ∈ s.served, ∃ entry, s.cache.held p.1.key = some entry ∧
    p.2 = .action entry.decision.action
  computed : ∀ key entry, s.cache.held key = some entry →
    ∃ p ∈ s.served, p.1.key = key ∧ entry.decision.action = p.1.engineAction state

lemma recorded_start (state : AppState) (withRedis : Bool) :
    (Session.start libs withRedis).Recorded state := by
  refine ⟨fun p hp => absurd hp not_mem_nil, fun key entry h => ?_⟩
  have hnone : (Session.start libs withRedis).cache.held key = none := by
    cases withRedis <;> rfl
  rw [hnone] at h
  cases h

/-- The step lemma: as long as nothing expires, a request keeps the record. -/
lemma recorded_serve {cfg : IcapConfig} {s s' : Session libs} {a : DomainArrival libs}
    (hgate : cfg.requireContent = false) (hs : s.Recorded state)
    (hfresh : s.cache.NothingExpired a.now) (h : serve cfg state s a = some s') :
    s'.Recorded state := by
  have hheld := hfresh.get a.key
  rcases serve_cases cfg state s a with ⟨decision, hget, hserve⟩ | ⟨decision, hget, haction, hserve⟩
  · -- a hit: the entry that answers is the one held
    rw [hserve] at h
    cases h
    rw [hget] at hheld
    obtain ⟨entry, hentry, hdecision⟩ := Option.map_eq_some_iff.1 hheld.symm
    refine ⟨fun p hp => ?_, fun key e he => ?_⟩
    · rcases mem_append.1 hp with hp | hp
      · exact hs.answered p hp
      · obtain rfl := mem_singleton.1 hp
        exact ⟨entry, hentry, by rw [hdecision]⟩
    · obtain ⟨p, hp, hkey, hact⟩ := hs.computed key e he
      exact ⟨p, mem_append_left _ hp, hkey, hact⟩
  · -- a miss: the key held nothing, so no earlier request had it
    rw [hserve] at h
    cases h
    have hnone : s.cache.held a.key = none := by
      rw [hget] at hheld
      exact Option.map_eq_none_iff.1 hheld.symm
    have hact : (responseDecision cfg decision).action = a.engineAction state := by
      rw [responseDecision_action hgate, haction]
    refine ⟨fun p hp => ?_, fun key e he => ?_⟩
    · rw [CacheClient.held_set]
      rcases mem_append.1 hp with hp | hp
      · obtain ⟨entry, hentry, hanswer⟩ := hs.answered p hp
        have hne : p.1.key ≠ a.key := by
          intro heq
          rw [heq, hnone] at hentry
          cases hentry
        exact ⟨entry, by rw [if_neg hne]; exact hentry, hanswer⟩
      · obtain rfl := mem_singleton.1 hp
        exact ⟨_, if_pos rfl, rfl⟩
    · rw [CacheClient.held_set] at he
      split at he
      · rename_i heq
        cases he
        exact ⟨_, mem_append_right _ mem_cons_self, heq.symm, hact⟩
      · obtain ⟨p, hp, hkey, hact'⟩ := hs.computed key e he
        exact ⟨p, mem_append_left _ hp, hkey, hact'⟩

/-- **Cached answers and the engine's answers.** For every sequence of requests to registered
domains handled by one adaptor from an empty cache, with nothing expiring and the content gate off,
every request is answered, and the answers are all those of the engine for the request's own host,
user and groups exactly when the engine gives the same action to any two requests of the sequence
with the same key. -/
theorem served_eq_engine_iff (cfg : IcapConfig) (state : AppState) (withRedis : Bool)
    (hgate : cfg.requireContent = false) (arrivals : List (DomainArrival libs))
    (hfresh : Guarded (serve cfg state) (fun s a => s.cache.NothingExpired a.now)
      (Session.start libs withRedis) arrivals) :
    ∃ s, run (serve cfg state) (Session.start libs withRedis) arrivals = some s ∧
      s.served.map Prod.fst = arrivals ∧
      ((∀ p ∈ s.served, p.2 = .action (p.1.engineAction state)) ↔
        ∀ a ∈ arrivals, ∀ b ∈ arrivals, a.key = b.key →
          a.engineAction state = b.engineAction state) := by
  obtain ⟨s, hrun⟩ := run_total (serve_total cfg state) (Session.start libs withRedis) arrivals
  have hlog : s.served.map Prod.fst = arrivals := by
    have h := run_log (fun s : Session libs => s.served.map Prod.fst) id
      (fun _ _ _ => serve_served) hrun
    simpa [Session.start] using h
  have hrec : s.Recorded state :=
    hfresh.invariant (fun s => s.Recorded state)
      (fun _ _ _ hs hok h => recorded_serve hgate hs hok h) (recorded_start state withRedis) hrun
  have hmem (a : DomainArrival libs) : a ∈ arrivals ↔ ∃ x, (a, x) ∈ s.served := by
    rw [← hlog]
    simp
  refine ⟨s, hrun, hlog, fun hall a ha b hb hkey => ?_, fun hagree p hp => ?_⟩
  · -- both were served the one entry under their key
    obtain ⟨x, hx⟩ := (hmem a).1 ha
    obtain ⟨y, hy⟩ := (hmem b).1 hb
    obtain ⟨e, he, hxe⟩ := hrec.answered _ hx
    obtain ⟨e', he', hye⟩ := hrec.answered _ hy
    have hee : e = e' := by
      simp only [hkey] at he
      exact Option.some.inj (he.symm.trans he')
    have hxa := hall _ hx
    have hyb := hall _ hy
    simp only at hxe hye hxa hyb
    rw [hxa] at hxe
    rw [hyb] at hye
    rw [Answer.action.inj hxe, Answer.action.inj hye, hee]
  · -- the entry it was served is the engine's answer to a request with the same key
    obtain ⟨e, he, hanswer⟩ := hrec.answered p hp
    obtain ⟨q, hq, hkey, haction⟩ := hrec.computed _ _ he
    have hp' : p.1 ∈ arrivals := (hmem p.1).2 ⟨p.2, hp⟩
    have hq' : q.1 ∈ arrivals := (hmem q.1).2 ⟨q.2, hq⟩
    rw [hanswer, haction, hagree q.1 hq' p.1 hp' hkey]

/-! ### A rule for one user -/

/-- A rule that blocks one user. -/
def blockAlice : PolicyRule :=
  { id := "block-alice", description := none, priority := 10, action := .block,
    conditions := { users := some ["alice"] } }

/-- An activation profile with the unknown category switched on. -/
def sampleActivation : ActivationProfile :=
  .ofRows { id := 1, version := "v1", updatedAt := 1 }
    [{ profileId := 1, categoryId := unknownCategoryId, subcategoryId := categorySentinelId,
       enabled := true }]

/-- An engine in database mode with the given rules and no override or classification. -/
def sampleState (rules : List PolicyRule) : AppState :=
  { evaluator :=
      { store := { rules, version := "v1", policyId := some 1, taxonomy := sampleTaxonomyStore }
        activation := sampleActivation }
    classificationPool := some { overrides := [], classifications := [] } }

/-- An adaptor with the content gate off. -/
def sampleConfig : IcapConfig :=
  { requireContent := false, pendingCacheTtlSeconds := 60,
    canonicalizationPolicy := { tenantDomainExceptions := .empty }, pendingClient := true,
    pageFetchPublisher := true, jobPublisher := true }

/-- A request of a user for a host. -/
def icapRequest (host user : String) : IcapRequest :=
  { method := "REQMOD", traceId := none, headers := ⟨[("x-user", user)]⟩, httpHost := some host,
    httpPath := some "/", httpScheme := some "http" }

/-- A request of a user for the registered domain `example.com`. -/
def domainArrival (user : String) (now : Nat) : DomainArrival sampleLibs where
  now := now
  req := icapRequest "example.com" user
  target := targetOfHost sampleLibs "example.com" "http://example.com/"
  host := "example.com"
  method := (by decide +kernel : eqIgnoreAsciiCase "REQMOD" "OPTIONS" = false)
  resolved := by rfl
  level := by decide +kernel

/-- A second after the blocked user asks for the domain, another user is served the cached block,
while the engine allows that user's own request. -/
theorem other_user_served_cached_block :
    Guarded (serve sampleConfig (sampleState [blockAlice]))
        (fun s a => s.cache.NothingExpired a.now) (Session.start sampleLibs true)
        [domainArrival "alice" 0, domainArrival "bob" 1] ∧
      ∃ s, run (serve sampleConfig (sampleState [blockAlice])) (Session.start sampleLibs true)
          [domainArrival "alice" 0, domainArrival "bob" 1] = some s ∧
        ¬ ∀ p ∈ s.served, p.2 = .action (p.1.engineAction (sampleState [blockAlice])) := by
  refine ⟨⟨?_, fun s' hs' => ⟨?_, fun _ _ => trivial⟩⟩, _, rfl, ?_⟩
  · exact CacheClient.nothingExpired_of_bindings (by decide +kernel) (by decide +kernel)
  · cases hs'
    exact CacheClient.nothingExpired_of_bindings (by decide +kernel) (by decide +kernel)
  · intro h
    exact absurd (h (domainArrival "bob" 1, .action .block)
      (mem_cons_of_mem _ mem_cons_self)) (by decide +kernel)

/-- Two requests of one user for the domain: both are served the engine's answer. -/
theorem same_user_served_engine_action :
    ∃ s, run (serve sampleConfig (sampleState [blockAlice])) (Session.start sampleLibs true)
        [domainArrival "alice" 0, domainArrival "alice" 1] = some s ∧
      ∀ p ∈ s.served, p.2 = .action (p.1.engineAction (sampleState [blockAlice])) := by
  have hfresh : Guarded (serve sampleConfig (sampleState [blockAlice]))
      (fun s a => s.cache.NothingExpired a.now) (Session.start sampleLibs true)
      [domainArrival "alice" 0, domainArrival "alice" 1] := by
    refine ⟨?_, fun s' hs' => ⟨?_, fun _ _ => trivial⟩⟩
    · exact CacheClient.nothingExpired_of_bindings (by decide +kernel) (by decide +kernel)
    · cases hs'
      exact CacheClient.nothingExpired_of_bindings (by decide +kernel) (by decide +kernel)
  have hblock (now : Nat) (hnow : now = 0 ∨ now = 1) :
      (domainArrival "alice" now).engineAction (sampleState [blockAlice]) = .block := by
    rcases hnow with rfl | rfl <;> decide +kernel
  obtain ⟨s, hrun, -, hiff⟩ :=
    served_eq_engine_iff sampleConfig (sampleState [blockAlice]) true rfl _ hfresh
  refine ⟨s, hrun, hiff.2 fun a ha b hb _ => ?_⟩
  rcases mem_pair.1 ha with rfl | rfl <;> rcases mem_pair.1 hb with rfl | rfl <;>
    simp only [hblock, true_or, or_true]

end OpenDefender.System
