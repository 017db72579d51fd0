import OpenDefender.Admin.Classifications
import OpenDefender.System.Freshness
import OpenDefender.Worker.Store

/-!
Changes of a classification and the decisions that are cached when they happen.

A change writes the row of one key and then deletes keys from Redis; only the worker also tells the
adaptors. The engine takes hints from the row for more keys than the one it belongs to: for every name
below a domain, and for the domain above a subdomain. While a change clears the caches, requests go on
and answers computed before it may still be on their way.

`fresh_after_change_iff` is the exact condition under which nothing computed before the change is left
for a key, however the steps interleave.
-/

namespace OpenDefender.System.ClassificationChange

open Lib Text Run Coherence Engine Admin Worker Lib.Outcome List
open Adaptor hiding invalidateKey

/-- A change of the classification of a key. -/
inductive Change where
  | update (normalizedKey : String) (payload : ClassifyRequest)
  | delete (normalizedKey : String)
  | manualUnblock (normalizedKey : String) (payload : ManualUnblockRequest)
  | manualClassify (normalizedKey : String) (payload : ClassifyRequest)
  | store (normalizedKey : String) (verdict : LlmResponse) (finalAction : PolicyAction)

namespace Change

variable (services : ClassificationServices)

/-- The key whose row is written. -/
def key : Change → String
  | update normalizedKey _ => normalizedKey
  | delete normalizedKey => normalizedKey
  | manualUnblock normalizedKey _ => services.canonicalizeKey normalizedKey
  | manualClassify normalizedKey _ => services.canonicalizeKey normalizedKey
  | store normalizedKey _ _ => normalizedKey

/-- The table after a successful change. -/
def apply (now : ℕ) (table : List ClassificationRow) : Change → Option (List ClassificationRow)
  | update normalizedKey payload =>
    (updateClassification services now table normalizedKey payload).toOption
  | delete normalizedKey => (deleteClassification table normalizedKey).toOption
  | manualUnblock normalizedKey payload =>
    (Admin.manualUnblock services now table normalizedKey payload).toOption
  | manualClassify normalizedKey payload =>
    (Admin.manualClassify services now table normalizedKey payload).toOption
  | store normalizedKey verdict finalAction =>
    (storeClassification table normalizedKey verdict finalAction now).toOption

/-- The commands a change sends to Redis after its write. -/
def invalidation : Change → List RedisCommand
  | update normalizedKey _ => invalidateKey normalizedKey
  | delete normalizedKey => invalidateKey normalizedKey
  | manualUnblock normalizedKey _ => invalidateApplied services normalizedKey
  | manualClassify normalizedKey _ => invalidateApplied services normalizedKey
  | store normalizedKey _ _ => publishInvalidation normalizedKey

/-- The keys a change deletes from Redis. The admin API passes over blank keys. -/
def deleted : Change → List String
  | update normalizedKey _ => [normalizedKey].filter fun k => !(trim k).isEmpty
  | delete normalizedKey => [normalizedKey].filter fun k => !(trim k).isEmpty
  | manualUnblock normalizedKey _ =>
    [services.canonicalizeKey normalizedKey, normalizedKey].filter fun k => !(trim k).isEmpty
  | manualClassify normalizedKey _ =>
    [services.canonicalizeKey normalizedKey, normalizedKey].filter fun k => !(trim k).isEmpty
  | store normalizedKey _ _ => [normalizedKey]

/-- The keys a change has the adaptors drop. -/
def announced : Change → List String
  | store normalizedKey _ _ => [normalizedKey]
  | _ => []

/-- The keys a change clears from a cell. -/
def cleared (change : Change) {n : ℕ} : Option (Fin n) → List String
  | none => change.deleted services
  | some _ => change.announced

end Change

/-! ### The cells a change clears -/

section Targets

variable {services : ClassificationServices} {n : ℕ}

/-- **What a change clears.** -/
lemma targets_invalidation (change : Change) (p : Option (Fin n)) (k : String) :
    (Job.ofCommands (change.invalidation services)).Targets (dialect ℕ) p k ↔
      k ∈ change.cleared services p := by
  cases change with
  | update normalizedKey payload =>
    rw [Change.invalidation, targets_invalidateKey]
    cases p <;> simp [Change.cleared, Change.deleted, Change.announced]
  | delete normalizedKey =>
    rw [Change.invalidation, targets_invalidateKey]
    cases p <;> simp [Change.cleared, Change.deleted, Change.announced]
  | manualUnblock normalizedKey payload =>
    rw [Change.invalidation, targets_invalidateApplied]
    cases p <;> simp [Change.cleared, Change.deleted, Change.announced]
  | manualClassify normalizedKey payload =>
    rw [Change.invalidation, targets_invalidateApplied]
    cases p <;> simp [Change.cleared, Change.deleted, Change.announced]
  | store normalizedKey verdict finalAction =>
    cases p <;> simp [Change.invalidation, publishInvalidation, Change.cleared, Change.deleted,
      Change.announced, Job.Targets, Job.ofCommands, Command.Targets, Command.Announces, dialect,
      CacheInvalidationEvent.clears]

lemma plain_invalidation (services : ClassificationServices) (change : Change) :
    ∀ p owed, .walking p owed ∉ change.invalidation services := by
  intro p owed
  cases change with
  | update normalizedKey payload => exact plain_deleteKey normalizedKey p owed
  | delete normalizedKey => exact plain_deleteKey normalizedKey p owed
  | manualUnblock normalizedKey payload => exact plain_invalidateApplied services normalizedKey p owed
  | manualClassify normalizedKey payload => exact plain_invalidateApplied services normalizedKey p owed
  | store normalizedKey verdict finalAction => simp [Change.invalidation, publishInvalidation]

end Targets

/-- The engine with a classification table. -/
def engineWith (evaluator : PolicyEvaluator) (overrides : List OverrideRow)
    (classifications : List ClassificationRow) : AppState :=
  { evaluator, classificationPool := some { overrides, classifications } }

/-! ### The change among requests -/

/-- The engine, the caches, what the change has still to clear, and the misses under way. -/
structure State (n : ℕ) where
  engine : AppState
  fleet : Fleet n ℕ
  job : Invalidation n
  flights : List (Flight n)

/-- The steps after the write of the change: its own commands and the deliveries of its message, the
two steps of a miss, Redis dropping expired keys, and other changes in the engine and its tables. -/
inductive Event (n : ℕ) where
  | invalidate (e : JobEvent n String CacheInvalidationEvent)
  | evaluate (a : Fin n) (now : ℕ) (req : IcapRequest)
  | set (i : ℕ) (now : ℕ)
  | expire (keys : List String)
  | engine (engine : AppState)

variable {n : ℕ}

/-- One step. Every answer the engine gives after the write has the origin `stamp`. -/
def next (cfg : AdaptorSetup) (stamp : ℕ) (s : State n) : Event n → Option (State n)
  | .invalidate e => do
    let (fleet, job) ← Job.step (dialect ℕ) (s.fleet, s.job) e
    return { s with fleet, job }
  | .evaluate a now req => do
    let (key, decision, origin) ←
      s.fleet.evaluateMiss a cfg.libs (askEngine s.engine now stamp) now req
    return { s with flights := s.flights ++ [{ adaptor := a, key, decision, origin }] }
  | .set i now => do
    let f ← s.flights[i]?
    return { s with
      fleet := s.fleet.setDecision f.adaptor cfg.icap now f.key f.decision f.origin
      flights := s.flights.eraseIdx i }
  | .expire keys => some { s with fleet := s.fleet.remove keys }
  | .engine engine => some { s with engine }

/-- A decision for the key from before the change. -/
def Outdated (key : String) (stamp : ℕ) (_ : Option (Fin n)) (k : String) (entry : CacheEntry ℕ) :
    Prop :=
  k = key ∧ entry.origin < stamp

/-- Everything outdated has still to be cleared, and nothing outdated is on its way. -/
structure Inv (key : String) (stamp : ℕ) (s : State n) : Prop where
  covers : s.job.Covers (dialect ℕ) (Outdated key stamp) s.fleet
  flights : ∀ f ∈ s.flights, f.key = key → stamp ≤ f.origin

/-- **One step keeps the invariant.** -/
lemma inv_next (s : State n) (e : Event n) (s' : State n) (h : Inv key stamp s)
    (hs : next cfg stamp s e = some s') : Inv key stamp s' := by
  cases e with
  | invalidate e =>
    obtain ⟨⟨fleet, job⟩, hjob, hs⟩ := Option.bind_eq_some_iff.1 hs
    cases hs
    exact ⟨h.covers.step hjob, h.flights⟩
  | evaluate a now req =>
    obtain ⟨⟨key', decision, origin⟩, hmiss, hs⟩ := Option.bind_eq_some_iff.1 hs
    cases hs
    refine ⟨h.covers, fun f hf hkey => ?_⟩
    rcases mem_append.1 hf with hold | hnew
    · exact h.flights f hold hkey
    · -- the engine has answered after the change
      obtain rfl := mem_singleton.1 hnew
      exact (evaluateMiss_origin hmiss).ge
  | set i now =>
    obtain ⟨f, hf, hs⟩ := Option.bind_eq_some_iff.1 hs
    cases hs
    have hnew : ∀ (p : Option (Fin n)) (entry : CacheEntry ℕ), entry.origin = f.origin →
        ¬ Outdated key stamp p f.key entry := by
      rintro p entry horigin ⟨hkey, hold⟩
      exact absurd (h.flights f (mem_of_getElem? hf) hkey) (Nat.not_le.2 (horigin ▸ hold))
    exact ⟨h.covers.fill (Or.inl (hnew _ _ rfl)) (Or.inl (hnew _ _ rfl)),
      fun f' hf' => h.flights f' (mem_of_mem_eraseIdx hf')⟩
  | expire keys =>
    cases hs
    exact ⟨h.covers.of_shrinks (Cluster.shrinks_remove s.fleet keys), h.flights⟩
  | engine engine =>
    cases hs
    exact ⟨h.covers, h.flights⟩

/-- A run of the invalidation alone, as a run of the system. -/
lemma run_invalidate (cfg : AdaptorSetup) (stamp : ℕ) {s : State n} {fleet : Fleet n ℕ}
    {job : Invalidation n} {es : List (JobEvent n String CacheInvalidationEvent)}
    (h : run (Job.step (dialect ℕ)) (s.fleet, s.job) es = some (fleet, job)) :
    run (next cfg stamp) s (es.map .invalidate) = some { s with fleet, job } :=
  run_map (fun x : Fleet n ℕ × Invalidation n => { s with fleet := x.1, job := x.2 })
    Event.invalidate
    (fun x e x' hstep => by
      show (Job.step (dialect ℕ) (x.1, x.2) e).bind _ = _
      rw [hstep]
      rfl) h

/-- The state right after the write of a change. -/
def written (services : ClassificationServices) (change : Change) (engine : AppState)
    (fleet : Fleet n ℕ) (flights : List (Flight n)) : State n :=
  { engine, fleet, job := .ofCommands (change.invalidation services), flights }

/-- Whatever happens after the write: when the commands of the change are executed and its messages
delivered, no cell holds a decision for the key from before the change. -/
def FreshAfter (cfg : AdaptorSetup) (stamp : ℕ) (start : State n) (key : String) : Prop :=
  ∀ es t, run (next cfg stamp) start es = some t → t.job.Done →
    ∀ p entry, t.fleet.get p key = some entry → stamp ≤ entry.origin

/-- **After a change of a classification.** For every table, every successful change and every key for
which the hint lookup selects the changed row before or after the change: however the steps after the
write interleave, no memory and not Redis is left with a decision for the key from before the change
exactly when no such decision is on its way at the write, and each cell that holds one is cleared by the
change: the memories only of the key the worker stores, Redis only of the keys that are deleted. -/
theorem fresh_after_change_iff (cfg : AdaptorSetup) (services : ClassificationServices)
    (change : Change) (now stamp : ℕ) (table table' : List ClassificationRow)
    (evaluator : PolicyEvaluator) (overrides : List OverrideRow) (fleet : Fleet n ℕ)
    (flights : List (Flight n)) (key : String) :
    change.apply services now table = some table' →
    SelectsRowOf (change.key services) table key ∨ SelectsRowOf (change.key services) table' key →
    (FreshAfter cfg stamp (written services change (engineWith evaluator overrides table') fleet
        flights) key ↔
      (∀ f ∈ flights, f.key = key → stamp ≤ f.origin) ∧
      (∀ a entry, fleet.get (some a) key = some entry → entry.origin < stamp → key ∈ change.announced) ∧
      (∀ entry, fleet.get none key = some entry → entry.origin < stamp →
        key ∈ change.deleted services)) := by
  intro _ _
  set start := written services change (engineWith evaluator overrides table') fleet flights
  have hplain := plain_invalidation services change
  -- the invalidation alone can always be finished
  obtain ⟨es, fleet', hjob⟩ := exists_run_done (D := dialect ℕ) fleet
    (change.invalidation services) hplain []
  have hrun := run_invalidate cfg stamp (s := start) hjob
  have hdone : (⟨[], []⟩ : Invalidation n).Done := ⟨rfl, rfl⟩
  constructor
  · intro hfresh
    -- a cell that the change does not clear is left as it was
    have hcell (p : Option (Fin n)) (entry : CacheEntry ℕ) (hentry : fleet.get p key = some entry)
        (hold : entry.origin < stamp) : key ∈ change.cleared services p := by
      by_contra hnot
      have hget := (get_of_run hplain hjob hdone p key).2
        (fun htargets => hnot ((targets_invalidation change p key).1 htargets))
      exact absurd (hfresh _ _ hrun hdone p entry (hget.trans hentry)) (Nat.not_le.2 hold)
    refine ⟨fun f hf hkey => ?_, fun a => hcell (some a), hcell none⟩
    -- an answer on its way is written in the end
    obtain ⟨i, hi⟩ := getElem?_of_mem hf
    have hset : run (next cfg stamp) start (es.map .invalidate ++ [.set i now]) = some
        { engine := start.engine
          fleet := Fleet.setDecision fleet' f.adaptor cfg.icap now f.key f.decision f.origin
          job := ⟨[], []⟩
          flights := flights.eraseIdx i } := by
      refine run_append.2 ⟨_, hrun, ?_⟩
      show ((flights[i]?).bind _).bind _ = _
      rw [hi]
      rfl
    rw [← hkey] at hfresh
    exact hfresh _ _ hset hdone none _ (Cluster.get_fill_server _ _ _ _ _)
  · rintro ⟨hflights, hmemories, hredis⟩ es t hrun hdone p entry hentry
    have hcovers : start.job.Covers (dialect ℕ) (Outdated key stamp) fleet := by
      rintro p k e hget ⟨rfl, hold⟩
      refine ((targets_invalidation change p k).2 ?_).owes hplain
      cases p with
      | none => exact hredis e hget hold
      | some a => exact hmemories a e hget hold
    have hinv : Inv key stamp t := invariant_of_step (Inv key stamp) inv_next ⟨hcovers, hflights⟩ hrun
    by_contra hold
    exact hinv.covers.fresh hdone hentry ⟨rfl, Nat.lt_of_not_le hold⟩

/-! ### The domain `example.com` and a name below it -/

/-- `example.com` is unclassified, which the activation profile allows. -/
def unclassified : List ClassificationRow :=
  [{ normalizedKey := "domain:example.com", primaryCategory := some unknownCategoryId,
     subcategory := some unknownDefaultSubcategoryId, riskLevel := some "medium",
     recommendedAction := "Review", confidence := some (1 / 2), status := "active", updatedAt := 1 }]

/-- The admin API with an engine that reads this table. -/
def sampleServices : ClassificationServices :=
  { libs := sampleLibs
    canonicalizationPolicy := { tenantDomainExceptions := .empty }
    taxonomyStore := sampleTaxonomyStore
    evaluatePolicyDecision := fun request =>
      (handleDecision (engineWith (sampleState []).evaluator [] unclassified) 0 request).mapError
        (·.message) }

/-- An entry from before the change. -/
def earlierAllow : CacheEntry ℕ :=
  { decision := { action := .allow, cacheHit := false, verdict := none, decisionSource := none }
    expiresAt := 300
    origin := 0 }

/-- One adaptor that has cached the domain and the name below it, in memory and in Redis. -/
def bothCached : Fleet 1 ℕ :=
  (Cluster.empty.fill 0 "domain:example.com" earlierAllow earlierAllow).fill 0
    "subdomain:www.example.com" earlierAllow earlierAllow

/-- An update that classifies the domain as social media, which the activation profile blocks. -/
def classifySocial : Change :=
  .update "domain:example.com"
    { primaryCategory := "social-media", subcategory := "social-networks", reason := none }

/-- The worker's verdict to the same effect. -/
def storeSocial : Change :=
  .store "domain:example.com"
    { primaryCategory := "social-media", subcategory := "social-networks", riskLevel := "medium",
      confidence := 4 / 5, recommendedAction := "Monitor" } .block

/-- After an update of `example.com` the engine blocks the domain and the name below it, and the
earlier decisions stay: that of the domain in the adaptor's memory, that of the name below it in the
memory and in Redis. -/
theorem update_leaves_earlier_decisions :
    (classifySocial.apply sampleServices 5 unclassified).map (fun table =>
        (decide (SelectsRowOf (classifySocial.key sampleServices) table "domain:example.com"),
          decide (SelectsRowOf (classifySocial.key sampleServices) table "subdomain:www.example.com"),
          engineAnswer (engineWith (sampleState []).evaluator [] table))) =
      some (true, true, .block) ∧
    (run (next sampleAdaptors 1) (written sampleServices classifySocial
        (engineWith (sampleState []).evaluator []
          ((classifySocial.apply sampleServices 5 unclassified).getD [])) bothCached [])
        [.invalidate .exec]).map (fun t => (t.job, heldFor t.fleet (some 0),
            (t.fleet.get (some 0) "subdomain:www.example.com").map (·.origin),
            (t.fleet.get none "subdomain:www.example.com").map (·.origin))) =
      some ({ todo := [], pending := [] }, some (.allow, 0), some 0, some 0) :=
  ⟨by decide +kernel, by decide +kernel⟩

/-- What the worker stores for the domain it clears everywhere: nothing from before is left for the
domain itself. -/
theorem store_clears_own_key : ∃ table, storeSocial.apply sampleServices 5 unclassified = some table ∧
      FreshAfter sampleAdaptors 1 (written sampleServices storeSocial
        (engineWith (sampleState []).evaluator [] table) bothCached []) "domain:example.com" := by
  refine exists_of_any (fun table => SelectsRowOf (storeSocial.key sampleServices) table "domain:example.com")
    (by decide +kernel) fun table happly hselects => ?_
  refine (fresh_after_change_iff sampleAdaptors sampleServices storeSocial 5 1
    unclassified table _ [] bothCached [] "domain:example.com" happly
    (Or.inr (of_decide_eq_true hselects))).2 ⟨by simp, ?_, ?_⟩
  · exact fun _ _ _ _ => mem_cons_self
  · exact fun _ _ _ => mem_cons_self

end OpenDefender.System.ClassificationChange
