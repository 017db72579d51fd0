import OpenDefender.Admin.Policies
import OpenDefender.Lib.Pool
import OpenDefender.System.Freshness

/-!
A policy change on its way to the engine and the caches, while the adaptors serve requests.

A call of the admin API commits its transaction, invalidates the caches and only then asks the
engine to reload (`propagate_policy_runtime_change`). Calls may overlap each other and any requests.
A cached decision has as its origin the number of commits to the policy tables when the load of the
rules it was computed from began, so a decision computed from rules of before a call has an origin
below the number of that call's commit.

* `next` is one step of the system: a commit, one step of an invalidation, one read or the swap of a
  reload, a request.
* `Timely` is the condition on a step under which nothing stale stays.
* `fresh_after_return`: in a run of such steps no cache holds a stale decision after a call's return.
  `stale_after_publish` is a run with one untimely miss.
-/

namespace OpenDefender.System.PolicyPropagation

open Lib Run Pool Coherence Adaptor Engine Admin List Option

/-- How far the `load_from_db` of a reload has got. Each query sees the tables of its own moment;
`since` is the number of commits at the first one. -/
inductive LoadStage where
  | started
  | policies (since : ℕ) (rows : List PolicyRow)
  | versions (since : ℕ) (rows : List PolicyRow) (versions : List PolicyVersionRow)
  | complete (since : ℕ) (seen : PolicyDb)
  deriving DecidableEq

/-- The number of commits at the first query, once it is made. -/
def LoadStage.since : LoadStage → Option ℕ
  | .started => none
  | .policies since _ | .versions since _ _ | .complete since _ => some since

/-- How far a call has got after its commit. A reload that finds no active policy seeds one and loads
again. -/
inductive Stage where
  | invalidating
  | loading (seeded : Bool) (load : LoadStage)
  | refreshing
  | replied
  | returned
  | failed
  deriving DecidableEq

/-- A call of `publish_policy`, `update_policy` or `delete_policy` after its commit: the number of
that commit and its invalidation. -/
structure Call (n : ℕ) where
  commit : ℕ
  job : Invalidation n
  stage : Stage

/-- The engine has still to replace its rules for the call. -/
def Call.AwaitsRules {n : ℕ} (call : Call n) : Prop :=
  match call.stage with
  | .invalidating | .loading _ _ => True
  | _ => False

instance {n : ℕ} (call : Call n) : Decidable call.AwaitsRules := by
  unfold Call.AwaitsRules
  split <;> infer_instance

/-- What does not change: the adaptors' configuration, the taxonomy of the admin API and the seed
file of the engine. -/
structure Config extends AdaptorSetup where
  taxonomy : TaxonomyStore
  seed : Except String PolicyDocument

/-- The policy tables with the number of commits to them, the engine with the number of commits when
the load of its rules began, the caches and the calls. -/
structure State (n : ℕ) where
  db : PolicyDb
  commits : ℕ
  engine : AppState
  rulesFrom : ℕ
  fleet : Fleet n ℕ
  calls : List (Call n)

/-- The steps: those of the calls, those of the adaptors, Redis dropping expired keys, and other
writers of the override and classification tables. -/
inductive Event (n : ℕ) where
  | commit (ctx : CallContext) (change : PolicyChange)
  | invalidate (i : ℕ) (e : JobEvent n String CacheInvalidationEvent)
  | reload (i : ℕ)
  | readPolicies (i : ℕ)
  | readVersions (i : ℕ)
  | readRules (i : ℕ)
  | swap (i : ℕ) (seedId : Uuid) (now : ℕ)
  | refresh (i : ℕ) (loaded : Except String ActivationProfile)
  | reply (i : ℕ)
  | fail (i : ℕ)
  | request (a : Fin n) (now : ℕ) (req : IcapRequest)
  | expire (keys : List String)
  | tables (pool : Option ClassificationTables)

variable {n : ℕ}

variable (cfg : Config) (s : State n)

/-- The call `i` goes to another stage. -/
def State.advance (i : ℕ) (step : Call n → Option Stage) : Option (State n) := do
  let call ← s.calls[i]?
  let stage ← step call
  return { s with calls := s.calls.set i { call with stage } }

/-- The end of a load: the rules are replaced, or the seed is written and loaded, or the rules stay as
they are. -/
def State.swap (i : ℕ) (call : Call n) (seeded : Bool) (since : ℕ)
    (seen : PolicyDb) (seedId : Uuid) (now : ℕ) : State n :=
  let put (stage : Stage) := s.calls.set i { call with stage }
  let store := s.engine.evaluator.store
  match PolicyStore.loadFromDb seen store.taxonomy with
  | .error _ => { s with calls := put .failed }
  | .ok (some new) =>
    match store.replaceRules (some new) with
    | .error _ => { s with calls := put .failed }
    | .ok store =>
      { s with
        engine := { s.engine with evaluator := { s.engine.evaluator with store } }
        rulesFrom := since
        calls := put .refreshing }
  | .ok none =>
    if seeded then { s with calls := put .refreshing }
    else
      match cfg.seed with
      | .error _ => { s with calls := put .failed }
      | .ok doc =>
        { s with
          db := s.db.insertPolicyDocument doc "default" (some "system") seedId now
          commits := s.commits + 1
          calls := put (.loading true .started) }

/-- One step of the system. -/
def next : Event n → Option (State n)
  | .commit ctx change =>
    match change.apply cfg.taxonomy s.db ctx with
    | .error _ => none
    | .ok db =>
      some { s with
        db
        commits := s.commits + 1
        calls := s.calls ++
          [{ commit := s.commits + 1, job := .ofCommands invalidatePolicy
             stage := .invalidating }] }
  | .invalidate i e => do
    let call ← s.calls[i]?
    let (fleet, job) ← Job.step (dialect ℕ) (s.fleet, call.job) e
    return { s with fleet, calls := s.calls.set i { call with job } }
  | .reload i => s.advance i fun call =>
    match call.stage with
    | .invalidating => if call.job.todo.isEmpty then some (.loading false .started) else none
    | _ => none
  | .readPolicies i => s.advance i fun call =>
    match call.stage with
    | .loading seeded .started => some (.loading seeded (.policies s.commits s.db.policies))
    | _ => none
  | .readVersions i => s.advance i fun call =>
    match call.stage with
    | .loading seeded (.policies since rows) =>
      some (.loading seeded (.versions since rows s.db.policyVersions))
    | _ => none
  | .readRules i => s.advance i fun call =>
    match call.stage with
    | .loading seeded (.versions since rows versions) =>
      some (.loading seeded (.complete since
        { policies := rows, policyRules := s.db.policyRules, policyVersions := versions }))
    | _ => none
  | .swap i seedId now => do
    let call ← s.calls[i]?
    match call.stage with
    | .loading seeded (.complete since seen) =>
      some (s.swap cfg i call seeded since seen seedId now)
    | _ => none
  | .refresh i loaded => do
    let call ← s.calls[i]?
    match call.stage, loaded with
    | .refreshing, .ok profile =>
      some { s with
        engine := { s.engine with evaluator :=
          { s.engine.evaluator with
            activation := s.engine.evaluator.activation.replaceIfNew profile } }
        calls := s.calls.set i { call with stage := .replied } }
    | .refreshing, .error _ => some { s with calls := s.calls.set i { call with stage := .failed } }
    | _, _ => none
  | .reply i => s.advance i fun call =>
    match call.stage with
    | .replied => if call.job.Done then some .returned else none
    | _ => none
  | .fail i => s.advance i fun call =>
    match call.stage with
    | .returned => none
    | _ => some .failed
  | .request a now req =>
    match s.fleet.handleRequest a cfg.icap cfg.libs (askEngine s.engine now s.rulesFrom) now req with
    | .error _ => none
    | .ok (_, fleet) => some { s with fleet }
  | .expire keys => some { s with fleet := s.fleet.remove keys }
  | .tables pool => some { s with engine := { s.engine with classificationPool := pool } }

/-! ### The condition on a step -/

/-- A call does not mind that the engine fills the cells of a key now: the rules in force were loaded
after its commit, or it has still to clear both cells. -/
def Call.Tolerates (call : Call n) (a : Fin n) (key : String) : Prop :=
  call.commit ≤ s.rulesFrom ∨ OwesFill s.fleet call.job a key

instance (call : Call n) (a : Fin n) (key : String) : Decidable (call.Tolerates s a key) :=
  inferInstanceAs (Decidable (_ ∨ _))

/-- A load may end: it began no earlier than the load of the rules in force, and the second load of a
reload finds the policy that was seeded. -/
def LoadEndsWell (seeded : Bool) (since : ℕ) (seen : PolicyDb) : Prop :=
  (seen.activePolicy.isSome → s.rulesFrom ≤ since) ∧ (seeded → seen.activePolicy.isSome)

instance (seeded : Bool) (since : ℕ) (seen : PolicyDb) : Decidable (LoadEndsWell s seeded since seen) :=
  inferInstanceAs (Decidable (_ ∧ _))

/-- **The condition on a step.** A request that misses is tolerated by every call the engine has still
to reload for; a load ends well. -/
def Timely : Event n → Prop
  | .request a now req =>
    ∀ key ∈ s.fleet.missedKey a cfg.libs now req, ∀ call ∈ s.calls, call.AwaitsRules →
      call.Tolerates s a key
  | .swap i _ _ =>
    ∀ call ∈ s.calls[i]?, match call.stage with
      | .loading seeded (.complete since seen) => LoadEndsWell s seeded since seen
      | _ => True
  | _ => True

instance (e : Event n) : Decidable (Timely cfg s e) := by
  cases e <;> unfold Timely <;> try infer_instance
  rename_i i _ _
  have (call : Call n) : Decidable (match call.stage with
      | .loading seeded (.complete since seen) => LoadEndsWell s seeded since seen
      | _ => True) := by
    split <;> infer_instance
  infer_instance

/-! ### The invariant -/

/-- What holds of a call at its stage: a load began after the commit, and from the swap on so did the
load of the rules in force. -/
def StageOk (call : Call n) : Prop :=
  match call.stage with
  | .invalidating | .failed => True
  | .loading _ load => ∀ since ∈ load.since, call.commit ≤ since
  | .refreshing | .replied => call.commit ≤ s.rulesFrom
  | .returned => call.commit ≤ s.rulesFrom ∧ call.job.Done

/-- The invariant of a call. -/
structure CallOk (s : State n) (call : Call n) : Prop where
  commit_le : call.commit ≤ s.commits
  covers : call.stage ≠ .failed → call.job.Covers (dialect ℕ) (ComputedBefore call.commit) s.fleet
  stage : StageOk s call

/-- The invariant of the system. -/
structure Inv (s : State n) : Prop where
  keys : HostKeys s.fleet
  calls : ∀ call ∈ s.calls, CallOk s call

variable {s s' : State n}

/-- A call stays as it is while commits are made, newer rules come into force and entries go. -/
lemma StageOk.mono (h : StageOk s call) (hrules : s.rulesFrom ≤ s'.rulesFrom) :
    StageOk s' call := by
  unfold StageOk at h ⊢
  split
  · trivial
  · trivial
  · rename_i load hstage
    rwa [hstage] at h
  · rename_i hstage
    rw [hstage] at h
    exact h.trans hrules
  · rename_i hstage
    rw [hstage] at h
    exact h.trans hrules
  · rename_i hstage
    rw [hstage] at h
    exact ⟨h.1.trans hrules, h.2⟩

lemma CallOk.mono (h : CallOk s call) (hcommits : s.commits ≤ s'.commits)
    (hrules : s.rulesFrom ≤ s'.rulesFrom) (hfleet : s.fleet.Shrinks s'.fleet) : CallOk s' call :=
  ⟨h.commit_le.trans hcommits, fun hs => (h.covers hs).of_shrinks hfleet, h.stage.mono hrules⟩

/-- A step that changes one call, besides making commits, loading newer rules and removing entries,
keeps the invariant if the call fits its new stage. -/
lemma Inv.set (h : Inv s) (hcommits : s.commits ≤ s'.commits) (hrules : s.rulesFrom ≤ s'.rulesFrom)
    (hfleet : s.fleet.Shrinks s'.fleet) (hcalls : s'.calls = s.calls.set i call)
    (hcall : CallOk s' call) : Inv s' := by
  have hold : ∀ c ∈ s.calls, CallOk s' c :=
    fun c hc => (h.calls c hc).mono hcommits hrules hfleet
  refine ⟨h.keys.of_shrinks hfleet, ?_⟩
  rw [hcalls]
  exact forall_set hcall (forall_eraseIdx hold)

/-! ### Each step keeps the invariant -/

/-- A step that only moves one call to another stage. -/
lemma Inv.advance (h : Inv s) (hs : s.advance i step = some s')
    (hstep : ∀ call stage, CallOk s call → step call = some stage →
      StageOk s { call with stage } ∧ (stage ≠ .failed → call.stage ≠ .failed)) : Inv s' := by
  obtain ⟨call, hcall, hs⟩ := bind_eq_some_iff.1 hs
  obtain ⟨stage, hstage, hs⟩ := bind_eq_some_iff.1 hs
  cases hs
  have hok := h.calls call (mem_of_getElem? hcall)
  obtain ⟨hnew, hfailed⟩ := hstep call stage hok hstage
  refine h.set le_rfl le_rfl (.refl _) rfl ⟨hok.commit_le, fun hne => ?_, hnew⟩
  exact hok.covers (hfailed hne)

variable {cfg : Config}

/-- The call of a commit covers every entry there is. -/
lemma inv_commit (h : Inv s) (hs : next cfg s (.commit ctx change) = some s') : Inv s' := by
  simp only [next] at hs
  split at hs
  · cases hs
  · cases hs
    refine ⟨h.keys, fun call hcall => ?_⟩
    rcases mem_append.1 hcall with hold | hnew
    · exact (h.calls call hold).mono (Nat.le_succ _) le_rfl (.refl _)
    · obtain rfl := mem_singleton.1 hnew
      exact ⟨le_rfl, fun _ => covers_invalidatePolicy h.keys _, trivial⟩

lemma inv_invalidate (h : Inv s) (hs : next cfg s (.invalidate i e) = some s') : Inv s' := by
  obtain ⟨call, hcall, hs⟩ := bind_eq_some_iff.1 hs
  obtain ⟨⟨fleet, job⟩, hjob, hs⟩ := bind_eq_some_iff.1 hs
  cases hs
  have hok := h.calls call (mem_of_getElem? hcall)
  have hstep := Job.Step.of_step hjob
  refine h.set le_rfl le_rfl hstep.shrinks rfl ⟨hok.commit_le, fun hne => ?_, ?_⟩
  · exact (hok.covers hne).step hjob
  · have hstage := hok.stage
    unfold StageOk at hstage ⊢
    cases hcase : call.stage with
    | returned =>
      rw [hcase] at hstage
      exact absurd hstep hstage.2.not_step
    | _ =>
      rw [hcase] at hstage
      exact hstage

/-- The end of a load brings rules into force that were loaded after the commit of its call. -/
lemma inv_swap (h : Inv s) (hok : Timely cfg s (.swap i seedId now))
    (hs : next cfg s (.swap i seedId now) = some s') : Inv s' := by
  obtain ⟨call, hcall, hs⟩ := bind_eq_some_iff.1 hs
  have hcallok := h.calls call (mem_of_getElem? hcall)
  have hwell := hok call hcall
  split at hs
  · rename_i seeded since seen hstage
    cases hs
    rw [hstage] at hwell
    have hsince : call.commit ≤ since := by
      have hload := hcallok.stage
      rw [StageOk, hstage] at hload
      exact hload since rfl
    have hcovers := hcallok.covers (by simp [hstage])
    simp only [State.swap]
    split
    · exact h.set le_rfl le_rfl (.refl _) rfl ⟨hcallok.commit_le, by simp, trivial⟩
    · rename_i new hload
      split
      · exact h.set le_rfl le_rfl (.refl _) rfl ⟨hcallok.commit_le, by simp, trivial⟩
      · have hfound : seen.activePolicy.isSome = true := (isSome_of_loadFromDb hload).symm
        exact h.set le_rfl (hwell.1 hfound) (.refl _) rfl
          ⟨hcallok.commit_le, fun _ => hcovers, hsince⟩
    · rename_i hload
      split
      · -- the seeded policy is found, so this load is not the second one
        rename_i hseeded
        have hfound := isSome_of_loadFromDb hload
        rw [hwell.2 hseeded] at hfound
        cases hfound
      · split
        · exact h.set le_rfl le_rfl (.refl _) rfl ⟨hcallok.commit_le, by simp, trivial⟩
        · exact h.set (Nat.le_succ _) le_rfl (.refl _) rfl
            ⟨hcallok.commit_le.trans (Nat.le_succ _), fun _ => hcovers, by simp [StageOk, LoadStage.since]⟩
  · cases hs

lemma inv_refresh (h : Inv s) (hs : next cfg s (.refresh i loaded) = some s') : Inv s' := by
  obtain ⟨call, hcall, hs⟩ := bind_eq_some_iff.1 hs
  have hok := h.calls call (mem_of_getElem? hcall)
  have hstage := hok.stage
  split at hs
  · rename_i hcase _
    cases hs
    rw [StageOk, hcase] at hstage
    exact h.set le_rfl le_rfl (.refl _) rfl
      ⟨hok.commit_le, fun _ => hok.covers (by simp [hcase]), hstage⟩
  · cases hs
    exact h.set le_rfl le_rfl (.refl _) rfl ⟨hok.commit_le, by simp, trivial⟩
  · cases hs

/-- A miss fills cells no call minds. -/
lemma inv_request (h : Inv s) (hok : Timely cfg s (.request a now req))
    (hs : next cfg s (.request a now req) = some s') : Inv s' := by
  simp only [next] at hs
  split at hs
  · cases hs
  · rename_i answer fleet hrequest
    cases hs
    rcases fill_of_request hrequest with rfl | ⟨key, entry, entry', hkey, hhost, he, he', rfl⟩
    · exact ⟨h.keys, fun call hcall => (h.calls call hcall).mono le_rfl le_rfl (.refl _)⟩
    refine ⟨h.keys.fill hhost entry entry', fun call hcall => ?_⟩
    have hcallok := h.calls call hcall
    refine ⟨hcallok.commit_le, fun hne => ?_, hcallok.stage.mono le_rfl⟩
    refine covers_fill (hcallok.covers hne) (he'.trans he.symm) ?_
    rw [he]
    by_cases hawaits : call.AwaitsRules
    · exact hok key hkey call hcall hawaits
    · -- past the swap the rules in force are new enough
      have hstage := hcallok.stage
      unfold StageOk at hstage
      unfold Call.AwaitsRules at hawaits
      cases hcase : call.stage <;> simp_all

/-- **One step keeps the invariant.** -/
lemma inv_next (s : State n) (e : Event n) (s' : State n) (h : Inv s) (hok : Timely cfg s e)
    (hs : next cfg s e = some s') : Inv s' := by
  cases e with
  | commit ctx change => exact inv_commit h hs
  | invalidate i e => exact inv_invalidate h hs
  | swap i seedId now => exact inv_swap h hok hs
  | request a now req => exact inv_request h hok hs
  | reload i =>
    refine h.advance hs fun call stage _ hstage => ?_
    split at hstage
    · rename_i hcase
      split at hstage
      · cases hstage
        exact ⟨by simp [StageOk, LoadStage.since], by simp [hcase]⟩
      · cases hstage
    · cases hstage
  | readPolicies i =>
    refine h.advance hs fun call stage hcall hstage => ?_
    split at hstage
    · rename_i seeded hcase
      cases hstage
      exact ⟨by simpa [StageOk, LoadStage.since] using hcall.commit_le, by simp [hcase]⟩
    · cases hstage
  | readVersions i =>
    refine h.advance hs fun call stage hcall hstage => ?_
    split at hstage
    · rename_i seeded since rows hcase
      cases hstage
      have hold := hcall.stage
      rw [StageOk, hcase] at hold
      exact ⟨hold, by simp [hcase]⟩
    · cases hstage
  | readRules i =>
    refine h.advance hs fun call stage hcall hstage => ?_
    split at hstage
    · rename_i seeded since rows versions hcase
      cases hstage
      have hold := hcall.stage
      rw [StageOk, hcase] at hold
      exact ⟨hold, by simp [hcase]⟩
    · cases hstage
  | refresh i loaded => exact inv_refresh h hs
  | reply i =>
    refine h.advance hs fun call stage hcall hstage => ?_
    split at hstage
    · rename_i hcase
      split at hstage
      · rename_i hdone
        cases hstage
        have hold := hcall.stage
        rw [StageOk, hcase] at hold
        exact ⟨⟨hold, hdone⟩, by simp [hcase]⟩
      · cases hstage
    · cases hstage
  | fail i =>
    refine h.advance hs fun call stage _ hstage => ?_
    split at hstage
    · cases hstage
    · cases hstage
      exact ⟨trivial, by simp⟩
  | expire keys =>
    cases hs
    have hfleet := Cluster.shrinks_remove s.fleet keys
    exact ⟨h.keys.of_shrinks hfleet,
      fun call hcall => (h.calls call hcall).mono le_rfl le_rfl hfleet⟩
  | tables pool =>
    cases hs
    exact ⟨h.keys, fun call hcall => (h.calls call hcall).mono le_rfl le_rfl (.refl _)⟩

/-- A state in which no call is in progress and the caches hold host keys only. -/
structure Start (s : State n) : Prop where
  calls : s.calls = []
  keys : HostKeys s.fleet

lemma Start.inv (h : Start s) : Inv s :=
  ⟨h.keys, by simp [h.calls]⟩

/-- **Freshness after a policy change.** In every run of timely steps, whatever calls and requests it
interleaves: after a call has returned, no memory and not Redis holds a decision computed from rules
loaded before the commit of the call. -/
theorem fresh_after_return (cfg : Config) (s t : State n) (es : List (Event n)) (hstart : Start s)
    (hrun : run (next cfg) s es = some t) (htimely : Guarded (next cfg) (Timely cfg) s es)
    (call : Call n) (hcall : call ∈ t.calls) (hreturned : call.stage = .returned)
    (p : Option (Fin n)) (key : String) (entry : CacheEntry ℕ)
    (hentry : t.fleet.get p key = some entry) : call.commit ≤ entry.origin := by
  have hinv : Inv t := htimely.invariant Inv (fun s e s' => inv_next s e s') hstart.inv hrun
  have hok := hinv.calls call hcall
  have hstage := hok.stage
  rw [StageOk, hreturned] at hstage
  exact Nat.not_lt.1 ((hok.covers (by simp [hreturned])).fresh hstage.2 hentry)

/-! ### Two runs -/

/-- A rule for every request. -/
def ruleForAll (id : String) (action : PolicyAction) : PolicyRule :=
  { id, description := none, priority := 10, action, conditions := {} }

/-- An active policy that allows everything and a draft that blocks everything. -/
def sampleDb : PolicyDb :=
  { policies :=
      [{ id := 1, name := "allow", version := "v1", status := "active", createdBy := none,
         createdAt := 1 },
       { id := 2, name := "block", version := "v1", status := "draft", createdBy := none,
         createdAt := 2 }]
    policyRules := []
    policyVersions :=
      [{ policyId := 1, version := "v1", status := "active", createdBy := none, notes := none,
         rules := [ruleForAll "allow-all" .allow], createdAt := 1 },
       { policyId := 2, version := "v1", status := "draft", createdBy := none, notes := none,
         rules := [ruleForAll "block-all" .block], createdAt := 2 }] }

/-- The configuration of the runs below. -/
def sampleSystem : Config :=
  { icap := sampleConfig, libs := sampleLibs, taxonomy := sampleTaxonomyStore
    seed := .error "no seed file" }

/-- One adaptor with empty caches; the engine has loaded the active policy. -/
def sampleStart : State 1 :=
  { db := sampleDb, commits := 0, engine := sampleState [ruleForAll "allow-all" .allow],
    rulesFrom := 0, fleet := .empty, calls := [] }

/-- The publication of the draft. -/
def publishDraft : Event 1 :=
  .commit { now := 3, timestamp := "20260101000000", actor := "admin", freshIds := [] }
    (.publish 2 none none)

/-- The invalidation of the call: two walks that find nothing, and the message. -/
def flush : List (Event 1) :=
  [.invalidate 0 .exec, .invalidate 0 .exec, .invalidate 0 .exec, .invalidate 0 .exec,
    .invalidate 0 .exec, .invalidate 0 (.deliver 0 .policy)]

/-- The reload of the call, up to its return. -/
def reloadAndReturn : List (Event 1) :=
  [.reload 0, .readPolicies 0, .readVersions 0, .readRules 0, .swap 0 9 4,
    .refresh 0 (.ok sampleActivation), .reply 0]

/-- A request for `example.com`. -/
def visit (now : ℕ) : Event 1 :=
  .request 0 now (icapRequest "example.com" "alice")

/-- A request between the flush and the reload: after the publication has returned, both caches hold
the old policy's allow, while the engine blocks. -/
theorem stale_after_publish :
    (run (next sampleSystem) sampleStart (publishDraft :: flush ++ [visit 3] ++ reloadAndReturn)).map
        (fun t => (t.calls.map fun call => (call.commit, call.stage), heldFor t.fleet none,
          heldFor t.fleet (some 0), engineAnswer t.engine)) =
      some ([(1, .returned)], some (.allow, 0), some (.allow, 0), .block) := by
  decide +kernel

/-- Requests before the flush and after the reload only: what the caches hold in the end was computed
from the published policy. -/
theorem fresh_after_timely_publish :
    ∃ t, run (next sampleSystem) sampleStart
        ([visit 0, publishDraft, .invalidate 0 .exec, .invalidate 0 (.page ["domain:example.com"])] ++
          flush.tail ++ reloadAndReturn ++ [visit 4]) = some t ∧
      ∃ call ∈ t.calls, call.stage = .returned ∧
        ∃ entry, t.fleet.get none "domain:example.com" = some entry ∧
          call.commit ≤ entry.origin := by
  have hend : (run (next sampleSystem) sampleStart
      ([visit 0, publishDraft, .invalidate 0 .exec, .invalidate 0 (.page ["domain:example.com"])] ++
        flush.tail ++ reloadAndReturn ++ [visit 4])).any (fun t =>
        t.calls.any (fun call => call.stage = .returned) &&
          (t.fleet.get none "domain:example.com").isSome) = true := by decide +kernel
  obtain ⟨t, hrun, hfacts⟩ := (any_eq_true _ _).1 hend
  obtain ⟨hcalls, hheld⟩ := (Bool.and_eq_true _ _).mp hfacts
  obtain ⟨call, hcall, hreturned⟩ := any_eq_true.1 hcalls
  obtain ⟨entry, hentry⟩ := isSome_iff_exists.1 hheld
  refine ⟨t, hrun, call, hcall, of_decide_eq_true hreturned, entry, hentry, ?_⟩
  exact fresh_after_return sampleSystem sampleStart t _ ⟨rfl, hostKeys_empty⟩
    hrun (by decide +kernel) call hcall (of_decide_eq_true hreturned) none _ entry hentry

end OpenDefender.System.PolicyPropagation
