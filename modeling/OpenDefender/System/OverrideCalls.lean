import OpenDefender.Lib.Pool
import OpenDefender.System.Freshness

/-!
Calls that create, update and delete overrides, while requests miss in two steps.

A miss asks the engine and later writes the answer to the caches; in between calls may commit and
invalidate. A call reads the table, writes it and commits, and then invalidates the scopes of the row
it has written. The origin of a cached decision is the number of commits to the override table when
the engine computed it.

* `Timely` is the condition on a step under which nothing stale stays.
* `fresh_after_call`: in a run of such steps nothing stale is left after a call has returned.
  `stale_after_straddling_miss` is a run with one answer written too late.
-/

namespace OpenDefender.System.OverrideCalls

open Lib Run Pool Coherence Adaptor Engine Admin List Option

/-- A call: it has read what it needs and has still to write, or it has committed, with the number of
its commit and the old and new scope of its row, and invalidates or has returned. -/
inductive Call (n : ℕ) where
  | creating (v : ValidatedOverridePayload) (selected : List Uuid)
  | updating (id : Uuid) (v : ValidatedOverridePayload) (previous : Scope) (status : String)
  | committed (commit : ℕ) (scopes : List Scope) (job : Invalidation n) (returned : Bool)
  | failed

/-- The engine with the tables it reads, the number of commits to the override table, the caches, the
calls and the misses under way. -/
structure State (n : ℕ) where
  evaluator : PolicyEvaluator
  tables : ClassificationTables
  commits : ℕ
  fleet : Fleet n ℕ
  calls : List (Call n)
  flights : List (Flight n)

variable {n : ℕ}

variable (s : State n)

/-- The engine's state. -/
def State.engine : AppState :=
  { evaluator := s.evaluator, classificationPool := some s.tables }

/-- The steps: the reads, writes and invalidations of the calls, the two steps of a miss, Redis
dropping expired keys, other commits to the override table, and other changes in the engine. -/
inductive Event (n : ℕ) where
  | create (payload : OverrideUpsertRequest)
  | update (id : Uuid) (payload : OverrideUpsertRequest)
  | write (i : ℕ) (freshId : Uuid) (now : ℕ)
  | delete (id : Uuid)
  | invalidate (i : ℕ) (e : JobEvent n String CacheInvalidationEvent)
  | reply (i : ℕ)
  | fail (i : ℕ)
  | evaluate (a : Fin n) (now : ℕ) (req : IcapRequest)
  | set (i : ℕ) (now : ℕ)
  | expire (keys : List String)
  | other (overrides : List OverrideRow)
  | engine (evaluator : PolicyEvaluator) (classifications : List ClassificationRow)

/-- What the writes of a call amount to: the table afterwards, the old and new scope of its row, and
the scopes it invalidates. -/
structure Written where
  table : List OverrideRow
  scopes : List Scope
  cleared : List Scope

/-- The writes of a call that has read, if its row is still there. An update writes the row as it is
now, and invalidates the scope it has read before. -/
def written (table : List OverrideRow) (freshId : Uuid) (now : ℕ) : Call n → Option Written
  | .creating v selected =>
    (createOverride table v selected freshId now).map fun result =>
      { table := result.1, scopes := [result.2], cleared := [result.2] }
  | .updating id v previous status =>
    (findOverride table id).map fun row =>
      { table := updateOverride table id v status now
        scopes := [scopeOf row, (v.scopeType, v.scopeValue)]
        cleared := overrideInvalidationScopes previous (v.scopeType, v.scopeValue) }
  | _ => none

/-- The write of `delete_override`. -/
def deleted (table : List OverrideRow) (id : Uuid) : Option Written :=
  (findOverride table id).map fun row =>
    { table := deleteOverride table id, scopes := [scopeOf row], cleared := [scopeOf row] }

/-- The call after the commit of its writes. -/
def State.committedCall (w : Written) : Call n :=
  .committed (s.commits + 1) w.scopes (.ofCommands (invalidateScopes w.cleared)) false

/-- The tables after a commit. -/
def State.commitTable (w : Written) (calls : List (Call n)) : State n :=
  { s with
    tables := { s.tables with overrides := w.table }
    commits := s.commits + 1
    calls }

/-- One step of the system. -/
def next (cfg : AdaptorSetup) (s : State n) : Event n → Option (State n)
  | .create payload =>
    match validateOverridePayload payload with
    | .error _ => none
    | .ok v => some { s with calls := s.calls ++
        [.creating v (activeIds s.tables.overrides (v.scopeType, v.scopeValue))] }
  | .update id payload =>
    match validateOverridePayload payload, findOverride s.tables.overrides id with
    | .ok v, some row =>
      some { s with calls := s.calls ++ [.updating id v (scopeOf row) row.status] }
    | _, _ => none
  | .write i freshId now => do
    let call ← s.calls[i]?
    let w ← written s.tables.overrides freshId now call
    return s.commitTable w (s.calls.set i (s.committedCall w))
  | .delete id => do
    let w ← deleted s.tables.overrides id
    return s.commitTable w (s.calls ++ [s.committedCall w])
  | .invalidate i e => do
    let call ← s.calls[i]?
    match call with
    | .committed commit scopes job returned =>
      let (fleet, job) ← Job.step (dialect ℕ) (s.fleet, job) e
      return { s with fleet, calls := s.calls.set i (.committed commit scopes job returned) }
    | _ => none
  | .reply i => do
    let call ← s.calls[i]?
    match call with
    | .committed commit scopes job _ =>
      if job.Done then some { s with calls := s.calls.set i (.committed commit scopes job true) }
      else none
    | _ => none
  | .fail i => do
    let call ← s.calls[i]?
    match call with
    | .committed _ _ _ true => none
    | _ => some { s with calls := s.calls.set i .failed }
  | .evaluate a now req => do
    let (key, decision, origin) ←
      s.fleet.evaluateMiss a cfg.libs (askEngine s.engine now s.commits) now req
    return { s with flights := s.flights ++ [{ adaptor := a, key, decision, origin }] }
  | .set i now => do
    let f ← s.flights[i]?
    return { s with
      fleet := s.fleet.setDecision f.adaptor cfg.icap now f.key f.decision f.origin
      flights := s.flights.eraseIdx i }
  | .expire keys => some { s with fleet := s.fleet.remove keys }
  | .other overrides =>
    some { s with tables := { s.tables with overrides }, commits := s.commits + 1 }
  | .engine evaluator classifications =>
    some { s with evaluator, tables := { s.tables with classifications } }

/-! ### The condition on a step -/

/-- A call does not mind that an answer is written to the caches: it has not committed, the key is
none of its own, the answer was computed after its commit, or it has still to clear both cells. -/
def Call.Tolerates (fleet : Fleet n ℕ) (f : Flight n) : Call n → Prop
  | .committed commit scopes job _ =>
    Governed scopes f.key → commit ≤ f.origin ∨ OwesFill fleet job f.adaptor f.key
  | _ => True

instance (fleet : Fleet n ℕ) (f : Flight n) (call : Call n) : Decidable (call.Tolerates fleet f) := by
  cases call <;> unfold Call.Tolerates <;> infer_instance

/-- **The condition on a step.** A call that commits clears every cached key governed by the old or
new scope of its row, and an answer is written only if every call tolerates it. -/
def Timely : Event n → Prop
  | .write i freshId now =>
    ∀ call ∈ s.calls[i]?, ∀ w ∈ written s.tables.overrides freshId now call,
      GovernedAreCleared s.fleet w.scopes w.cleared
  | .delete id =>
    ∀ w ∈ deleted s.tables.overrides id, GovernedAreCleared s.fleet w.scopes w.cleared
  | .set i _ => ∀ f ∈ s.flights[i]?, ∀ call ∈ s.calls, call.Tolerates s.fleet f
  | _ => True

instance (e : Event n) : Decidable (Timely s e) := by
  cases e <;> unfold Timely <;> infer_instance

/-! ### The invariant -/

/-- A decision for a governed key from before the commit. -/
def Outdated (scopes : List Scope) (commit : ℕ) (_ : Option (Fin n)) (key : String)
    (entry : CacheEntry ℕ) : Prop :=
  Governed scopes key ∧ entry.origin < commit

/-- A call that has committed has still to clear every outdated decision. -/
def CallOk : Call n → Prop
  | .committed commit scopes job returned =>
    job.Covers (dialect ℕ) (Outdated scopes commit) s.fleet ∧ (returned = true → job.Done)
  | _ => True

/-- The invariant of the system. -/
structure Inv (s : State n) : Prop where
  keys : HostKeys s.fleet
  flights : ∀ f ∈ s.flights, IsHostKey f.key
  calls : ∀ call ∈ s.calls, CallOk s call

variable {s : State n}

lemma CallOk.mono (h : CallOk s call) (hfleet : s.fleet.Shrinks s'.fleet) : CallOk s' call := by
  cases call with
  | committed commit scopes job returned => exact ⟨h.1.of_shrinks hfleet, h.2⟩
  | creating v selected => trivial
  | updating id v previous status => trivial
  | failed => trivial

/-- A step that adds no entry and after which every call is one of before or fits. -/
lemma Inv.mono (h : Inv s) (hfleet : s.fleet.Shrinks s'.fleet)
    (hflights : ∀ f ∈ s'.flights, IsHostKey f.key)
    (hcalls : ∀ call ∈ s'.calls, call ∈ s.calls ∨ CallOk s' call) : Inv s' := by
  refine ⟨h.keys.of_shrinks hfleet, hflights, fun call hcall => ?_⟩
  rcases hcalls call hcall with hold | hnew
  · exact (h.calls call hold).mono hfleet
  · exact hnew

/-! ### Each step keeps the invariant -/

/-- At its commit a call has everything to clear that it outdates. -/
lemma callOk_committedCall (h : Inv s) (hcleared : GovernedAreCleared s.fleet w.scopes w.cleared)
    (calls : List (Call n)) : CallOk (s.commitTable w calls) (s.committedCall w) :=
  ⟨covers_invalidateScopes h.keys hcleared fun _ _ _ houtdated => houtdated.1,
    fun hreturned => nomatch hreturned⟩

lemma inv_set (h : Inv s) (hok : Timely s (.set i now)) (hs : next cfg s (.set i now) = some s') :
    Inv s' := by
  obtain ⟨f, hf, hs⟩ := bind_eq_some_iff.1 hs
  cases hs
  have hkey := h.flights f (mem_of_getElem? hf)
  refine ⟨h.keys.fill hkey _ _, fun f' hf' => h.flights f' (mem_of_mem_eraseIdx hf'),
    fun call hcall => ?_⟩
  have hcallok := h.calls call hcall
  have htolerates := hok f hf call hcall
  cases call with
  | committed commit scopes job returned =>
    refine ⟨?_, hcallok.2⟩
    -- the new entries are not outdated, or go to cells still owed
    have hfill (p : Option (Fin n)) (hp : p = none ∨ p = some f.adaptor)
        (entry : CacheEntry ℕ) (horigin : entry.origin = f.origin) :
        ¬ Outdated scopes commit p f.key entry ∨ job.Owes (dialect ℕ) s.fleet p f.key := by
      by_cases hgov : Governed scopes f.key
      · rcases htolerates hgov with hnew | ⟨hredis, hmemory⟩
        · exact Or.inl fun hold => absurd (horigin ▸ hold.2) (Nat.not_lt.2 hnew)
        · rcases hp with rfl | rfl
          · exact Or.inr hredis
          · exact Or.inr hmemory
      · exact Or.inl fun hold => hgov hold.1
    exact hcallok.1.fill (hfill _ (Or.inr rfl) _ rfl) (hfill _ (Or.inl rfl) _ rfl)
  | creating v selected => trivial
  | updating id v previous status => trivial
  | failed => trivial

/-- **One step keeps the invariant.** -/
lemma inv_next (s : State n) (e : Event n) (s' : State n) (h : Inv s) (hok : Timely s e)
    (hs : next cfg s e = some s') : Inv s' := by
  cases e with
  | create payload =>
    rw [next.eq_def] at hs
    dsimp only at hs
    split at hs
    · cases hs
    · cases hs
      exact h.mono (.refl _) h.flights (mem_concat_or trivial)
  | update id payload =>
    rw [next.eq_def] at hs
    dsimp only at hs
    split at hs
    · cases hs
      exact h.mono (.refl _) h.flights (mem_concat_or trivial)
    · cases hs
  | write i freshId now =>
    obtain ⟨call, hcall, hs⟩ := bind_eq_some_iff.1 hs
    obtain ⟨w, hw, hs⟩ := bind_eq_some_iff.1 hs
    cases hs
    exact h.mono (.refl _) h.flights
      (mem_set_or (callOk_committedCall h (hok call hcall w hw) _))
  | delete id =>
    obtain ⟨w, hw, hs⟩ := bind_eq_some_iff.1 hs
    cases hs
    exact h.mono (.refl _) h.flights (mem_concat_or (callOk_committedCall h (hok w hw) _))
  | invalidate i e =>
    obtain ⟨call, hcall, hs⟩ := bind_eq_some_iff.1 hs
    split at hs
    · rename_i commit scopes job returned
      obtain ⟨⟨fleet, job'⟩, hjob, hs⟩ := bind_eq_some_iff.1 hs
      cases hs
      have hcallok := h.calls _ (mem_of_getElem? hcall)
      have hstep := Job.Step.of_step hjob
      refine h.mono hstep.shrinks h.flights (mem_set_or ⟨hcallok.1.step hjob, fun hret => ?_⟩)
      exact absurd hstep (hcallok.2 hret).not_step
    · cases hs
  | reply i =>
    obtain ⟨call, hcall, hs⟩ := bind_eq_some_iff.1 hs
    split at hs
    · split at hs
      · rename_i hdone
        cases hs
        have hcallok := h.calls _ (mem_of_getElem? hcall)
        exact h.mono (.refl _) h.flights (mem_set_or ⟨hcallok.1, fun _ => hdone⟩)
      · cases hs
    · cases hs
  | fail i =>
    obtain ⟨call, hcall, hs⟩ := bind_eq_some_iff.1 hs
    split at hs
    · cases hs
    · cases hs
      exact h.mono (.refl _) h.flights (mem_set_or trivial)
  | evaluate a now req =>
    obtain ⟨⟨key, decision, origin⟩, hmiss, hs⟩ := bind_eq_some_iff.1 hs
    cases hs
    have hflight := (Fleet.handleRequest_of_evaluateMiss cfg.icap hmiss).1
    exact h.mono (.refl _) (forall_concat hflight h.flights) fun call hcall => Or.inl hcall
  | set i now => exact inv_set h hok hs
  | expire keys =>
    cases hs
    exact h.mono (Cluster.shrinks_remove s.fleet keys) h.flights fun call hcall => Or.inl hcall
  | other overrides =>
    cases hs
    exact h.mono (.refl _) h.flights fun call hcall => Or.inl hcall
  | engine evaluator classifications =>
    cases hs
    exact h.mono (.refl _) h.flights fun call hcall => Or.inl hcall

/-- A state in which no call and no miss is under way and the caches hold host keys only. -/
structure Start (s : State n) : Prop where
  calls : s.calls = []
  flights : s.flights = []
  keys : HostKeys s.fleet

lemma Start.inv (h : Start s) : Inv s := by
  refine ⟨h.keys, ?_, ?_⟩
  · rw [h.flights]
    exact fun f hf => absurd hf not_mem_nil
  · rw [h.calls]
    exact fun call hcall => absurd hcall not_mem_nil

/-- **Freshness after a call.** In every run of timely steps, whatever calls and misses it interleaves:
after a call has returned, no memory and not Redis holds, for a key governed by the old or new scope
of its row, a decision computed before its commit. -/
theorem fresh_after_call (cfg : AdaptorSetup) (s t : State n) (es : List (Event n)) (hstart : Start s)
    (hrun : run (next cfg) s es = some t) (htimely : Guarded (next cfg) Timely s es) (commit : ℕ)
    (scopes : List Scope) (job : Invalidation n)
    (hcall : Call.committed commit scopes job true ∈ t.calls) (p : Option (Fin n)) (key : String)
    (entry : CacheEntry ℕ) (hentry : t.fleet.get p key = some entry) (hgov : Governed scopes key) :
    commit ≤ entry.origin := by
  have hinv : Inv t := htimely.invariant Inv (fun s e s' => inv_next s e s')
    hstart.inv hrun
  obtain ⟨hcovers, hdone⟩ := hinv.calls _ hcall
  by_contra hlt
  exact hcovers.fresh (hdone rfl) hentry ⟨hgov, Nat.lt_of_not_le hlt⟩

/-! ### Two runs -/

/-- One adaptor with empty caches, no rules and no overrides. -/
def sampleStart : State 1 :=
  { evaluator := (sampleState []).evaluator, tables := { overrides := [], classifications := [] },
    commits := 0, fleet := .empty, calls := [], flights := [] }

/-- A call that blocks `example.com`, up to its return; Redis holds nothing below the host. -/
def createBlock : List (Event 1) :=
  [.create { scopeType := "domain", scopeValue := "example.com", action := "block", reason := none,
             createdBy := none, expiresAt := none, status := none },
    .write 0 1 3, .invalidate 0 .exec, .invalidate 0 .exec, .invalidate 0 .exec, .invalidate 0 .exec,
    .invalidate 0 .exec, .invalidate 0 (.deliver 0 (.override "domain" "example.com")), .reply 0]

/-- The first step of a request for `example.com`. -/
def ask (now : ℕ) : Event 1 :=
  .evaluate 0 now (icapRequest "example.com" "alice")

/-- The commit of a call that has returned, if it governs `example.com`. -/
def Call.returnedCommit : Call n → Option ℕ
  | .committed commit scopes _ true =>
    if Governed scopes "domain:example.com" then some commit else none
  | _ => none

/-- The engine is asked before the call and the answer is written after its return: in the end no miss
is under way and both caches hold an allow, while the engine blocks. -/
theorem stale_after_straddling_miss :
    (run (next sampleAdaptors) sampleStart (ask 0 :: createBlock ++ [.set 0 4])).map
        (fun t => (t.calls.map Call.returnedCommit, heldFor t.fleet none, heldFor t.fleet (some 0),
          engineAnswer t.engine)) =
      some ([some 1], some (.allow, 0), some (.allow, 0), .block) ∧
    (run (next sampleAdaptors) sampleStart (ask 0 :: createBlock ++ [.set 0 4])).map
        (fun t => t.flights.length) = some 0 :=
  ⟨by decide +kernel, by decide +kernel⟩

/-- Misses before the call and after its commit only: what Redis holds in the end was computed from the
new table. -/
theorem fresh_after_timely_call :
    ∃ t, run (next sampleAdaptors) sampleStart
        ([ask 0, .set 0 0] ++ createBlock ++ [ask 4, .set 0 4]) = some t ∧
      ∃ commit scopes job, Call.committed commit scopes job true ∈ t.calls ∧
        ∃ entry, t.fleet.get none "domain:example.com" = some entry ∧ commit ≤ entry.origin := by
  have hend : (run (next sampleAdaptors) sampleStart
      ([ask 0, .set 0 0] ++ createBlock ++ [ask 4, .set 0 4])).any (fun t =>
        t.calls.any (fun call => call.returnedCommit.isSome) &&
          (t.fleet.get none "domain:example.com").isSome) = true := by decide +kernel
  obtain ⟨t, hrun, hfacts⟩ := (any_eq_true _ _).1 hend
  obtain ⟨hcalls, hheld⟩ := (Bool.and_eq_true _ _).mp hfacts
  obtain ⟨call, hcall, hreturned⟩ := any_eq_true.1 hcalls
  obtain ⟨entry, hentry⟩ := isSome_iff_exists.1 hheld
  unfold Call.returnedCommit at hreturned
  split at hreturned
  · rename_i commit scopes job
    split at hreturned
    · rename_i hgov
      refine ⟨t, hrun, commit, scopes, job, hcall, entry, hentry, ?_⟩
      exact fresh_after_call sampleAdaptors sampleStart t _ ⟨rfl, rfl, hostKeys_empty⟩ hrun
        (by decide +kernel) commit scopes job hcall none _ entry hentry hgov
    · cases hreturned
  · cases hreturned

end OpenDefender.System.OverrideCalls
