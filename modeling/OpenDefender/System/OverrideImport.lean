import OpenDefender.Lib.Pool
import OpenDefender.System.Freshness

/-!
An import of overrides while the adaptors serve requests.

`import_overrides` writes its rows in one transaction and invalidates the scope of each row inside
it, so the engine answers from the old table until the commit. The origin of a cached decision is the
number of commits to the override table when it was computed. Imports may overlap each other, other
writers of the table and any requests.

* `Timely` is the condition on a step under which nothing stale stays.
* `fresh_after_import`: in a run of such steps nothing stale is left after an import has returned.
  `stale_after_import` is a run with one untimely miss.
-/

namespace OpenDefender.System.OverrideImport

open Lib Run Pool Coherence Adaptor Engine Admin List

/-- `OverrideImportRequest`. -/
structure OverrideImportRequest where
  action : String
  mode : Option String
  dryRun : Option Bool
  content : String

/-- The transaction of an import: its writes so far, the imported scopes, and whether the rows to be
replaced have still to be deleted. -/
structure Transaction where
  ctx : ImportContext
  scopes : List String
  writes : List OverrideWrite
  removes : Bool

/-- An import is running, or has returned after the commit of the given number, or has failed. -/
inductive Stage where
  | running (tx : Transaction)
  | returned (commit : ℕ)
  | failed

/-- An import, with the scopes it has imported or removed. -/
structure Import (n : ℕ) where
  scopes : List Scope
  job : Invalidation n
  stage : Stage

/-- The engine with the tables it reads, the number of commits to the override table, the caches and
the imports. -/
structure State (n : ℕ) where
  evaluator : PolicyEvaluator
  tables : ClassificationTables
  commits : ℕ
  fleet : Fleet n ℕ
  imports : List (Import n)

variable {n : ℕ}

/-- The engine's state. -/
def State.engine (s : State n) : AppState :=
  { evaluator := s.evaluator, classificationPool := some s.tables }

/-- The steps: those of the imports, those of the adaptors, Redis dropping expired keys, other commits
to the override table, and other changes in the engine. -/
inductive Event (n : ℕ) where
  | begin (payload : OverrideImportRequest) (actor : String) (now : ℕ) (fresh : ℕ → Uuid)
  | invalidate (i : ℕ) (e : JobEvent n String CacheInvalidationEvent)
  | remove (i : ℕ)
  | commit (i : ℕ)
  | fail (i : ℕ)
  | request (a : Fin n) (now : ℕ) (req : IcapRequest)
  | expire (keys : List String)
  | write (overrides : List OverrideRow)
  | engine (evaluator : PolicyEvaluator) (classifications : List ClassificationRow)

/-- The scopes a payload imports. -/
def importedScopes (payload : OverrideImportRequest) : List Scope :=
  (parseOverrideExchangeLines payload.content).scopes.map fun scopeValue => ("domain", scopeValue)

/-- The transaction of a payload that is not a dry run, from the rows it reads before it begins. -/
def openTransaction (table : List OverrideRow) (payload : OverrideImportRequest) (actor : String)
    (now : ℕ) (fresh : ℕ → Uuid) : Except ApiError Transaction := do
  let action ← normalizeAction payload.action
  let mode ← normalizeOverrideImportMode payload.mode
  let ctx : ImportContext := { action, actor, now }
  let scopes := (parseOverrideExchangeLines payload.content).scopes
  return { ctx, scopes, removes := mode == .replace
           writes := importWrites ctx (importView table)
             (scopes.zipIdx.map fun scope => (scope.1, fresh scope.2)) }

/-- The rows the transaction deletes, as it sees the table. -/
def State.removedRows (s : State n) (tx : Transaction) : List OverrideRow :=
  Admin.removedRows tx.ctx (applyWrites tx.ctx s.tables.overrides tx.writes) tx.scopes

/-- An import that has deleted rows has their scopes to invalidate. -/
def Import.afterRemoval (imp : Import n) (tx : Transaction) (removed : List OverrideRow) :
    Import n :=
  { scopes := imp.scopes ++ removed.map scopeOf
    job := .ofCommands (invalidateScopes (removed.map scopeOf))
    stage := .running
      { tx with
        writes := tx.writes ++ [.delete (removed.map (·.id))]
        removes := false } }

/-- One step of the system. -/
def next (cfg : AdaptorSetup) (s : State n) : Event n → Option (State n)
  | .begin payload actor now fresh =>
    if payload.dryRun.getD true then none
    else
      match openTransaction s.tables.overrides payload actor now fresh with
      | .error _ => none
      | .ok tx =>
        some { s with imports := s.imports ++
          [{ scopes := importedScopes payload
             job := .ofCommands (invalidateScopes (importedScopes payload))
             stage := .running tx }] }
  | .invalidate i e => do
    let imp ← s.imports[i]?
    let (fleet, job) ← Job.step (dialect ℕ) (s.fleet, imp.job) e
    return { s with fleet, imports := s.imports.set i { imp with job } }
  | .remove i => do
    let imp ← s.imports[i]?
    match imp.stage with
    | .running tx =>
      if imp.job.Done ∧ tx.removes = true then
        some { s with imports := s.imports.set i (imp.afterRemoval tx (s.removedRows tx)) }
      else none
    | _ => none
  | .commit i => do
    let imp ← s.imports[i]?
    match imp.stage with
    | .running tx =>
      if imp.job.Done ∧ tx.removes = false then
        some { s with
          tables :=
            { s.tables with overrides := applyWrites tx.ctx s.tables.overrides tx.writes }
          commits := s.commits + 1
          imports := s.imports.set i { imp with stage := .returned (s.commits + 1) } }
      else none
    | _ => none
  | .fail i => do
    let imp ← s.imports[i]?
    match imp.stage with
    | .running _ => some { s with imports := s.imports.set i { imp with stage := .failed } }
    | _ => none
  | .request a now req =>
    match s.fleet.handleRequest a cfg.icap cfg.libs (askEngine s.engine now s.commits) now req with
    | .error _ => none
    | .ok (_, fleet) => some { s with fleet }
  | .expire keys => some { s with fleet := s.fleet.remove keys }
  | .write overrides =>
    some { s with tables := { s.tables with overrides }, commits := s.commits + 1 }
  | .engine evaluator classifications =>
    some { s with evaluator, tables := { s.tables with classifications } }

/-! ### The condition on a step -/

/-- An import does not mind a fill of the key: it has committed or failed, the key is none of its own,
or it has still to clear both cells. -/
def Import.Tolerates (fleet : Fleet n ℕ) (imp : Import n) (a : Fin n) (key : String) : Prop :=
  match imp.stage with
  | .running _ => Governed imp.scopes key → OwesFill fleet imp.job a key
  | _ => True

instance (fleet : Fleet n ℕ) (imp : Import n) (a : Fin n) (key : String) :
    Decidable (imp.Tolerates fleet a key) := by
  unfold Import.Tolerates
  split <;> infer_instance

/-- **The condition on a step.** An import clears every cached key that is governed by its scopes, and
a request that misses is tolerated by every import. -/
def Timely (cfg : AdaptorSetup) (s : State n) : Event n → Prop
  | .begin payload _ _ _ =>
    GovernedAreCleared s.fleet (importedScopes payload) (importedScopes payload)
  | .remove i =>
    ∀ imp ∈ s.imports[i]?, match imp.stage with
      | .running tx =>
        GovernedAreCleared s.fleet ((s.removedRows tx).map scopeOf)
          ((s.removedRows tx).map scopeOf)
      | _ => True
  | .request a now req =>
    ∀ key ∈ s.fleet.missedKey a cfg.libs now req, ∀ imp ∈ s.imports, imp.Tolerates s.fleet a key
  | _ => True

instance (cfg : AdaptorSetup) (s : State n) (e : Event n) : Decidable (Timely cfg s e) := by
  cases e <;> unfold Timely <;> try infer_instance
  have (imp : Import n) : Decidable (match imp.stage with
      | .running tx =>
        GovernedAreCleared s.fleet ((s.removedRows tx).map scopeOf)
          ((s.removedRows tx).map scopeOf)
      | _ => True) := by
    split <;> infer_instance
  infer_instance

/-! ### The invariant -/

/-- A running import has still to clear every cached key governed by its scopes; one that has returned
has left only decisions of its commit or later. -/
def ImportOk (s : State n) (imp : Import n) : Prop :=
  match imp.stage with
  | .running _ => imp.job.Covers (dialect ℕ) (fun _ key _ => Governed imp.scopes key) s.fleet
  | .returned commit => commit ≤ s.commits ∧
      ∀ p key entry, s.fleet.get p key = some entry → Governed imp.scopes key →
        commit ≤ entry.origin
  | .failed => True

/-- The invariant of the system. -/
structure Inv (s : State n) : Prop where
  keys : HostKeys s.fleet
  imports : ∀ imp ∈ s.imports, ImportOk s imp

variable {s s' : State n}

lemma ImportOk.mono (h : ImportOk s imp) (hcommits : s.commits ≤ s'.commits)
    (hfleet : s.fleet.Shrinks s'.fleet) : ImportOk s' imp := by
  unfold ImportOk at h ⊢
  cases hstage : imp.stage with
  | running tx =>
    rw [hstage] at h
    exact Job.Covers.of_shrinks h hfleet
  | returned commit =>
    rw [hstage] at h
    exact ⟨h.1.trans hcommits, fun p key entry hv => h.2 p key entry (hfleet.get p key entry hv)⟩
  | failed => trivial

/-- A step that only makes commits and removes entries. -/
lemma Inv.mono (h : Inv s) (hcommits : s.commits ≤ s'.commits) (hfleet : s.fleet.Shrinks s'.fleet)
    (himports : s'.imports = s.imports) : Inv s' := by
  refine ⟨h.keys.of_shrinks hfleet, fun imp himp => ?_⟩
  rw [himports] at himp
  exact (h.imports imp himp).mono hcommits hfleet

/-- A step that besides changes one import. -/
lemma Inv.set (h : Inv s) (hcommits : s.commits ≤ s'.commits) (hfleet : s.fleet.Shrinks s'.fleet)
    (himports : s'.imports = s.imports.set i imp) (himp : ImportOk s' imp) : Inv s' := by
  have hold : ∀ imp' ∈ s.imports, ImportOk s' imp' :=
    fun imp' himp' => (h.imports imp' himp').mono hcommits hfleet
  refine ⟨h.keys.of_shrinks hfleet, ?_⟩
  rw [himports]
  exact forall_set himp (forall_eraseIdx hold)

/-! ### Each step keeps the invariant -/

/-- What a running import with nothing left to do has cleared. -/
lemma ImportOk.none_governed (h : ImportOk s imp) (hstage : imp.stage = .running tx)
    (hdone : imp.job.Done) (hv : s.fleet.get p key = some entry) : ¬ Governed imp.scopes key := by
  rw [ImportOk, hstage] at h
  exact Job.Covers.fresh h hdone hv

variable {cfg : AdaptorSetup}

lemma inv_begin (h : Inv s) (hok : Timely cfg s (.begin payload actor now fresh))
    (hs : next cfg s (.begin payload actor now fresh) = some s') : Inv s' := by
  simp only [next] at hs
  split at hs
  · cases hs
  · split at hs
    · cases hs
    · cases hs
      refine ⟨h.keys, fun imp himp => ?_⟩
      rcases mem_append.1 himp with hold | hnew
      · exact (h.imports imp hold).mono le_rfl (.refl _)
      · obtain rfl := mem_singleton.1 hnew
        exact covers_invalidateScopes h.keys hok fun _ _ _ hgov => hgov

lemma inv_invalidate (h : Inv s) (hs : next cfg s (.invalidate i e) = some s') : Inv s' := by
  obtain ⟨imp, himp, hs⟩ := Option.bind_eq_some_iff.1 hs
  obtain ⟨⟨fleet, job⟩, hjob, hs⟩ := Option.bind_eq_some_iff.1 hs
  cases hs
  have hfleet := (Job.Step.of_step hjob).shrinks
  have hok := h.imports imp (mem_of_getElem? himp)
  refine h.set le_rfl hfleet rfl ?_
  have hmono : ImportOk { s with fleet := fleet } imp := hok.mono le_rfl hfleet
  unfold ImportOk at hok hmono ⊢
  cases hstage : imp.stage with
  | running tx =>
    rw [hstage] at hok
    exact Job.Covers.step hok hjob
  | returned commit =>
    rw [hstage] at hmono
    exact hmono
  | failed => trivial

/-- The removal begins when nothing governed by the imported scopes is cached. -/
lemma inv_remove (h : Inv s) (hok : Timely cfg s (.remove i))
    (hs : next cfg s (.remove i) = some s') : Inv s' := by
  obtain ⟨imp, himp, hs⟩ := Option.bind_eq_some_iff.1 hs
  have hcleared := hok imp himp
  split at hs
  · rename_i tx hstage
    rw [hstage] at hcleared
    split at hs
    · rename_i hready
      cases hs
      refine h.set le_rfl (.refl _) rfl fun p key entry hv hgov => ?_
      rcases governed_append.1 hgov with hold | hnew
      · exact absurd hold ((h.imports imp (mem_of_getElem? himp)).none_governed hstage hready.1 hv)
      · exact covers_invalidateScopes h.keys hcleared (fun _ _ _ hgov => hgov) p key entry hv hnew
    · cases hs
  · cases hs

/-- At the commit nothing governed is cached at all. -/
lemma inv_commit (h : Inv s) (hs : next cfg s (.commit i) = some s') : Inv s' := by
  obtain ⟨imp, himp, hs⟩ := Option.bind_eq_some_iff.1 hs
  split at hs
  · rename_i tx hstage
    split at hs
    · rename_i hready
      cases hs
      refine h.set (Nat.le_succ _) (.refl _) rfl ⟨le_rfl, fun p key entry hv hgov => ?_⟩
      exact absurd hgov ((h.imports imp (mem_of_getElem? himp)).none_governed hstage hready.1 hv)
    · cases hs
  · cases hs

lemma inv_request (h : Inv s) (hok : Timely cfg s (.request a now req))
    (hs : next cfg s (.request a now req) = some s') : Inv s' := by
  simp only [next] at hs
  split at hs
  · cases hs
  · rename_i answer fleet hrequest
    cases hs
    rcases fill_of_request hrequest with rfl | ⟨key, entry, entry', hkey, hhost, he, he', rfl⟩
    · exact h.mono le_rfl (.refl _) rfl
    refine ⟨h.keys.fill hhost entry entry', fun imp himp => ?_⟩
    have himpok := h.imports imp himp
    have htolerates := hok key hkey imp himp
    unfold ImportOk at himpok ⊢
    unfold Import.Tolerates at htolerates
    cases hstage : imp.stage with
    | running tx =>
      rw [hstage] at himpok htolerates
      by_cases hgov : Governed imp.scopes key
      · obtain ⟨hredis, hmemory⟩ := htolerates hgov
        exact Job.Covers.fill himpok (Or.inr hmemory) (Or.inr hredis)
      · exact Job.Covers.fill himpok (Or.inl hgov) (Or.inl hgov)
    | returned commit =>
      rw [hstage] at himpok
      refine ⟨himpok.1, fun p key' e hv hgov => ?_⟩
      rcases Cluster.get_fill hv with ⟨_, _, rfl⟩ | ⟨_, _, rfl⟩ | hold
      · exact himpok.1.trans_eq he.symm
      · exact himpok.1.trans_eq he'.symm
      · exact himpok.2 p key' e hold hgov
    | failed => trivial

/-- **One step keeps the invariant.** -/
lemma inv_next (s : State n) (e : Event n) (s' : State n) (h : Inv s) (hok : Timely cfg s e)
    (hs : next cfg s e = some s') : Inv s' := by
  cases e with
  | begin payload actor now fresh => exact inv_begin h hok hs
  | invalidate i e => exact inv_invalidate h hs
  | remove i => exact inv_remove h hok hs
  | commit i => exact inv_commit h hs
  | request a now req => exact inv_request h hok hs
  | fail i =>
    obtain ⟨imp, himp, hs⟩ := Option.bind_eq_some_iff.1 hs
    split at hs
    · cases hs
      exact h.set le_rfl (.refl _) rfl trivial
    · cases hs
  | expire keys =>
    cases hs
    exact h.mono le_rfl (Cluster.shrinks_remove s.fleet keys) rfl
  | write overrides =>
    cases hs
    exact h.mono (Nat.le_succ _) (.refl _) rfl
  | engine evaluator classifications =>
    cases hs
    exact h.mono le_rfl (.refl _) rfl

/-- A state in which no import is in progress and the caches hold host keys only. -/
structure Start (s : State n) : Prop where
  imports : s.imports = []
  keys : HostKeys s.fleet

/-- **Freshness after an import.** In every run of timely steps, whatever imports, commits and requests
it interleaves: after an import has returned, no memory and not Redis holds, for a key governed by an
imported or removed scope, a decision computed from the override table of before its commit. -/
theorem fresh_after_import (cfg : AdaptorSetup) (s t : State n) (es : List (Event n)) (hstart : Start s)
    (hrun : run (next cfg) s es = some t) (htimely : Guarded (next cfg) (Timely cfg) s es)
    (imp : Import n) (himp : imp ∈ t.imports) (commit : ℕ) (hreturned : imp.stage = .returned commit)
    (p : Option (Fin n)) (key : String) (entry : CacheEntry ℕ)
    (hentry : t.fleet.get p key = some entry) (hgov : Governed imp.scopes key) :
    commit ≤ entry.origin := by
  have hinv : Inv t := htimely.invariant Inv (fun s e s' => inv_next s e s')
    ⟨hstart.keys, by simp [hstart.imports]⟩ hrun
  have hok := hinv.imports imp himp
  rw [ImportOk, hreturned] at hok
  exact hok.2 p key entry hentry hgov

/-! ### Two runs -/

/-- One adaptor with empty caches, no rules and no overrides. -/
def sampleStart : State 1 :=
  { evaluator := (sampleState []).evaluator, tables := { overrides := [], classifications := [] },
    commits := 0, fleet := .empty, imports := [] }

/-- An import that blocks `example.com`. -/
def importBlock : Event 1 :=
  .begin { action := "block", mode := none, dryRun := some false, content := "# list\nexample.com\n" }
    "admin" 3 (fun i => i + 1)

/-- Its invalidation when Redis holds nothing below the host. -/
def invalidation : List (Event 1) :=
  [.invalidate 0 .exec, .invalidate 0 .exec, .invalidate 0 .exec, .invalidate 0 .exec,
    .invalidate 0 .exec, .invalidate 0 (.deliver 0 (.override "domain" "example.com"))]

/-- A request for `example.com`. -/
def visit (now : ℕ) : Event 1 :=
  .request 0 now (icapRequest "example.com" "alice")

/-- The number of the commit of an import that has returned. -/
def Stage.commit : Stage → Option ℕ
  | .returned commit => some commit
  | _ => none

/-- A request between the invalidation and the commit: after the import has returned, both caches hold
an allow, while the engine blocks. -/
theorem stale_after_import :
    (run (next sampleAdaptors) sampleStart (importBlock :: invalidation ++ [visit 4, .commit 0])).map
        (fun t => (t.imports.map fun imp =>
            (imp.stage.commit, decide (Governed imp.scopes "domain:example.com")),
          heldFor t.fleet none, heldFor t.fleet (some 0), engineAnswer t.engine)) =
      some ([(some 1, true)], some (.allow, 0), some (.allow, 0), .block) := by
  decide +kernel

/-- Requests before the import and after its commit only: what Redis holds in the end was computed
from the new table. -/
theorem fresh_after_timely_import :
    ∃ t, run (next sampleAdaptors) sampleStart
        ([visit 0, importBlock] ++ invalidation ++ [.commit 0, visit 4]) = some t ∧
      ∃ imp ∈ t.imports, ∃ commit, imp.stage = .returned commit ∧
        ∃ entry, t.fleet.get none "domain:example.com" = some entry ∧ commit ≤ entry.origin := by
  refine exists_of_any (fun t => t.imports.any (fun imp => imp.stage.commit.isSome &&
      decide (Governed imp.scopes "domain:example.com")) &&
        (t.fleet.get none "domain:example.com").isSome) (by decide +kernel) fun t hrun hfacts => ?_
  obtain ⟨himports, hheld⟩ := (Bool.and_eq_true _ _).mp hfacts
  obtain ⟨imp, himp, himpfacts⟩ := any_eq_true.1 himports
  obtain ⟨hcommit, hgov⟩ := (Bool.and_eq_true _ _).mp himpfacts
  obtain ⟨entry, hentry⟩ := Option.isSome_iff_exists.1 hheld
  obtain ⟨commit, hstage⟩ : ∃ commit, imp.stage = .returned commit := by
    cases hstage : imp.stage with
    | returned commit => exact ⟨commit, rfl⟩
    | _ =>
      rw [hstage] at hcommit
      cases hcommit
  refine ⟨imp, himp, commit, hstage, entry, hentry, ?_⟩
  exact fresh_after_import sampleAdaptors sampleStart t _ ⟨rfl, hostKeys_empty⟩ hrun
    (by decide +kernel) imp himp commit hstage none _ entry hentry (of_decide_eq_true hgov)

end OpenDefender.System.OverrideImport
