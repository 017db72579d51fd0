import OpenDefender.Fetcher.Job
import OpenDefender.Worker.Reconciler

/-!
Histories of page fetches: jobs from any producer, one after the other, each at its own time. A job on
which `process_job` returns without fetching leaves its key with fresh content, or with a failure whose
cooldown has not passed, as long as no marker of its idempotency key is in the way: `skips_justified`.

The reconciler sends the same idempotency key again and again for one key and URL, and the marker lives
longer than the page: `expired_page_skipped`.
-/

namespace OpenDefender.System.FetchSkips

open Fetcher Worker Lib.Run List

/-- A job, the calls it makes, and the time it returns. -/
structure Attempt where
  job : PageFetchJob
  calls : FetchCalls
  returnedAt : ℕ

/-- How a job has returned, and what is there at that time. -/
structure Returned where
  job : PageFetchJob
  outcome : FetchOutcome
  store : FetchStore
  returnedAt : ℕ

/-- What is there, and how the jobs so far have returned. -/
structure History where
  store : FetchStore
  returns : List Returned

variable (cfg : FetchConfig)

/-- The next job. -/
def next (history : History) (attempt : Attempt) : Option History :=
  let result := history.store.processJob cfg attempt.calls attempt.job
  some
    { store := result.store
      returns := history.returns ++
        [{ job := attempt.job
           outcome := result.outcome
           store := result.store
           returnedAt := attempt.returnedAt }] }

/-- Nothing has happened yet, with whatever there is. -/
def start (store : FetchStore) : History := { store, returns := [] }

/-- The key needs no fetch at the time the job returns. -/
def Returned.Justified (returned : Returned) : Prop :=
  returned.store.NeedsNoFetch cfg returned.returnedAt returned.returnedAt returned.job.normalizedKey

instance (returned : Returned) : Decidable (returned.Justified cfg) :=
  inferInstanceAs (Decidable (returned.store.NeedsNoFetch cfg _ _ _))

/-- There is no marker for the job when it looks for one, and between the checks and the return no page
of its key expires and no cooldown of it ends. -/
def Undisturbed (history : History) (attempt : Attempt) : Prop :=
  history.store.keySeen attempt.calls.seenAt (pageFetchIdempotencyKey attempt.job) = false ∧
    ∀ row ∈ history.store.contents, row.normalizedKey = attempt.job.normalizedKey →
      ((attempt.calls.freshAt : ℤ) < row.expiresAt → (attempt.returnedAt : ℤ) < row.expiresAt) ∧
        (cfg.coolingDown attempt.calls.cooldownAt row = true →
          cfg.coolingDown attempt.returnedAt row = true)

instance (history : History) (attempt : Attempt) : Decidable (Undisturbed cfg history attempt) :=
  inferInstanceAs (Decidable (_ ∧ ∀ row ∈ history.store.contents, _))

variable {cfg : FetchConfig} {store : FetchStore} {normalizedKey : String}

lemma mem_of_newestFetch (h : store.newestFetch normalizedKey = some row) :
    row ∈ store.contents ∧ row.normalizedKey = normalizedKey := by
  rw [FetchStore.newestFetch] at h
  have hmem := mem_filter.1 (mem_of_find?_eq_some h)
  exact ⟨hmem.1, of_decide_eq_true hmem.2⟩

/-- What a key needs stays as it is while nothing of it expires. -/
lemma needsNoFetch_later {freshAt cooldownAt later : ℕ}
    (hlasting : ∀ row ∈ store.contents, row.normalizedKey = normalizedKey →
      ((freshAt : ℤ) < row.expiresAt → (later : ℤ) < row.expiresAt) ∧
        (cfg.coolingDown cooldownAt row = true → cfg.coolingDown later row = true))
    (h : store.NeedsNoFetch cfg freshAt cooldownAt normalizedKey) :
    store.NeedsNoFetch cfg later later normalizedKey := by
  rcases h with hfresh | hcooling
  · obtain ⟨row, hrow, hdecide⟩ := any_eq_true.1 hfresh
    obtain ⟨hkey, hexpires, hstatus⟩ := of_decide_eq_true hdecide
    refine Or.inl (any_eq_true.2 ⟨row, hrow, decide_eq_true ⟨hkey, ?_, hstatus⟩⟩)
    exact (hlasting row hrow hkey).1 hexpires
  · obtain ⟨row, hnewest, hcool⟩ := (Option.any_eq_true _ _).1 hcooling
    obtain ⟨hrow, hkey⟩ := mem_of_newestFetch hnewest
    exact Or.inr ((Option.any_eq_true _ _).2 ⟨row, hnewest, (hlasting row hrow hkey).2 hcool⟩)

/-- One job. -/
lemma justified_processJob (hok : Undisturbed cfg history attempt)
    (hskipped : (history.store.processJob cfg attempt.calls attempt.job).outcome = .skipped) :
    (history.store.processJob cfg attempt.calls attempt.job).store.NeedsNoFetch cfg
      attempt.returnedAt attempt.returnedAt attempt.job.normalizedKey := by
  have hcases := processes_processJob history.store cfg attempt.calls attempt.job
  revert hcases hskipped
  generalize history.store.processJob cfg attempt.calls attempt.job = result
  intro hskipped hcases
  cases hcases with
  | aborted error hwhy => cases hskipped
  | duplicate hseen =>
    rw [hok.1] at hseen
    cases hseen
  | skipped hneeds => exact needsNoFetch_later hok.2 hneeds
  | fetched url =>
    rw [FetchStore.storePage, FetchStore.finish] at hskipped
    split at hskipped <;> cases hskipped
  | failed failure => cases hskipped

/-- **Skipped jobs are justified.** In every history whose jobs find no marker of their own key, a job
that returns without fetching does so while its key has fresh content, or while its last fetch is a
failure whose cooldown has not passed. -/
theorem skips_justified (cfg : FetchConfig) (store : FetchStore) (attempts : List Attempt) (t : History)
    (hok : Guarded (next cfg) (Undisturbed cfg) (start store) attempts)
    (hrun : run (next cfg) (start store) attempts = some t) :
    ∀ returned ∈ t.returns, returned.outcome = .skipped → returned.Justified cfg := by
  refine hok.invariant
    (fun history => ∀ returned ∈ history.returns, returned.outcome = .skipped →
      returned.Justified cfg) ?_ (by simp [start]) hrun
  intro history attempt history' hinv hok hnext returned hreturned hskipped
  cases hnext
  rcases mem_append.1 hreturned with hreturned | hreturned
  · exact hinv returned hreturned hskipped
  · obtain rfl := mem_singleton.1 hreturned
    exact justified_processJob hok hskipped

/-! ### Two jobs of the reconciler -/

/-- The request of a site. -/
def siteRequest : RequestRow where
  normalizedKey := "domain:site.example"
  status := "waiting_content"
  baseUrl := none
  lastError := none
  updatedAt := 0

/-- The page fetch the reconciler sends for it. -/
def siteFetch (traceId : String) : PageFetchJob where
  normalizedKey := "domain:site.example"
  url := "https://site.example/"
  hostname := "site.example"
  candidateUrls := ["https://site.example/"]
  traceId := some traceId
  idempotencyKey := some "page:domain:site.example:https://site.example/"
  ttlSeconds := none

/-- The job at one moment, in seconds. -/
def attemptAt (job : PageFetchJob) (seconds : ℕ) : Attempt where
  job := job
  calls := fetchCallsAt (seconds * micros) none
  returnedAt := seconds * micros

/-- A second job with another key, one hour later, is skipped while the page is fresh. -/
theorem fresh_page_skipped :
    ∃ t, run (next defaultFetchConfig) (start { markers := [], contents := [] })
        [attemptAt (siteFetch "reconcile-1") 0,
          attemptAt { siteFetch "t2" with idempotencyKey := none } 3600] = some t ∧
      t.returns.map (·.outcome) = [.fetched, .skipped] ∧
      ∀ returned ∈ t.returns, returned.outcome = .skipped →
        returned.Justified defaultFetchConfig := by
  refine exists_of_run (by decide +kernel) fun t hrun _ => ?_
  exact skips_justified defaultFetchConfig _ _ t (by decide +kernel) hrun

/-- The reconciler sends the site to the fetcher twice. The second time the page has expired, and the
marker of the first job makes the fetcher skip it. -/
theorem expired_page_skipped :
    let reconciler : Reconciler := { staleMinutes := 10, batch := 100, parse := fun _ => none }
    (reconciler.reconcile false siteRequest "reconcile-1").fetchJob? = some (siteFetch "reconcile-1") ∧
      (reconciler.reconcile false siteRequest "reconcile-2").fetchJob? =
        some (siteFetch "reconcile-2") ∧
      (run (next defaultFetchConfig) (start { markers := [], contents := [] })
          [attemptAt (siteFetch "reconcile-1") 0, attemptAt (siteFetch "reconcile-2") 22000]).map
          (fun t => t.returns.map fun returned =>
            (returned.outcome, decide (returned.Justified defaultFetchConfig))) =
        some [(.fetched, true), (.skipped, false)] := by
  decide +kernel

end OpenDefender.System.FetchSkips
