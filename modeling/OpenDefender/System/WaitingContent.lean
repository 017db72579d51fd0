import OpenDefender.Lib.Pool
import OpenDefender.Worker.Handler
import OpenDefender.Worker.Reconciler

/-!
Keys that wait for content after a classification without it. A job that has classified a key by its
metadata alone marks the request of the key as waiting, and the request is to stay until the key has been
classified with content, given up on, or dealt with by an administrator.

The jobs of the workers, the cycles of their reconcilers, the adaptor and the administrators take turns, one
statement at a time. `waiting_requests_stay` says when the requests stay.

The reconciler and the adaptor do not look at the kind of a classification: `preliminary_request_lost`.
-/

namespace OpenDefender.System.WaitingContent

open Worker Lib Lib.Run List

/-! ### The system -/

/-- How a job came to its verdict, as the flags of its row keep it. -/
structure Context where
  mode : PromptContextMode
  metadataOnlyReason : Option String
  deriving DecidableEq, Repr

/-- The verdict is without content, and not because fetching has been given up. -/
def Context.Preliminary (context : Context) : Prop :=
  context.mode = .metadataOnly ∧ context.metadataOnlyReason ≠ some "fetch_failed_threshold"

instance (context : Context) : Decidable context.Preliminary :=
  inferInstanceAs (Decidable (_ ∧ _))

/-- Where a stored classification comes from. -/
inductive Origin where
  | manual
  | job (context : Context)
  deriving DecidableEq, Repr

/-- The classification is a preliminary one of a job. -/
def Origin.Preliminary : Origin → Prop
  | .manual => False
  | .job context => context.Preliminary

instance (origin : Origin) : Decidable origin.Preliminary :=
  match origin with
  | .manual => inferInstanceAs (Decidable False)
  | .job context => inferInstanceAs (Decidable context.Preliminary)

/-- A job under way, and the verdict it has stored. -/
structure RunningJob where
  job : ClassificationJobPayload
  stored : Option Context
  deriving DecidableEq, Repr

/-- A cycle of a reconciler: the requests it has still to go through, and whether the key of the first
one was classified when it looked. -/
structure Cycle where
  rows : List RequestRow
  classified : Option Bool
  deriving DecidableEq, Repr

/-- The requests, where the classifications come from, the jobs and the cycles. `owed` are the keys with a
preliminary verdict and nothing since that ends the wait for content, and `waiting` those among them that
have been marked. -/
structure Backlog where
  requests : List RequestRow
  origin : String → Option Origin
  jobs : List RunningJob
  cycles : List Cycle
  owed : List String
  waiting : List String

/-- What happens. `upsert` is `mark_pending` of a job that starts or fails, the row of `metadata_classify`
is an update, and the deletions of an administrator come with every manual action. -/
inductive Event where
  | upsert (normalizedKey status : String) (baseUrl lastError : Option String) (now : ℕ)
  | take (job : ClassificationJobPayload)
  | store (i : ℕ) (context : Context)
  | settle (i now : ℕ)
  | abandon (i : ℕ)
  | select (now : ℕ)
  | look (i : ℕ)
  | reconcile (i : ℕ) (traceId : String) (now : ℕ)
  | stop (i : ℕ)
  | adaptor (effect : Adaptor.Effect) (now : ℕ)
  | metadataClassify (normalizedKey : String) (now : ℕ)
  | adminClassify (normalizedKey : String)
  | adminForget (normalizedKey : String)
  | adminRemove (normalizedKey : String)
  | adminRemoveAll

/-- The wait of a key is over. -/
def Backlog.release (s : Backlog) (normalizedKey : String) : Backlog :=
  { s with
    owed := s.owed.filter (· ≠ normalizedKey)
    waiting := s.waiting.filter (· ≠ normalizedKey) }

/-- The classification of a key is written. -/
def Backlog.classify (s : Backlog) (normalizedKey : String) (origin : Origin) : Backlog :=
  let s := { s with origin := Function.update s.origin normalizedKey (some origin) }
  if origin.Preliminary then { s with owed := s.owed ++ [normalizedKey] }
  else s.release normalizedKey

/-- The last step of a job: its request is marked again, or cleared. -/
def Backlog.settle (s : Backlog) (job : ClassificationJobPayload) (context : Context) (now : ℕ) :
    Backlog :=
  if context.Preliminary then
    { s with
      requests := upsertRequest s.requests job.normalizedKey "waiting_content"
        (job.baseUrl.or (some job.fullUrl)) (some "metadata_only_classification") now
      waiting := if job.normalizedKey ∈ s.owed then s.waiting ++ [job.normalizedKey] else s.waiting }
  else { s with requests := deleteRequest s.requests job.normalizedKey }

/-- What the adaptor has the admin API do with the requests; the key is the one that the API applies the call to. -/
def applyEffect (rows : List RequestRow) (now : ℕ) : Adaptor.Effect → List RequestRow
  | .clearPending normalizedKey => deleteRequest rows normalizedKey
  | .upsertPending normalizedKey baseUrl =>
    upsertRequest rows normalizedKey "waiting_content" baseUrl none now
  | .publishPageFetch _ => rows
  | .publishClassification _ => rows

/-- The next state. -/
def next (reconciler : Reconciler) (s : Backlog) : Event → Option Backlog
  | .upsert normalizedKey status baseUrl lastError now =>
    some { s with
      requests := upsertRequest s.requests normalizedKey status baseUrl lastError now }
  | .take job => some { s with jobs := s.jobs ++ [{ job, stored := none }] }
  | .store i context =>
    match s.jobs[i]? with
    | some { job, stored := none } =>
      some { s.classify job.normalizedKey (.job context) with
        jobs := s.jobs.set i { job, stored := some context } }
    | _ => none
  | .settle i now =>
    match s.jobs[i]? with
    | some { job, stored := some context } =>
      some { s.settle job context now with jobs := s.jobs.eraseIdx i }
    | _ => none
  | .abandon i => some { s with jobs := s.jobs.eraseIdx i }
  | .select now =>
    some { s with
      cycles := s.cycles ++ [{ rows := reconciler.staleRows s.requests now, classified := none }] }
  | .look i =>
    match s.cycles[i]? with
    | some { rows := row :: rest, classified := none } =>
      some { s with
        cycles := s.cycles.set i
          { rows := row :: rest, classified := some (s.origin row.normalizedKey).isSome } }
    | _ => none
  | .reconcile i traceId now =>
    match s.cycles[i]? with
    | some { rows := row :: rest, classified := some classified } =>
      some { s with
        requests := (reconciler.reconcile classified row traceId).apply s.requests
          row.normalizedKey now
        cycles := s.cycles.set i { rows := rest, classified := none } }
    | _ => none
  | .stop i => some { s with cycles := s.cycles.eraseIdx i }
  | .adaptor effect now => some { s with requests := applyEffect s.requests now effect }
  | .metadataClassify normalizedKey now =>
    some { s with
      requests := s.requests.map fun row =>
        if row.normalizedKey = normalizedKey then
          { row with status := "queued_manual_metadata", lastError := none, updatedAt := now }
        else row }
  | .adminClassify normalizedKey => some (s.classify normalizedKey .manual)
  | .adminForget normalizedKey =>
    some { s.release normalizedKey with origin := Function.update s.origin normalizedKey none }
  | .adminRemove normalizedKey =>
    some { s.release normalizedKey with requests := deleteRequest s.requests normalizedKey }
  | .adminRemoveAll => some { s with requests := [], owed := [], waiting := [] }

/-- No job and no cycle yet, with whatever there is in the tables. -/
def start (requests : List RequestRow) (origin : String → Option Origin) : Backlog where
  requests := requests
  origin := origin
  jobs := []
  cycles := []
  owed := []
  waiting := []

/-- The classification of a key is a preliminary one. -/
def Backlog.Preliminary (s : Backlog) (normalizedKey : String) : Prop :=
  ∃ origin ∈ s.origin normalizedKey, origin.Preliminary

instance (s : Backlog) (normalizedKey : String) : Decidable (s.Preliminary normalizedKey) :=
  match h : s.origin normalizedKey with
  | none => isFalse (by simp [Backlog.Preliminary, h])
  | some origin => decidable_of_iff origin.Preliminary (by simp [Backlog.Preliminary, h])

/-- The condition. A preliminary verdict is stored only while no job of its key has stored another one
and is about to clear the request; and neither a reconciler nor the adaptor removes the request of a key
with a preliminary classification. -/
def Careful (s : Backlog) : Event → Prop
  | .store i context =>
    context.Preliminary → ∀ own ∈ s.jobs[i]?, ∀ other ∈ s.jobs, ∀ final ∈ other.stored,
      other.job.normalizedKey = own.job.normalizedKey → final.Preliminary
  | .reconcile i _ _ =>
    ∀ cycle ∈ s.cycles[i]?, cycle.classified = some true →
      ∀ row ∈ cycle.rows.head?, ¬s.Preliminary row.normalizedKey
  | .adaptor (.clearPending normalizedKey) _ => ¬s.Preliminary normalizedKey
  | _ => True

/-! ### The invariant -/

structure Inv (s : Backlog) : Prop where
  kept : ∀ key ∈ s.waiting, key ∈ requestKeys s.requests
  waiting : ∀ key ∈ s.waiting, key ∈ s.owed
  owed : ∀ key ∈ s.owed, s.Preliminary key
  /-- A job that is about to clear its request has ended the wait for its key. -/
  clearing : ∀ own ∈ s.jobs, ∀ context ∈ own.stored, ¬context.Preliminary →
    own.job.normalizedKey ∉ s.owed

variable {s s' : Backlog} {reconciler : Reconciler} {normalizedKey key : String}

/-- The requests change, and those of waiting keys stay. -/
lemma Inv.of_requests (h : Inv s) (hkept : ∀ key ∈ s.waiting, key ∈ requestKeys requests) :
    Inv { s with requests } :=
  ⟨hkept, h.waiting, h.owed, h.clearing⟩

/-- The jobs change, and none of the new ones is about to clear the request of an owed key. -/
lemma Inv.of_jobs (h : Inv s)
    (hjobs : ∀ own ∈ jobs, own ∈ s.jobs ∨ ∀ context ∈ own.stored, ¬context.Preliminary →
      own.job.normalizedKey ∉ s.owed) : Inv { s with jobs } := by
  refine ⟨h.kept, h.waiting, h.owed, fun own hown context hstored => ?_⟩
  rcases hjobs own hown with hmem | hnew
  · exact h.clearing own hmem context hstored
  · exact hnew context hstored

lemma Inv.of_cycles (h : Inv s) (cycles : List Cycle) : Inv { s with cycles } :=
  ⟨h.kept, h.waiting, h.owed, h.clearing⟩

lemma mem_release_owed : key ∈ (s.release normalizedKey).owed ↔ key ∈ s.owed ∧ key ≠ normalizedKey := by
  simp [Backlog.release]

lemma mem_release_waiting :
    key ∈ (s.release normalizedKey).waiting ↔ key ∈ s.waiting ∧ key ≠ normalizedKey := by
  simp [Backlog.release]

/-- The wait of a key is over, and its classification and its request may be anything. -/
lemma Inv.of_release (h : Inv s)
    (hkept : ∀ key ∈ s.waiting, key ≠ normalizedKey → key ∈ requestKeys requests)
    (horigin : ∀ key, key ≠ normalizedKey → origin key = s.origin key) :
    Inv { s.release normalizedKey with requests, origin } := by
  refine ⟨fun key hkey => ?_, fun key hkey => ?_, fun key hkey => ?_,
    fun own hown context hstored hfinal => ?_⟩
  · obtain ⟨hkey, hne⟩ := mem_release_waiting.1 hkey
    exact hkept key hkey hne
  · obtain ⟨hkey, hne⟩ := mem_release_waiting.1 hkey
    exact mem_release_owed.2 ⟨h.waiting key hkey, hne⟩
  · obtain ⟨hkey, hne⟩ := mem_release_owed.1 hkey
    obtain ⟨stored, hstored, hpreliminary⟩ := h.owed key hkey
    exact ⟨stored, (horigin key hne).trans hstored, hpreliminary⟩
  · intro hmem
    exact h.clearing own hown context hstored hfinal (mem_release_owed.1 hmem).1

/-- A preliminary classification. -/
lemma Inv.classify_preliminary (h : Inv s) (hpreliminary : origin.Preliminary)
    (hclearing : ∀ own ∈ s.jobs, ∀ context ∈ own.stored, ¬context.Preliminary →
      own.job.normalizedKey ≠ normalizedKey) : Inv (s.classify normalizedKey origin) := by
  rw [Backlog.classify, if_pos hpreliminary]
  refine ⟨h.kept, fun key hkey => ?_, fun key hkey => ?_, fun own hown context hstored hfinal => ?_⟩
  · exact mem_append_left _ (h.waiting key hkey)
  · by_cases heq : key = normalizedKey
    · exact ⟨origin, by simp [heq], hpreliminary⟩
    · have hmem : key ∈ s.owed := by simpa [heq] using hkey
      obtain ⟨stored, hstored, hstill⟩ := h.owed key hmem
      exact ⟨stored, by simpa [Function.update_of_ne heq] using hstored, hstill⟩
  · intro hmem
    rcases mem_append.1 hmem with hmem | hmem
    · exact h.clearing own hown context hstored hfinal hmem
    · exact hclearing own hown context hstored hfinal (mem_singleton.1 hmem)

/-- A classification that ends the wait. -/
lemma Inv.classify_final (h : Inv s) (hfinal : ¬origin.Preliminary) :
    Inv (s.classify normalizedKey origin) := by
  rw [Backlog.classify, if_neg hfinal]
  exact h.of_release (fun key hkey _ => h.kept key hkey) fun key hne => Function.update_of_ne hne _ _

lemma owed_classify_final (origin : Origin) (hfinal : ¬origin.Preliminary) :
    normalizedKey ∉ (s.classify normalizedKey origin).owed := by
  rw [Backlog.classify, if_neg hfinal]
  exact fun hmem => (mem_release_owed.1 hmem).2 rfl

lemma jobs_classify (s : Backlog) (normalizedKey : String) (origin : Origin) :
    (s.classify normalizedKey origin).jobs = s.jobs := by
  rw [Backlog.classify]
  split_ifs <;> rfl

/-! ### Steps -/

/-- A job stores its verdict. -/
lemma inv_store (h : Inv s) (hok : Careful s (.store i context))
    (hnext : next reconciler s (.store i context) = some s') : Inv s' := by
  rw [next] at hnext
  split at hnext
  · rename_i job hi
    cases hnext
    have hinv : Inv (s.classify job.normalizedKey (.job context)) := by
      by_cases hpreliminary : context.Preliminary
      · refine h.classify_preliminary hpreliminary fun own hown final hstored hfinal heq => ?_
        exact hfinal (hok hpreliminary _ hi own hown final hstored heq)
      · exact h.classify_final hpreliminary
    refine hinv.of_jobs ?_
    rw [jobs_classify]
    refine Pool.mem_set_or ?_
    rintro _ ⟨⟩ hfinal
    exact owed_classify_final (.job context) hfinal
  · cases hnext

/-- A job marks its request again, or clears it. -/
lemma inv_settle (h : Inv s) (hnext : next reconciler s (.settle i now) = some s') : Inv s' := by
  rw [next] at hnext
  split at hnext
  · rename_i job context hi
    cases hnext
    have hown := mem_of_getElem? hi
    have hinv : Inv (s.settle job context now) := by
      rw [Backlog.settle]
      split_ifs with hpreliminary howed
      · refine ⟨fun key hkey => ?_, fun key hkey => ?_, h.owed, h.clearing⟩
        · rw [mem_requestKeys_upsertRequest]
          exact (mem_append.1 hkey).imp (h.kept key) mem_singleton.1
        · rcases mem_append.1 hkey with hkey | hkey
          · exact h.waiting key hkey
          · exact mem_singleton.1 hkey ▸ howed
      · refine h.of_requests fun key hkey => ?_
        rw [mem_requestKeys_upsertRequest]
        exact Or.inl (h.kept key hkey)
      · refine h.of_requests fun key hkey => ?_
        rw [mem_requestKeys_deleteRequest]
        refine ⟨h.kept key hkey, fun heq => ?_⟩
        exact h.clearing _ hown context rfl hpreliminary (heq ▸ h.waiting key hkey)
    have hjobs : (s.settle job context now).jobs = s.jobs := by
      rw [Backlog.settle]
      split_ifs <;> rfl
    refine hinv.of_jobs fun own hown => Or.inl ?_
    rw [hjobs]
    exact mem_of_mem_eraseIdx hown
  · cases hnext

/-- The request of a key that is not waiting goes away. -/
lemma Inv.of_delete (h : Inv s) (hkey : ¬s.Preliminary normalizedKey) :
    Inv { s with requests := deleteRequest s.requests normalizedKey } := by
  refine h.of_requests fun key hwaiting => ?_
  rw [mem_requestKeys_deleteRequest]
  refine ⟨h.kept key hwaiting, fun heq => hkey ?_⟩
  exact heq ▸ h.owed key (h.waiting key hwaiting)

/-- A reconciler deals with a request. -/
lemma inv_reconcile (h : Inv s) (hok : Careful s (.reconcile i traceId now))
    (hnext : next reconciler s (.reconcile i traceId now) = some s') : Inv s' := by
  rw [next] at hnext
  split at hnext
  · rename_i row rest classified hi
    cases hnext
    refine Inv.of_cycles (h.of_requests fun key hkey => ?_) _
    refine mem_requestKeys_apply s.requests row.normalizedKey now (h.kept key hkey)
      fun hclear heq => ?_
    have hclassified := classified_of_clear hclear
    refine hok _ hi (congrArg some hclassified) row rfl ?_
    exact heq ▸ h.owed key (h.waiting key hkey)
  · cases hnext

/-- The adaptor has the requests changed. -/
lemma inv_adaptor (h : Inv s) (hok : Careful s (.adaptor effect now)) :
    Inv { s with requests := applyEffect s.requests now effect } := by
  cases effect with
  | clearPending normalizedKey => exact h.of_delete hok
  | upsertPending normalizedKey baseUrl =>
    refine h.of_requests fun key hkey => ?_
    rw [applyEffect, mem_requestKeys_upsertRequest]
    exact Or.inl (h.kept key hkey)
  | publishPageFetch job => exact h
  | publishClassification job => exact h

lemma inv_next (h : Inv s) (hok : Careful s event) (hnext : next reconciler s event = some s') :
    Inv s' := by
  cases event with
  | upsert normalizedKey status baseUrl lastError now =>
    cases hnext
    refine h.of_requests fun key hkey => ?_
    rw [mem_requestKeys_upsertRequest]
    exact Or.inl (h.kept key hkey)
  | take job =>
    cases hnext
    exact h.of_jobs (Pool.mem_concat_or fun _ hstored => nomatch hstored)
  | store i context => exact inv_store h hok hnext
  | settle i now => exact inv_settle h hnext
  | abandon i =>
    cases hnext
    exact h.of_jobs fun own hown => Or.inl (mem_of_mem_eraseIdx hown)
  | select now =>
    cases hnext
    exact h.of_cycles _
  | look i =>
    rw [next] at hnext
    split at hnext
    · cases hnext
      exact h.of_cycles _
    · cases hnext
  | reconcile i traceId now => exact inv_reconcile h hok hnext
  | stop i =>
    cases hnext
    exact h.of_cycles _
  | adaptor effect now =>
    cases hnext
    exact inv_adaptor h hok
  | metadataClassify normalizedKey now =>
    cases hnext
    refine h.of_requests fun key hkey => ?_
    rw [requestKeys_update]
    · exact h.kept key hkey
    · exact fun _ => rfl
  | adminClassify normalizedKey =>
    cases hnext
    exact h.classify_final not_false
  | adminForget normalizedKey =>
    cases hnext
    exact h.of_release (fun key hkey _ => h.kept key hkey)
      fun key hne => Function.update_of_ne hne _ _
  | adminRemove normalizedKey =>
    cases hnext
    refine h.of_release (fun key hkey hne => ?_) fun _ _ => rfl
    exact (mem_requestKeys_deleteRequest s.requests normalizedKey key).2 ⟨h.kept key hkey, hne⟩
  | adminRemoveAll =>
    cases hnext
    exact ⟨by simp, by simp, by simp, by simp⟩

/-- **Waiting requests stay.** In every run of jobs, reconcilers, adaptor and administrators that keeps to
the condition, a key that has been marked as waiting after a preliminary classification has its request
until a later classification with content, or one for which fetching has been given up, or a manual
action. -/
theorem waiting_requests_stay (reconciler : Reconciler) (requests : List RequestRow)
    (origin : String → Option Origin) (events : List Event) (t : Backlog)
    (hok : Guarded (next reconciler) Careful (start requests origin) events)
    (hrun : run (next reconciler) (start requests origin) events = some t) :
    ∀ key ∈ t.waiting, key ∈ requestKeys t.requests := by
  have hstart : Inv (start requests origin) := by
    constructor <;> simp [start]
  exact (hok.invariant Inv (fun _ _ _ => inv_next) hstart hrun).kept

/-! ### A site that waits for its page -/

/-- A job for a site. -/
def siteJob : ClassificationJobPayload where
  normalizedKey := "domain:site.example"
  entityLevel := "domain"
  hostname := "site.example"
  fullUrl := "https://site.example/"
  traceId := "t1"
  requiresContent := true

/-- A reconciler with its defaults. -/
def defaultReconciler : Reconciler := { staleMinutes := 10, batch := 100, parse := fun _ => none }

/-- The page is not there yet, and the job classifies the site by its metadata. -/
def classifiedByMetadata : List Event :=
  [.upsert "domain:site.example" "waiting_content" (some "https://site.example/") none 0,
    .take siteJob,
    .store 0 { mode := .metadataOnly, metadataOnlyReason := some "mode_forced" },
    .settle 0 0]

instance (s : Backlog) (event : Event) : Decidable (Careful s event) := by
  unfold Careful
  split <;> infer_instance

/-- The site waits while the adaptor asks for it again. -/
theorem site_waits :
    ∃ t, run (next defaultReconciler) (start [] fun _ => none)
        (classifiedByMetadata ++
          [.adaptor (.upsertPending "domain:site.example" (some "https://site.example/")) 1000000,
            .select 2000000]) = some t ∧
      t.waiting = ["domain:site.example"] ∧ ∀ key ∈ t.waiting, key ∈ requestKeys t.requests := by
  refine exists_of_run (by decide +kernel) fun t hrun _ => ?_
  exact waiting_requests_stay defaultReconciler [] _ _ t (by decide +kernel) hrun

/-- Ten minutes later the reconciler removes the request, since the site has been classified. So does the
adaptor on its next cache hit. -/
theorem preliminary_request_lost :
    (run (next defaultReconciler) (start [] fun _ => none)
        (classifiedByMetadata ++
          [.select 600000000, .look 0, .reconcile 0 "reconcile-1" 600000000])).map
        (fun t => (t.waiting, requestKeys t.requests)) = some (["domain:site.example"], []) ∧
    (run (next defaultReconciler) (start [] fun _ => none)
        (classifiedByMetadata ++ [.adaptor (.clearPending "domain:site.example") 1000000])).map
        (fun t => (t.waiting, requestKeys t.requests)) = some (["domain:site.example"], []) := by
  decide +kernel

end OpenDefender.System.WaitingContent
