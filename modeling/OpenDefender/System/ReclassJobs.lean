import OpenDefender.Lib.Pool
import OpenDefender.Reclass.Batches

/-!
Planners and dispatchers of reclassification jobs at the same time, in transactions at READ COMMITTED: a
statement sees what has been committed and what its own transaction has written; `FOR UPDATE SKIP LOCKED`
takes rows one by one, each only if it meets the condition and no other transaction has it; the locks go
with the end of the transaction, which is a commit or a rollback.

`one_active_job`: no key ever has two jobs that are pending or running. No constraint of the table says so.
The lock on the classification keeps a second planner away while a job of its key is inserted and not
committed, and a dispatcher sets a job back to pending only while it is its own. `job_kept`: no job is lost.
-/

namespace OpenDefender.System.ReclassJobs

open Reclass Lib Lib.Run List

/-! ### Transactions -/

/-- The transaction of a planner: the classifications it has locked, whether it has seen the last of them,
those it has still to go through, and what it has written. -/
structure Planner where
  locked : List RefreshRow
  selected : Bool
  todo : List RefreshRow
  refreshed : List (ℕ × ℕ)
  inserted : List ReclassJob

/-- A dispatcher: in its transaction it locks jobs, and once that is committed they are its own. -/
structure Dispatcher where
  ids : List ℕ
  committed : Bool

/-- The tables as they are committed, and the planners and dispatchers. -/
structure Reclassification where
  classifications : RefreshTable
  jobs : List ReclassJob
  planners : List Planner
  dispatchers : List Dispatcher

/-- The sizes of the batches, and the parser of URLs. -/
structure Settings where
  planBatch : ℕ
  dispatchBatch : ℕ
  parse : String → Option Worker.ParsedUrl

/-- What happens. -/
inductive Event where
  | elsewhere (table : RefreshTable)
  | beginPlan
  | lockRow (i : ℕ) (row : RefreshRow) (now : ℕ)
  | selected (i : ℕ)
  | plan (i id now : ℕ)
  | commitPlan (i : ℕ)
  | rollbackPlan (i : ℕ)
  | beginDispatch
  | lockJob (i : ℕ) (job : ReclassJob)
  | commitDispatch (i : ℕ)
  | rollbackDispatch (i : ℕ)
  | settle (i : ℕ) (published : Bool)
  | leave (i : ℕ)

/-- The ids of the classifications that are locked. -/
def Reclassification.lockedRows (s : Reclassification) : List ℕ :=
  s.planners.flatMap fun planner => planner.locked.map (·.id)

/-- The ids of the jobs that are locked. -/
def Reclassification.lockedJobs (s : Reclassification) : List ℕ :=
  (s.dispatchers.filter (!·.committed)).flatMap (·.ids)

/-- The ids that have been given to jobs. -/
def Reclassification.usedIds (s : Reclassification) : List ℕ :=
  s.jobs.map (·.id) ++ s.planners.flatMap fun planner => planner.inserted.map (·.id)

/-- The next classification of a planner: its refresh is put off, and there is a job for it unless the
transaction sees an active one. -/
def Planner.plan (planner : Planner) (row : RefreshRow) (rest : List RefreshRow)
    (jobs : List ReclassJob) (id now : ℕ) : Planner :=
  { planner with
    todo := rest
    refreshed := planner.refreshed ++ [(row.id, row.refreshAt now)]
    inserted := planner.inserted ++
      (insertJob (jobs ++ planner.inserted) id row.normalizedKey now).toList }

/-- The next state. A new job has an id that no other has. -/
def next (settings : Settings) (s : Reclassification) : Event → Option Reclassification
  | .elsewhere table =>
    if ∀ planner ∈ s.planners, ∀ row ∈ planner.locked, row ∈ table.rows then
      some { s with classifications := table }
    else none
  | .beginPlan =>
    some { s with
      planners := s.planners ++
        [{ locked := [], selected := false, todo := [], refreshed := [], inserted := [] }] }
  | .lockRow i row now =>
    match s.planners[i]? with
    | none => none
    | some planner =>
      if planner.selected = false ∧ planner.locked.length < settings.planBatch ∧
          row ∈ s.classifications.rows ∧ row.due now = true ∧ row.id ∉ s.lockedRows then
        some { s with
          planners := s.planners.set i
            { planner with locked := planner.locked ++ [row], todo := planner.todo ++ [row] } }
      else none
  | .selected i =>
    match s.planners[i]? with
    | none => none
    | some planner => some { s with planners := s.planners.set i { planner with selected := true } }
  | .plan i id now =>
    match s.planners[i]? with
    | none => none
    | some planner =>
      match planner.todo with
      | [] => none
      | row :: rest =>
        if planner.selected = true ∧ id ∉ s.usedIds then
          some { s with planners := s.planners.set i (planner.plan row rest s.jobs id now) }
        else none
  | .commitPlan i =>
    match s.planners[i]? with
    | none => none
    | some planner =>
      if planner.selected = true ∧ planner.todo = [] then
        some { s with
          classifications := s.classifications.refresh planner.refreshed
          jobs := s.jobs ++ planner.inserted
          planners := s.planners.eraseIdx i }
      else none
  | .rollbackPlan i => some { s with planners := s.planners.eraseIdx i }
  | .beginDispatch =>
    some { s with dispatchers := s.dispatchers ++ [{ ids := [], committed := false }] }
  | .lockJob i job =>
    match s.dispatchers[i]? with
    | none => none
    | some dispatcher =>
      if dispatcher.committed = false ∧ dispatcher.ids.length < settings.dispatchBatch ∧
          job ∈ s.jobs ∧ job.status = .pending ∧ job.id ∉ s.lockedJobs then
        some { s with
          dispatchers := s.dispatchers.set i { dispatcher with ids := dispatcher.ids ++ [job.id] } }
      else none
  | .commitDispatch i =>
    match s.dispatchers[i]? with
    | none => none
    | some dispatcher =>
      if dispatcher.committed = false then
        some { s with
          jobs := setStatus s.jobs dispatcher.ids .running
          dispatchers := s.dispatchers.set i { dispatcher with committed := true } }
      else none
  | .rollbackDispatch i =>
    match s.dispatchers[i]? with
    | none => none
    | some dispatcher =>
      if dispatcher.committed = false then
        some { s with dispatchers := s.dispatchers.eraseIdx i }
      else none
  | .settle i published =>
    match s.dispatchers[i]? with
    | none => none
    | some dispatcher =>
      match dispatcher.ids, dispatcher.committed with
      | id :: rest, true =>
        match s.jobs.find? (·.id = id) with
        | none => none
        | some job =>
          some { s with
            jobs := setStatus s.jobs [id]
              (settledStatus (buildTarget settings.parse job.normalizedKey) published)
            dispatchers := s.dispatchers.set i { dispatcher with ids := rest } }
      | _, _ => none
  | .leave i => some { s with dispatchers := s.dispatchers.eraseIdx i }

/-- Nobody is at work. -/
def start (classifications : RefreshTable) (jobs : List ReclassJob) : Reclassification where
  classifications := classifications
  jobs := jobs
  planners := []
  dispatchers := []

/-! ### The invariant -/

/-- A planner, over the tables as they are committed. -/
structure Planner.Sound (table : RefreshTable) (jobs : List ReclassJob) (planner : Planner) : Prop where
  present : ∀ row ∈ planner.locked, row ∈ table.rows
  todo : ∀ row ∈ planner.todo, row ∈ planner.locked
  refreshed : ∀ entry ∈ planner.refreshed, ∃ row ∈ planner.locked, row.id = entry.1
  /-- It has a lock for each of its jobs. -/
  inserted : ∀ job ∈ planner.inserted, ∃ row ∈ planner.locked, row.normalizedKey = job.normalizedKey
  view : (activeKeys (jobs ++ planner.inserted)).Nodup
  ids : Table.Unique (·.id) (jobs ++ planner.inserted)

/-- Two planners have different locks and have made different jobs. -/
def PlannersApart (p q : Planner) : Prop :=
  (∀ row ∈ p.locked, ∀ row' ∈ q.locked, row.id ≠ row'.id) ∧
    ∀ job ∈ p.inserted, ∀ job' ∈ q.inserted, job.id ≠ job'.id

lemma PlannersApart.symm (p q : Planner) (h : PlannersApart p q) : PlannersApart q p :=
  ⟨fun row hrow row' hrow' => (h.1 row' hrow' row hrow).symm,
    fun job hjob job' hjob' => (h.2 job' hjob' job hjob).symm⟩

/-- The status of the jobs a dispatcher has. -/
def Dispatcher.status (dispatcher : Dispatcher) : JobStatus :=
  if dispatcher.committed then .running else .pending

structure Dispatcher.Sound (jobs : List ReclassJob) (dispatcher : Dispatcher) : Prop where
  nodup : dispatcher.ids.Nodup
  held : ∀ id ∈ dispatcher.ids, ∃ job ∈ jobs, job.id = id ∧ job.status = dispatcher.status

/-- No job is with two dispatchers. -/
def DispatchersApart (d e : Dispatcher) : Prop := ∀ id ∈ d.ids, id ∉ e.ids

lemma DispatchersApart.symm (d e : Dispatcher) (h : DispatchersApart d e) : DispatchersApart e d :=
  fun id he hd => h id hd he

structure Inv (s : Reclassification) : Prop where
  ids : Table.Unique (·.id) s.jobs
  active : (activeKeys s.jobs).Nodup
  planners : ∀ planner ∈ s.planners, planner.Sound s.classifications s.jobs
  plannersApart : s.planners.Pairwise PlannersApart
  dispatchers : ∀ dispatcher ∈ s.dispatchers, dispatcher.Sound s.jobs
  dispatchersApart : s.dispatchers.Pairwise DispatchersApart

variable {settings : Settings} {s s' : Reclassification} {i : ℕ} {planner : Planner}
  {dispatcher : Dispatcher} {jobs jobs' : List ReclassJob} {table : RefreshTable}

/-! ### Planners -/

/-- The planners change, and the new ones are sound and apart. -/
lemma Inv.of_planners (h : Inv s) {planners : List Planner}
    (hsound : ∀ planner ∈ planners, planner.Sound s.classifications s.jobs)
    (hapart : planners.Pairwise PlannersApart) : Inv { s with planners } :=
  ⟨h.ids, h.active, hsound, hapart, h.dispatchers, h.dispatchersApart⟩

/-- A planner goes on. -/
lemma Inv.set_planner (h : Inv s) {planner' : Planner}
    (hsound : planner'.Sound s.classifications s.jobs)
    (hapart : ∀ other ∈ s.planners.eraseIdx i, PlannersApart planner' other) :
    Inv { s with planners := s.planners.set i planner' } := by
  refine h.of_planners (Pool.forall_set hsound (Pool.forall_eraseIdx h.planners)) ?_
  exact Pool.pairwise_set PlannersApart.symm h.plannersApart hapart

lemma Inv.erase_planner (h : Inv s) : Inv { s with planners := s.planners.eraseIdx i } :=
  h.of_planners (Pool.forall_eraseIdx h.planners) (h.plannersApart.sublist (eraseIdx_sublist _ _))

variable {row : RefreshRow}

/-- Another lock. -/
lemma Inv.lockRow (h : Inv s) (hi : s.planners[i]? = some planner) (hrow : row ∈ s.classifications.rows)
    (hfree : row.id ∉ s.lockedRows) :
    Inv { s with
      planners := s.planners.set i
        { planner with locked := planner.locked ++ [row], todo := planner.todo ++ [row] } } := by
  have hmem := mem_of_getElem? hi
  have hsound := h.planners planner hmem
  refine h.set_planner ⟨Pool.forall_concat hrow hsound.present, ?_, ?_, ?_, hsound.view, hsound.ids⟩
    fun other hother => ?_
  · refine Pool.forall_concat (mem_append_right _ (mem_singleton_self _)) fun row' hrow' => ?_
    exact mem_append_left _ (hsound.todo row' hrow')
  · intro entry hentry
    obtain ⟨row', hrow', hid⟩ := hsound.refreshed entry hentry
    exact ⟨row', mem_append_left _ hrow', hid⟩
  · intro job hjob
    obtain ⟨row', hrow', hkey⟩ := hsound.inserted job hjob
    exact ⟨row', mem_append_left _ hrow', hkey⟩
  · have hapart := Pool.rel_of_mem_eraseIdx PlannersApart.symm h.plannersApart hi hother
    refine ⟨Pool.forall_concat (fun row' hrow' heq => hfree ?_) hapart.1, hapart.2⟩
    -- the lock of the other planner on a row with this id
    rw [heq]
    exact mem_flatMap.2 ⟨other, mem_of_mem_eraseIdx hother, mem_map_of_mem hrow'⟩

variable {rest : List RefreshRow}

/-- A classification is planned: a new job has a key of its own and an id of its own. -/
lemma Planner.Sound.plan {id now : ℕ} (h : planner.Sound table jobs) (htodo : planner.todo = row :: rest)
    (hid : id ∉ (jobs ++ planner.inserted).map (·.id)) :
    (planner.plan row rest jobs id now).Sound table jobs := by
  have hlocked : ∀ row' ∈ row :: rest, row' ∈ planner.locked := by
    rw [← htodo]
    exact h.todo
  obtain ⟨hrow, hrest⟩ := forall_mem_cons.1 hlocked
  have hrefreshed : ∀ entry ∈ planner.refreshed ++ [(row.id, row.refreshAt now)],
      ∃ row ∈ planner.locked, row.id = entry.1 := Pool.forall_concat ⟨row, hrow, rfl⟩ h.refreshed
  cases hinsert : insertJob (jobs ++ planner.inserted) id row.normalizedKey now with
  | none =>
    rw [Planner.plan, hinsert, Option.toList_none, append_nil]
    exact ⟨h.present, hrest, hrefreshed, h.inserted, h.view, h.ids⟩
  | some job =>
    obtain ⟨hkey, hjobId, hjobKey, hstatus⟩ := insertJob_eq_some hinsert
    rw [Planner.plan, hinsert, Option.toList_some]
    refine ⟨h.present, hrest, hrefreshed, ?_, ?_, ?_⟩
    · exact Pool.forall_concat ⟨row, hrow, hjobKey.symm⟩ h.inserted
    · rw [← append_assoc, activeKeys_append]
      refine h.view.append ?_ ?_
      · simp [activeKeys, hstatus, JobStatus.isActive]
      · simpa [activeKeys, hstatus, JobStatus.isActive, hjobKey] using hkey
    · rw [← append_assoc]
      exact h.ids.concat (by rwa [hjobId])

/-- The jobs of a planner after its next classification. -/
lemma mem_inserted_plan {id now : ℕ} (h : job ∈ (planner.plan row rest jobs id now).inserted) :
    job ∈ planner.inserted ∨ job.id = id := by
  rcases mem_append.1 h with h | h
  · exact Or.inl h
  · exact Or.inr (insertJob_eq_some (Option.mem_toList.1 h)).2.1

lemma Inv.plan (h : Inv s) {id now : ℕ} (hi : s.planners[i]? = some planner)
    (htodo : planner.todo = row :: rest) (hid : id ∉ s.usedIds) :
    Inv { s with planners := s.planners.set i (planner.plan row rest s.jobs id now) } := by
  have hmem := mem_of_getElem? hi
  have hused : ∀ other ∈ s.planners, ∀ job ∈ other.inserted, job.id ≠ id := by
    rintro other hother job hjob rfl
    refine hid (mem_append_right _ ?_)
    exact mem_flatMap.2 ⟨other, hother, mem_map_of_mem hjob⟩
  refine h.set_planner ((h.planners planner hmem).plan htodo fun hold => ?_) fun other hother => ?_
  · rw [map_append, mem_append] at hold
    rcases hold with hold | hold
    · exact hid (mem_append_left _ hold)
    · obtain ⟨job, hjob, hjobId⟩ := mem_map.1 hold
      exact hused planner hmem job hjob hjobId
  · have hapart := Pool.rel_of_mem_eraseIdx PlannersApart.symm h.plannersApart hi hother
    refine ⟨hapart.1, fun job hjob job' hjob' => ?_⟩
    rcases mem_inserted_plan hjob with hold | hnew
    · exact hapart.2 job hold job' hjob'
    · rw [hnew]
      exact (hused other (mem_of_mem_eraseIdx hother) job' hjob').symm

/-- Two planners that have locked different rows have jobs of different keys. -/
lemma keys_apart (hp : p.Sound table jobs) (hq : q.Sound table jobs) (hapart : PlannersApart p q) :
    ∀ job ∈ p.inserted, ∀ job' ∈ q.inserted, job.normalizedKey ≠ job'.normalizedKey := by
  intro job hjob job' hjob' heq
  obtain ⟨row, hrow, hkey⟩ := hp.inserted job hjob
  obtain ⟨row', hrow', hkey'⟩ := hq.inserted job' hjob'
  have hsame : row = row' :=
    table.unique_key.eq (hp.present row hrow) (hq.present row' hrow') (by rw [hkey, hkey', heq])
  exact hapart.1 row hrow row' hrow' (congrArg RefreshRow.id hsame)

/-- A planner that goes on while another one commits. -/
lemma Planner.Sound.of_commit (hp : p.Sound table jobs) (hq : q.Sound table jobs)
    (hapart : PlannersApart p q) : q.Sound (table.refresh p.refreshed) (jobs ++ p.inserted) := by
  refine ⟨fun row hrow => ?_, hq.todo, hq.refreshed, hq.inserted, ?_, ?_⟩
  · refine mem_map.2 ⟨row, hq.present row hrow, refresh_of_not_mem fun entry hentry heq => ?_⟩
    obtain ⟨own, hown, hid⟩ := hp.refreshed entry hentry
    exact hapart.1 own hown row hrow (hid.trans heq)
  · rw [activeKeys_append, nodup_append]
    have hview := hq.view
    rw [activeKeys_append, nodup_append] at hview
    refine ⟨hp.view, hview.2.1, fun key hkey key' hkey' heq => ?_⟩
    rw [activeKeys_append, mem_append] at hkey
    rcases hkey with hkey | hkey
    · exact hview.2.2 key hkey key' hkey' heq
    · obtain ⟨job, hjob, -, rfl⟩ := mem_activeKeys.1 hkey
      obtain ⟨job', hjob', -, rfl⟩ := mem_activeKeys.1 hkey'
      exact keys_apart hp hq hapart job hjob job' hjob' heq
  · have hids := hq.ids
    rw [Table.Unique, map_append, nodup_append] at hids ⊢
    refine ⟨hp.ids, hids.2.1, fun id hid id' hid' heq => ?_⟩
    rw [map_append, mem_append] at hid
    rcases hid with hid | hid
    · exact hids.2.2 id hid id' hid' heq
    · obtain ⟨job, hjob, rfl⟩ := mem_map.1 hid
      obtain ⟨job', hjob', rfl⟩ := mem_map.1 hid'
      exact hapart.2 job hjob job' hjob' heq

/-- A planner commits. -/
lemma Inv.commitPlan (h : Inv s) (hi : s.planners[i]? = some planner) :
    Inv { s with
      classifications := s.classifications.refresh planner.refreshed
      jobs := s.jobs ++ planner.inserted
      planners := s.planners.eraseIdx i } := by
  have hsound := h.planners planner (mem_of_getElem? hi)
  refine ⟨hsound.ids, hsound.view, fun other hother => ?_, ?_, fun dispatcher hdispatcher => ?_,
    h.dispatchersApart⟩
  · exact hsound.of_commit (h.planners other (mem_of_mem_eraseIdx hother))
      (Pool.rel_of_mem_eraseIdx PlannersApart.symm h.plannersApart hi hother)
  · exact h.plannersApart.sublist (eraseIdx_sublist _ _)
  · obtain ⟨hnodup, hheld⟩ := h.dispatchers dispatcher hdispatcher
    refine ⟨hnodup, fun id hid => ?_⟩
    obtain ⟨job, hjob, hstatus⟩ := hheld id hid
    exact ⟨job, mem_append_left _ hjob, hstatus⟩

/-! ### Dispatchers -/

/-- The status of a job that a dispatcher has. -/
lemma Dispatcher.Sound.status_eq (h : dispatcher.Sound jobs) (hids : Table.Unique (·.id) jobs)
    (hjob : job ∈ jobs) (hid : job.id ∈ dispatcher.ids) : job.status = dispatcher.status := by
  obtain ⟨held, hheld, hsame, hstatus⟩ := h.held job.id hid
  rw [← hids.eq hheld hjob hsame]
  exact hstatus

/-- What a dispatcher has is active. -/
lemma isActive_status (dispatcher : Dispatcher) : dispatcher.status.isActive = true := by
  rw [Dispatcher.status]
  split_ifs <;> rfl

/-- A planner that goes on while the jobs change and none becomes active. -/
lemma Planner.Sound.of_jobs (h : planner.Sound table jobs)
    (hactive : (activeKeys jobs').Sublist (activeKeys jobs))
    (hids : jobs'.map (·.id) = jobs.map (·.id)) : planner.Sound table jobs' := by
  refine ⟨h.present, h.todo, h.refreshed, h.inserted, ?_, ?_⟩
  · have hview := h.view
    rw [activeKeys_append] at hview ⊢
    exact hview.sublist (hactive.append_right _)
  · have hunique := h.ids
    rw [Table.Unique, map_append] at hunique ⊢
    rwa [hids]

/-- A dispatcher sets the status of jobs it has, and goes on with another list of them. -/
lemma Inv.set_status (h : Inv s) {ids : List ℕ} (hi : s.dispatchers[i]? = some dispatcher)
    (hids : ∀ id ∈ ids, id ∈ dispatcher.ids) (hkept : ∀ id ∈ dispatcher'.ids, id ∈ dispatcher.ids)
    (hsound : dispatcher'.Sound (setStatus s.jobs ids status)) :
    Inv { s with
      jobs := setStatus s.jobs ids status
      dispatchers := s.dispatchers.set i dispatcher' } := by
  have hown := h.dispatchers dispatcher (mem_of_getElem? hi)
  have hactive := activeKeys_setStatus_sublist status fun job hjob hid => by
    rw [hown.status_eq h.ids hjob (hids job.id hid)]
    exact isActive_status dispatcher
  have hsameIds := ids_setStatus s.jobs ids status
  have hapart : ∀ other ∈ s.dispatchers.eraseIdx i, DispatchersApart dispatcher other := fun _ hother =>
    Pool.rel_of_mem_eraseIdx DispatchersApart.symm h.dispatchersApart hi hother
  refine ⟨?_, h.active.sublist hactive, fun planner hplanner => ?_, h.plannersApart, ?_, ?_⟩
  · rw [Table.Unique, hsameIds]
    exact h.ids
  · exact (h.planners planner hplanner).of_jobs hactive hsameIds
  · refine Pool.forall_set hsound fun other hother => ?_
    obtain ⟨hnodup, hheld⟩ := h.dispatchers other (mem_of_mem_eraseIdx hother)
    refine ⟨hnodup, fun id hid => ?_⟩
    obtain ⟨job, hjob, rfl, hstatus⟩ := hheld id hid
    refine ⟨job, mem_setStatus_of_not_mem status hjob fun hchanged => ?_, rfl, hstatus⟩
    exact hapart other hother job.id (hids job.id hchanged) hid
  · refine Pool.pairwise_set DispatchersApart.symm h.dispatchersApart fun other hother id hid => ?_
    exact hapart other hother id (hkept id hid)

/-- Another job is locked. -/
lemma Inv.lockJob (h : Inv s) (hi : s.dispatchers[i]? = some dispatcher)
    (hopen : dispatcher.committed = false) (hjob : job ∈ s.jobs) (hpending : job.status = .pending)
    (hfree : job.id ∉ s.lockedJobs) :
    Inv { s with
      dispatchers := s.dispatchers.set i { dispatcher with ids := dispatcher.ids ++ [job.id] } } := by
  have hmem := mem_of_getElem? hi
  have hown := h.dispatchers dispatcher hmem
  -- a dispatcher that has the job is in its transaction, or the job would be running
  have hnobody : ∀ other ∈ s.dispatchers, job.id ∉ other.ids := by
    intro other hother hid
    have hstatus := (h.dispatchers other hother).status_eq h.ids hjob hid
    rw [hpending, Dispatcher.status] at hstatus
    split_ifs at hstatus with hcommitted
    refine hfree (mem_flatMap.2 ⟨other, mem_filter.2 ⟨hother, ?_⟩, hid⟩)
    simpa using hcommitted
  refine ⟨h.ids, h.active, h.planners, h.plannersApart, ?_, ?_⟩
  · refine Pool.forall_set ⟨?_, Pool.forall_concat ⟨job, hjob, rfl, ?_⟩ hown.held⟩
      (Pool.forall_eraseIdx h.dispatchers)
    · exact hown.nodup.append (nodup_singleton _) (by simpa using hnobody dispatcher hmem)
    · rw [hpending, Dispatcher.status, hopen]
      rfl
  · refine Pool.pairwise_set DispatchersApart.symm h.dispatchersApart fun other hother => ?_
    have hapart := Pool.rel_of_mem_eraseIdx DispatchersApart.symm h.dispatchersApart hi hother
    exact Pool.forall_concat (hnobody other (mem_of_mem_eraseIdx hother)) hapart

/-- The transaction of a dispatcher is committed. -/
lemma Inv.commitDispatch (h : Inv s) (hi : s.dispatchers[i]? = some dispatcher) :
    Inv { s with
      jobs := setStatus s.jobs dispatcher.ids .running
      dispatchers := s.dispatchers.set i { dispatcher with committed := true } } := by
  have hown := h.dispatchers dispatcher (mem_of_getElem? hi)
  refine h.set_status hi (fun _ hid => hid) (fun _ hid => hid) ⟨hown.nodup, fun id hid => ?_⟩
  obtain ⟨job, hjob, rfl, -⟩ := hown.held id hid
  exact ⟨_, mem_setStatus_of_mem .running hjob hid, rfl, rfl⟩

/-- A dispatcher is done with the first of its jobs. -/
lemma Inv.settle (h : Inv s) {id : ℕ} {rest : List ℕ} (hi : s.dispatchers[i]? = some dispatcher)
    (hlist : dispatcher.ids = id :: rest) :
    Inv { s with
      jobs := setStatus s.jobs [id] status
      dispatchers := s.dispatchers.set i { dispatcher with ids := rest } } := by
  have hown := h.dispatchers dispatcher (mem_of_getElem? hi)
  have hnodup := hown.nodup
  rw [hlist, nodup_cons] at hnodup
  have hrest : ∀ other ∈ rest, other ∈ dispatcher.ids := fun other hother => by
    rw [hlist]
    exact mem_cons_of_mem _ hother
  refine h.set_status hi ?_ hrest ⟨hnodup.2, fun other hother => ?_⟩
  · intro changed hchanged
    rw [mem_singleton.1 hchanged, hlist]
    exact mem_cons_self
  · obtain ⟨job, hjob, rfl, hstatus⟩ := hown.held other (hrest other hother)
    refine ⟨job, mem_setStatus_of_not_mem status hjob fun heq => ?_, rfl, hstatus⟩
    exact hnodup.1 (mem_singleton.1 heq ▸ hother)

lemma Inv.erase_dispatcher (h : Inv s) : Inv { s with dispatchers := s.dispatchers.eraseIdx i } :=
  ⟨h.ids, h.active, h.planners, h.plannersApart, Pool.forall_eraseIdx h.dispatchers,
    h.dispatchersApart.sublist (eraseIdx_sublist _ _)⟩

/-! ### Runs -/

lemma inv_start (hids : Table.Unique (·.id) jobs) (hactive : (activeKeys jobs).Nodup) :
    Inv (start classifications jobs) where
  ids := hids
  active := hactive
  planners := forall_mem_nil _
  plannersApart := List.Pairwise.nil
  dispatchers := forall_mem_nil _
  dispatchersApart := List.Pairwise.nil

/-- The classifications change elsewhere, except those that are locked. -/
lemma Inv.elsewhere (h : Inv s)
    (hlocked : ∀ planner ∈ s.planners, ∀ row ∈ planner.locked, row ∈ table.rows) :
    Inv { s with classifications := table } := by
  refine ⟨h.ids, h.active, fun planner hplanner => ?_, h.plannersApart, h.dispatchers,
    h.dispatchersApart⟩
  have hsound := h.planners planner hplanner
  exact ⟨hlocked planner hplanner, hsound.todo, hsound.refreshed, hsound.inserted, hsound.view,
    hsound.ids⟩

lemma Inv.beginPlan (h : Inv s) :
    Inv { s with
      planners := s.planners ++
        [{ locked := [], selected := false, todo := [], refreshed := [], inserted := [] }] } := by
  refine h.of_planners (Pool.forall_concat ?_ h.planners) ?_
  · refine ⟨forall_mem_nil _, forall_mem_nil _, forall_mem_nil _, forall_mem_nil _,
      ?_, ?_⟩
    · rw [append_nil]
      exact h.active
    · rw [append_nil]
      exact h.ids
  · refine pairwise_append.2 ⟨h.plannersApart, pairwise_singleton _ _, ?_⟩
    intro other _ new hnew
    rw [mem_singleton.1 hnew]
    exact ⟨fun _ _ => forall_mem_nil _, fun _ _ => forall_mem_nil _⟩

lemma Inv.selected (h : Inv s) (hi : s.planners[i]? = some planner) :
    Inv { s with planners := s.planners.set i { planner with selected := true } } := by
  have hsound := h.planners planner (mem_of_getElem? hi)
  refine h.set_planner ⟨hsound.present, hsound.todo, hsound.refreshed, hsound.inserted, hsound.view,
    hsound.ids⟩ fun other hother => ?_
  have hapart := Pool.rel_of_mem_eraseIdx PlannersApart.symm h.plannersApart hi hother
  exact ⟨hapart.1, hapart.2⟩

lemma Inv.beginDispatch (h : Inv s) :
    Inv { s with dispatchers := s.dispatchers ++ [{ ids := [], committed := false }] } := by
  refine ⟨h.ids, h.active, h.planners, h.plannersApart, ?_, ?_⟩
  · exact Pool.forall_concat ⟨nodup_nil, forall_mem_nil _⟩ h.dispatchers
  · refine pairwise_append.2 ⟨h.dispatchersApart, pairwise_singleton _ _, ?_⟩
    intro other _ new hnew
    rw [mem_singleton.1 hnew]
    exact fun _ _ => not_mem_nil

lemma inv_next (h : Inv s) (hnext : next settings s event = some s') : Inv s' := by
  revert hnext
  fun_cases next settings s event <;> rintro ⟨⟩
  · rename_i hlocked
    exact h.elsewhere hlocked
  · exact h.beginPlan
  · rename_i hi hguard
    exact h.lockRow hi hguard.2.2.1 hguard.2.2.2.2
  · rename_i hi
    exact h.selected hi
  · rename_i hi _ _ htodo hguard
    exact h.plan hi htodo hguard.2
  · rename_i hi _
    exact h.commitPlan hi
  · exact h.erase_planner
  · exact h.beginDispatch
  · rename_i hi hguard
    obtain ⟨hopen, -, hjob, hpending, hfree⟩ := hguard
    exact h.lockJob hi hopen hjob hpending hfree
  · rename_i hi _
    exact h.commitDispatch hi
  · exact h.erase_dispatcher
  · rename_i hi _ _ _ hlist _ _
    exact h.settle hi hlist
  · exact h.erase_dispatcher

/-- **One active job for a key.** At any time of any run of planners and dispatchers, no key has two jobs
that are pending or running, neither among those that are committed nor in what a transaction sees. -/
theorem one_active_job (settings : Settings) (classifications : RefreshTable) (jobs : List ReclassJob)
    (hids : Table.Unique (·.id) jobs) (hactive : (activeKeys jobs).Nodup) (events : List Event)
    (t : Reclassification) (hrun : run (next settings) (start classifications jobs) events = some t) :
    (activeKeys t.jobs).Nodup ∧
      ∀ planner ∈ t.planners, (activeKeys (t.jobs ++ planner.inserted)).Nodup := by
  have hinv := invariant_of_step Inv (fun _ _ _ => inv_next) (inv_start hids hactive) hrun
  exact ⟨hinv.active, fun planner hplanner => (hinv.planners planner hplanner).view⟩

/-- A classification that is due from this time on. -/
def dueFrom (now : ℕ) : RefreshTable where
  rows := [{ id := 0, normalizedKey := "domain:example.com", status := "active",
             nextRefreshAt := some now, ttlSeconds := none }]
  unique_key := nodup_singleton _
  unique_id := nodup_singleton _

/-- Two planners, the second one at work on the classification while the job of the first cannot be
published and is pending again. -/
def retriedJob : List Event :=
  [.beginPlan, .beginPlan, .lockRow 0 ((dueFrom 5).rows.head (cons_ne_nil _ _)) 10, .selected 0,
    .plan 0 7 10, .commitPlan 0, .elsewhere (dueFrom 20), .beginDispatch,
    .lockJob 0 { id := 7, normalizedKey := "domain:example.com", reason := "ttl_refresh",
                 status := .pending, createdAt := 10 },
    .lockRow 0 ((dueFrom 20).rows.head (cons_ne_nil _ _)) 30, .selected 0, .commitDispatch 0,
    .plan 0 8 30, .settle 0 false, .commitPlan 0]

theorem retried_job_alone :
    let settings : Settings := { planBatch := 10, dispatchBatch := 10, parse := fun _ => none }
    ∃ t, run (next settings) (start (dueFrom 5) []) retriedJob = some t ∧
      activeKeys t.jobs = ["domain:example.com"] ∧ (activeKeys t.jobs).Nodup := by
  intro settings
  refine exists_of_run (by decide +kernel) fun t hrun _ => ?_
  exact (one_active_job settings (dueFrom 5) [] nodup_nil nodup_nil retriedJob t hrun).1

/-! ### What becomes of a job -/

/-- The row of the job is there, with another status only if the job was active. -/
def Kept (job : ReclassJob) (jobs : List ReclassJob) : Prop :=
  ∃ status, { job with status } ∈ jobs ∧ (job.status.isActive = false → status = job.status)

lemma Kept.of_mem (h : job ∈ jobs) : Kept job jobs := ⟨job.status, h, fun _ => rfl⟩

/-- A dispatcher sets the status only of jobs it has, and these are active. -/
lemma Inv.kept_setStatus (h : Inv s) {ids : List ℕ} (hi : s.dispatchers[i]? = some dispatcher)
    (hids : ids ⊆ dispatcher.ids) (hjob : job ∈ s.jobs) : Kept job (setStatus s.jobs ids status) := by
  by_cases hchanged : job.id ∈ ids
  · refine ⟨status, mem_setStatus_of_mem status hjob hchanged, fun hsettled => ?_⟩
    have hown := (h.dispatchers dispatcher (mem_of_getElem? hi)).status_eq h.ids hjob (hids hchanged)
    rw [hown, isActive_status] at hsettled
    cases hsettled
  · exact .of_mem (mem_setStatus_of_not_mem status hjob hchanged)

lemma kept_next (h : Inv s) (hnext : next settings s event = some s') (hjob : job ∈ s.jobs) :
    Kept job s'.jobs := by
  revert hnext
  fun_cases next settings s event <;> rintro ⟨⟩
  -- the steps that change the jobs: a plan and a dispatch are committed, a job is settled
  all_goals try exact .of_mem hjob
  · exact .of_mem (mem_append_left _ hjob)
  · exact h.kept_setStatus ‹_› (Subset.refl _) hjob
  · rename_i hi _ _ _ hlist _ _
    exact h.kept_setStatus hi (by simp [hlist]) hjob

/-- **No job is lost, and what is settled stays.** Between any two times of any run of planners and
dispatchers each job keeps its row, and one that is completed or failed keeps its status as well. -/
theorem job_kept (settings : Settings) (classifications : RefreshTable) (jobs : List ReclassJob)
    (hids : Table.Unique (·.id) jobs) (hactive : (activeKeys jobs).Nodup) (events later : List Event)
    (s t : Reclassification) (hrun : run (next settings) (start classifications jobs) events = some s)
    (hlater : run (next settings) s later = some t) (job : ReclassJob) (hjob : job ∈ s.jobs) :
    Kept job t.jobs := by
  have hinv := invariant_of_step Inv (fun _ _ _ => inv_next) (inv_start hids hactive) hrun
  refine (invariant_of_step (fun m => Inv m ∧ Kept job m.jobs) (fun m e m' hm hnext => ?_)
    ⟨hinv, .of_mem hjob⟩ hlater).2
  obtain ⟨status, hmem, hsettled⟩ := hm.2
  obtain ⟨status', hmem', hsettled'⟩ := kept_next hm.1 hnext hmem
  refine ⟨inv_next hm.1 hnext, status', hmem', fun hjob => ?_⟩
  obtain rfl := hsettled hjob
  exact hsettled' hjob

/-- A key whose last job is completed gets a new one. -/
theorem completed_job_kept :
    let settings : Settings := { planBatch := 10, dispatchBatch := 10, parse := fun _ => none }
    let job : ReclassJob :=
      { id := 7, normalizedKey := "domain:example.com", reason := "ttl_refresh", status := .completed
        createdAt := 1 }
    ∃ t, run (next settings) (start (dueFrom 5) [job]) [.beginPlan,
        .lockRow 0 ((dueFrom 5).rows.head (cons_ne_nil _ _)) 10, .selected 0, .plan 0 8 10,
        .commitPlan 0] = some t ∧ t.jobs.map (·.id) = [7, 8] ∧ Kept job t.jobs := by
  intro settings job
  refine exists_of_run (by decide +kernel) fun t hrun _ => ?_
  exact job_kept settings (dueFrom 5) [job] (by decide) (by decide) [] _ _ t rfl hrun job (by decide)

end OpenDefender.System.ReclassJobs
