import OpenDefender.Worker.Reconciler

/-!
The reclassification worker (`workers/reclass-worker/src/main.rs`): the statements of `plan_batch`, which
makes a job for each classification that is due, and of `dispatch_batch`, which sends the jobs to the
classification worker.

The labels that `plan_batch` corrects on its way and the messages that `dispatch_batch` sends are left out.
Times are in microseconds.
-/

namespace OpenDefender.Reclass

open Lib Text List

/-! ### The tables -/

/-- The statuses of a job. -/
inductive JobStatus where
  | pending
  | running
  | completed
  | failed
  deriving DecidableEq, Repr

/-- `status IN ('pending', 'running')`. -/
def JobStatus.isActive : JobStatus → Bool
  | .pending => true
  | .running => true
  | .completed => false
  | .failed => false

/-- A row of `reclassification_jobs`. -/
structure ReclassJob where
  id : ℕ
  normalizedKey : String
  reason : String
  status : JobStatus
  createdAt : ℕ
  deriving DecidableEq, Repr

/-- The keys of the active jobs, one for each job. -/
def activeKeys (jobs : List ReclassJob) : List String :=
  (jobs.filter (·.status.isActive)).map (·.normalizedKey)

/-- A row of `classifications`, as far as the planner reads it. -/
structure RefreshRow where
  id : ℕ
  normalizedKey : String
  status : String
  nextRefreshAt : Option ℕ
  ttlSeconds : Option ℤ
  deriving DecidableEq, Repr

/-- The table `classifications`, with its two constraints. -/
structure RefreshTable where
  rows : List RefreshRow
  unique_key : Table.Unique (·.normalizedKey) rows
  unique_id : Table.Unique (·.id) rows

/-! ### Planning -/

variable (refreshed : List (ℕ × ℕ)) (row : RefreshRow)

/-- The classification is one that `plan_batch` selects. -/
def RefreshRow.due (now : ℕ) : Bool :=
  row.status = "active" ∧ row.nextRefreshAt.any (· ≤ now)

/-- The time of the next refresh, for a classification that is planned now. -/
def RefreshRow.refreshAt (now : ℕ) : ℕ :=
  now + (max (row.ttlSeconds.getD 3600) 300).toNat * 1000000

/-- `UPDATE classifications SET next_refresh_at = …` for the rows with these ids. -/
def RefreshRow.refresh : RefreshRow :=
  match refreshed.find? (·.1 = row.id) with
  | none => row
  | some entry => { row with nextRefreshAt := some entry.2 }

lemma id_refresh : (row.refresh refreshed).id = row.id := by
  rw [RefreshRow.refresh]
  split <;> rfl

lemma normalizedKey_refresh : (row.refresh refreshed).normalizedKey = row.normalizedKey := by
  rw [RefreshRow.refresh]
  split <;> rfl

/-- Rows that are not among those stay as they are. -/
lemma refresh_of_not_mem {refreshed : List (ℕ × ℕ)} {row : RefreshRow}
    (h : ∀ entry ∈ refreshed, entry.1 ≠ row.id) : row.refresh refreshed = row := by
  have hnone : refreshed.find? (·.1 = row.id) = none :=
    find?_eq_none.2 fun entry hentry => by simpa using h entry hentry
  rw [RefreshRow.refresh, hnone]

/-- The table after these updates. -/
def RefreshTable.refresh (table : RefreshTable) (refreshed : List (ℕ × ℕ)) : RefreshTable where
  rows := table.rows.map (RefreshRow.refresh refreshed)
  unique_key := table.unique_key.map (normalizedKey_refresh refreshed)
  unique_id := table.unique_id.map (id_refresh refreshed)

/-- `INSERT INTO reclassification_jobs … WHERE NOT EXISTS`, over the jobs the statement sees. -/
def insertJob (visible : List ReclassJob) (id : ℕ) (normalizedKey : String) (now : ℕ) :
    Option ReclassJob :=
  if visible.any fun job => job.normalizedKey = normalizedKey ∧ job.status.isActive then none
  else some { id, normalizedKey, reason := "ttl_refresh", status := .pending, createdAt := now }

/-! ### Dispatching -/

/-- `JobTarget`. -/
structure JobTarget where
  entityLevel : String
  hostname : String
  fullUrl : String
  deriving DecidableEq, Repr

/-- `build_target`. -/
def buildTarget (parse : String → Option Worker.ParsedUrl) (normalizedKey : String) :
    Except String JobTarget :=
  match splitOnce ":" normalizedKey with
  | none => .error ("normalized_key missing prefix: " ++ normalizedKey)
  | some (level, remainder) =>
    if level = "domain" ∨ level = "subdomain" then
      let host := trimMatches '/' (trim remainder)
      if host.isEmpty then .error ("empty host for normalized key " ++ normalizedKey)
      else .ok { entityLevel := level, hostname := host, fullUrl := "https://" ++ host ++ "/" }
    else if level = "url" ∨ level = "page" then
      match parse remainder with
      | none => .error ("invalid URL in normalized key " ++ normalizedKey)
      | some url =>
        match url.host with
        | none => .error ("url missing host for key " ++ normalizedKey)
        | some host => .ok { entityLevel := level, hostname := host, fullUrl := url.text }
    else .error ("unsupported entity level " ++ level ++ " for key " ++ normalizedKey)

/-- The status of a job after it has been dispatched: one that could not be published is tried again. -/
def settledStatus (target : Except String JobTarget) (published : Bool) : JobStatus :=
  match target with
  | .error _ => .failed
  | .ok _ => if published then .completed else .pending

/-- `UPDATE reclassification_jobs SET status = … WHERE id = …`, for one id or several. -/
def setStatus (jobs : List ReclassJob) (ids : List ℕ) (status : JobStatus) : List ReclassJob :=
  jobs.map fun job => if job.id ∈ ids then { job with status } else job

/-! ### Active keys -/

lemma activeKeys_append (jobs more : List ReclassJob) :
    activeKeys (jobs ++ more) = activeKeys jobs ++ activeKeys more := by
  rw [activeKeys, filter_append, map_append]
  rfl

variable {jobs : List ReclassJob}

lemma mem_activeKeys :
    key ∈ activeKeys jobs ↔
      ∃ job ∈ jobs, job.status.isActive = true ∧ job.normalizedKey = key := by
  simp [activeKeys, and_assoc]

/-- A job is inserted only for a key that has no active one. -/
lemma insertJob_eq_some {id now : ℕ} (h : insertJob visible id normalizedKey now = some job) :
    normalizedKey ∉ activeKeys visible ∧ job.id = id ∧ job.normalizedKey = normalizedKey ∧
      job.status = .pending := by
  rw [insertJob] at h
  split_ifs at h with hany
  cases h
  refine ⟨fun hmem => hany ?_, rfl, rfl, rfl⟩
  obtain ⟨other, hother, hactive, hkey⟩ := mem_activeKeys.1 hmem
  exact any_eq_true.2 ⟨other, hother, decide_eq_true ⟨hkey, hactive⟩⟩

/-- Updates that activate no job. -/
lemma activeKeys_setStatus_sublist (status : JobStatus)
    (hactive : ∀ job ∈ jobs, job.id ∈ ids → job.status.isActive = true) :
    (activeKeys (setStatus jobs ids status)).Sublist (activeKeys jobs) := by
  rw [activeKeys, activeKeys, setStatus]
  induction jobs with
  | nil => exact List.Sublist.refl _
  | cons job rest ih =>
    have hrest := ih fun other hother => hactive other (mem_cons_of_mem _ hother)
    rw [map_cons]
    by_cases hmem : job.id ∈ ids
    · have hjob := hactive job mem_cons_self hmem
      rw [if_pos hmem, filter_cons, filter_cons, if_pos hjob, map_cons]
      split_ifs
      · exact hrest.cons_cons _
      · exact hrest.cons _
    · rw [if_neg hmem, filter_cons, filter_cons]
      split_ifs
      · exact hrest.cons_cons _
      · exact hrest

lemma ids_setStatus (jobs : List ReclassJob) (ids : List ℕ) (status : JobStatus) :
    (setStatus jobs ids status).map (·.id) = jobs.map (·.id) := by
  rw [setStatus, map_map]
  refine map_congr_left fun job _ => ?_
  rw [Function.comp_apply]
  split_ifs <;> rfl

lemma mem_setStatus_of_not_mem (status : JobStatus) (hjob : job ∈ jobs) (hid : job.id ∉ ids) :
    job ∈ setStatus jobs ids status :=
  mem_map.2 ⟨job, hjob, if_neg hid⟩

lemma mem_setStatus_of_mem (status : JobStatus) (hjob : job ∈ jobs) (hid : job.id ∈ ids) :
    { job with status } ∈ setStatus jobs ids status :=
  mem_map.2 ⟨job, hjob, if_pos hid⟩

end OpenDefender.Reclass
