import OpenDefender.Lib.CheckMark
import OpenDefender.Worker.Queue

/-!
Several classification workers of one consumer group. Each has its loop: it takes over entries that have
been idle for too long, goes through its own unacknowledged entries, and then through new ones. Between
the check of the marker and the new marker of a job, which may take any time, the others go on.

`completions_nodup` says when each key is completed at most once. A job that takes longer than the idle limit
is taken over while its worker is still at it, and both complete it: `taken_over_twice`.
-/

namespace OpenDefender.System.Deduplication

open Worker Lib Lib.Run CheckMark List

/-! ### The group -/

/-- An entry that has been given to a worker and is not acknowledged. -/
structure PendingEntry where
  entry : StreamEntry
  owner : ℕ
  deliveredAt : ℕ
  deriving DecidableEq, Repr

/-- What the loop of a worker has done last. -/
inductive Stage where
  | claimed
  | readPending
  | readNew
  deriving DecidableEq, Repr

/-- Where a worker is with the first entry of its batch. -/
inductive Progress where
  | waiting
  | handling (payload : String) (job : ClassificationJobPayload)
  | completed (job : ClassificationJobPayload)
  | processed
  deriving DecidableEq, Repr

/-- A worker, with the entries it has still to go through. -/
structure LoopState where
  stage : Stage
  batch : List StreamEntry
  progress : Progress
  deriving DecidableEq, Repr

/-- The group: its stream, its unacknowledged entries, what is outside, its workers, and the idempotency
keys of the jobs that have been completed with a classification. -/
structure Group where
  clock : ℕ
  undelivered : List StreamEntry
  pending : List PendingEntry
  store : QueueStore
  workers : List LoopState
  completions : List String

/-- The settings of the group. -/
structure Settings where
  consumer : QueueConsumer
  claimIdleMs : ℕ

/-- What happens: time passes, someone adds an entry, or a worker does its next step. Of the entries that
are idle, any may be within the limit of one `XAUTOCLAIM`. -/
inductive Event where
  | tick (ms : ℕ)
  | enqueue (entry : StreamEntry)
  | claim (i : ℕ) (picked : PendingEntry → Bool)
  | readPending (i : ℕ)
  | readNew (i : ℕ)
  | check (i : ℕ) (calls : JobCalls)
  | finish (i : ℕ) (calls : JobCalls)
  | mark (i : ℕ) (calls : JobCalls)
  | acknowledge (i : ℕ)

variable (settings : Settings) (group : Group)

/-- `XAUTOCLAIM`: entries that have been idle for long enough get a new owner. -/
def Group.claim (claimIdleMs i : ℕ) (picked : PendingEntry → Bool) : List PendingEntry :=
  group.pending.map fun item =>
    if picked item ∧ claimIdleMs ≤ group.clock - item.deliveredAt then
      { item with owner := i, deliveredAt := group.clock }
    else item

/-- Where a worker is once it has looked for the marker of an entry. -/
def Settings.check (store : QueueStore) (calls : JobCalls) (clock : ℕ) (entry : StreamEntry) : Progress :=
  if entryTooOld clock entry.id maxEntryAgeMs then .processed
  else
    match entry.payload with
    | none => .processed
    | some payload =>
      match settings.consumer.decode payload with
      | .error _ => .processed
      | .ok job =>
        if store.isDuplicate calls (some job) then .processed else .handling payload job

/-- The next step of one worker. -/
def Group.act (worker : LoopState) : Event → Option (Group × LoopState)
  | .claim i picked =>
    if worker.stage = .readNew ∧ worker.batch = [] then
      some ({ group with pending := group.claim settings.claimIdleMs i picked },
        { worker with stage := .claimed })
    else none
  | .readPending i =>
    if worker.stage = .claimed then
      some (group,
        { worker with
          stage := .readPending
          batch := ((group.pending.filter fun item => item.owner = i).take 10).map (·.entry) })
    else none
  | .readNew i =>
    if worker.stage = .readPending ∧ worker.batch = [] then
      some ({ group with
          undelivered := group.undelivered.drop 10
          pending := group.pending ++ (group.undelivered.take 10).map fun entry =>
            { entry, owner := i, deliveredAt := group.clock } },
        { worker with stage := .readNew, batch := group.undelivered.take 10 })
    else none
  | .check _ calls =>
    match worker.progress, worker.batch with
    | .waiting, entry :: _ =>
      some (group,
        { worker with progress := settings.check group.store calls group.clock entry })
    | _, _ => none
  | .finish _ calls =>
    match worker.progress with
    | .handling payload job =>
      match settings.consumer.handleJob group.store calls payload with
      | (.ok (), store) =>
        some ({ group with
            store
            completions := group.completions ++ [classificationIdempotencyKey job] },
          { worker with progress := .completed job })
      | (.error err, store) =>
        some ({ group with
            store := (settings.consumer.settleFailure store calls payload (some job) err).1 },
          { worker with progress := .processed })
    | _ => none
  | .mark _ calls =>
    match worker.progress with
    | .completed job =>
      some ({ group with store := group.store.markProcessed calls (some job) },
        { worker with progress := .processed })
    | _ => none
  | .acknowledge _ =>
    match worker.progress, worker.batch with
    | .processed, entry :: rest =>
      some ({ group with pending := group.pending.filter fun item => item.entry.id ≠ entry.id },
        { worker with batch := rest, progress := .waiting })
    | _, _ => none
  | _ => none

/-- The worker an event belongs to. -/
def Event.worker : Event → Option ℕ
  | .tick _ => none
  | .enqueue _ => none
  | .claim i _ => some i
  | .readPending i => some i
  | .readNew i => some i
  | .check i _ => some i
  | .finish i _ => some i
  | .mark i _ => some i
  | .acknowledge i => some i

/-- A step of worker `i`. -/
def Group.actAt (i : ℕ) (event : Event) : Option Group :=
  match group.workers[i]? with
  | none => none
  | some worker =>
    (group.act settings worker event).map fun result =>
      { result.1 with workers := group.workers.set i result.2 }

/-- The next state. -/
def next : Event → Option Group
  | .tick ms => some { group with clock := group.clock + ms }
  | .enqueue entry => some { group with undelivered := group.undelivered ++ [entry] }
  | event => event.worker.bind fun i => group.actAt settings i event

/-- Some workers that have just been started, with whatever there is in the stream and outside. -/
def start (clock : ℕ) (undelivered : List StreamEntry) (pending : List PendingEntry)
    (store : QueueStore) (workers : ℕ) : Group where
  clock := clock
  undelivered := undelivered
  pending := pending
  store := store
  workers := List.replicate workers { stage := .readNew, batch := [], progress := .waiting }
  completions := []

/-- The commands for the marker do not fail. -/
def Event.RedisWorks : Event → Prop
  | .check _ calls => calls.seenError = none
  | .mark _ calls => calls.markError = none
  | _ => True

/-! ### Marks -/

/-- Where a worker is, as far as markers go. -/
def Progress.phase : Progress → Phase String
  | .waiting => .idle
  | .handling _ job => .working (classificationIdempotencyKey job)
  | .completed job => .finished (classificationIdempotencyKey job)
  | .processed => .idle

/-- The group, as far as markers go. -/
def Group.view : State String where
  phases := group.workers.map (·.progress.phase)
  marked := group.store.markers
  done := group.completions

/-- The idempotency key of an entry. -/
def Settings.entryKey (entry : StreamEntry) : Option String :=
  (entry.payload.bind fun payload => (settings.consumer.decode payload).toOption).map
    classificationIdempotencyKey

/-- A worker looks for the marker of its next entry only while no worker is between the check and the
marker of a job with this idempotency key. -/
def Alone : Event → Prop
  | .check i _ => ∀ worker ∈ group.workers, ∀ key ∈ worker.progress.phase.key?,
      ((group.workers[i]?).bind (·.batch.head?)).bind settings.entryKey ≠ some key
  | _ => True

instance (event : Event) : Decidable (Alone settings group event) := by
  unfold Alone
  split <;> infer_instance

variable {settings : Settings} {group group' : Group} {worker worker' : LoopState} {i : ℕ}

/-! ### What a step does to the marks -/

lemma view_set (group group' : Group) (i : ℕ) (worker : LoopState) :
    { group' with workers := group.workers.set i worker }.view =
      { phases := group.view.phases.set i worker.progress.phase
        marked := group'.store.markers
        done := group'.completions } := by
  rw [Group.view, map_set]
  rfl

lemma getElem?_phases (hi : group.workers[i]? = some worker) :
    group.view.phases[i]? = some worker.progress.phase := by
  rw [Group.view, getElem?_map, hi]
  rfl

/-- A step that leaves the markers and the completed jobs alone, and does not change the job the worker
is at. -/
lemma step_stay (hi : group.workers[i]? = some worker)
    (hphase : worker'.progress.phase = worker.progress.phase)
    (hmarkers : group'.store.markers = group.store.markers)
    (hdone : group'.completions = group.completions) :
    Step group.view { group' with workers := group.workers.set i worker' }.view := by
  have hview : { group' with workers := group.workers.set i worker' }.view = group.view := by
    rw [Group.view, Pool.map_set hi hphase, hmarkers, hdone]
    rfl
  rw [hview]
  exact .stay

/-- A step with a condition, of the same kind. -/
lemma step_stay_of_ite {condition : Prop} [Decidable condition]
    (hi : group.workers[i]? = some worker)
    (hphase : result.2.progress.phase = worker.progress.phase)
    (hmarkers : result.1.store.markers = group.store.markers)
    (hdone : result.1.completions = group.completions)
    (h : (if condition then some result else none) = some (group', worker')) :
    Step group.view { group' with workers := group.workers.set i worker' }.view := by
  obtain ⟨-, hresult⟩ := Option.ite_none_right_eq_some.1 h
  cases hresult
  exact step_stay hi hphase hmarkers hdone

/-- What the check of an entry can come to. -/
lemma check_cases (settings : Settings) (store : QueueStore) (calls : JobCalls) (clock : ℕ)
    (entry : StreamEntry) (hredis : calls.seenError = none) :
    settings.check store calls clock entry = .processed ∨
      ∃ payload job, settings.check store calls clock entry = .handling payload job ∧
        settings.entryKey entry = some (classificationIdempotencyKey job) ∧
        classificationIdempotencyKey job ∉ store.markers := by
  rw [Settings.check]
  split_ifs
  · exact Or.inl rfl
  cases hpayload : entry.payload with
  | none => exact Or.inl rfl
  | some payload =>
    cases hdecode : settings.consumer.decode payload with
    | error message => exact Or.inl (by simp only [hdecode])
    | ok job =>
      simp only [hdecode]
      split_ifs with hduplicate
      · exact Or.inl rfl
      · refine Or.inr ⟨payload, job, rfl, ?_, ?_⟩
        · rw [Settings.entryKey, hpayload, Option.bind_some, hdecode]
          rfl
        · simpa [QueueStore.isDuplicate, hredis] using hduplicate

/-- The handler and what follows a failure leave the markers alone. -/
lemma markers_handleJob (consumer : QueueConsumer) (store : QueueStore) (calls : JobCalls)
    (payload : String) : (consumer.handleJob store calls payload).2.markers = store.markers := by
  rw [QueueConsumer.handleJob]
  split <;> rfl

lemma markers_settleFailure (consumer : QueueConsumer) (store : QueueStore) (calls : JobCalls)
    (payload : String) (job : ClassificationJobPayload) (err : JobError) :
    (consumer.settleFailure store calls payload (some job) err).1.markers = store.markers :=
  QueueConsumer.Processes.markers (processes_settleFailure store rfl rfl err) rfl

/-- A worker at its next entry. -/
lemma step_check (hi : group.workers[i]? = some worker) (hredis : calls.seenError = none)
    (halone : Alone settings group (.check i calls))
    (h : group.act settings worker (.check i calls) = some (group', worker')) :
    Step group.view { group' with workers := group.workers.set i worker' }.view := by
  rw [Group.act] at h
  split at h
  · rename_i entry rest hprogress hbatch
    cases h
    have hidle : worker.progress.phase = .idle := by rw [hprogress]; rfl
    obtain hcheck | ⟨payload, job, hcheck, hkey, hnew⟩ :=
      check_cases settings group.store calls group.clock entry hredis
    · exact step_stay hi (by rw [hcheck, hidle]; rfl) rfl rfl
    · rw [view_set, hcheck]
      refine .start i _ (by rw [getElem?_phases hi, hidle]) hnew fun phase hphase heq => ?_
      obtain ⟨other, hother, rfl⟩ := mem_map.1 hphase
      refine halone other hother _ heq ?_
      rw [hi, Option.bind_some, hbatch]
      exact hkey
  · cases h

/-- A handler that comes to its end. -/
lemma step_finish (hi : group.workers[i]? = some worker)
    (h : group.act settings worker (.finish i calls) = some (group', worker')) :
    Step group.view { group' with workers := group.workers.set i worker' }.view := by
  rw [Group.act] at h
  split at h
  · rename_i payload job hprogress
    have hworking : group.view.phases[i]? = some (.working (classificationIdempotencyKey job)) := by
      rw [getElem?_phases hi, hprogress]
      rfl
    have hmarkers := markers_handleJob settings.consumer group.store calls payload
    split at h
    · rename_i store hhandled
      cases h
      rw [hhandled] at hmarkers
      rw [view_set, hmarkers]
      exact .finish i _ hworking
    · rename_i err store hhandled
      cases h
      rw [hhandled] at hmarkers
      rw [view_set, markers_settleFailure, hmarkers]
      exact .fail i _ hworking
  · cases h

/-- The marker of a completed job. -/
lemma step_mark (hi : group.workers[i]? = some worker) (hredis : calls.markError = none)
    (h : group.act settings worker (.mark i calls) = some (group', worker')) :
    Step group.view { group' with workers := group.workers.set i worker' }.view := by
  rw [Group.act] at h
  split at h
  · rename_i job hprogress
    cases h
    rw [view_set, QueueStore.markProcessed, hredis]
    refine .mark i _ ?_
    rw [getElem?_phases hi, hprogress]
    rfl
  · cases h

/-- The other steps of a worker. -/
lemma step_act (hi : group.workers[i]? = some worker) (hworker : event.worker = some i)
    (hredis : event.RedisWorks) (halone : Alone settings group event)
    (h : group.act settings worker event = some (group', worker')) :
    Step group.view { group' with workers := group.workers.set i worker' }.view := by
  cases event with
  | tick ms => cases h
  | enqueue entry => cases h
  | claim j picked => exact step_stay_of_ite hi rfl rfl rfl h
  | readPending j => exact step_stay_of_ite hi rfl rfl rfl h
  | readNew j => exact step_stay_of_ite hi rfl rfl rfl h
  | check j calls =>
    cases hworker
    exact step_check hi hredis halone h
  | finish j calls =>
    cases hworker
    exact step_finish hi h
  | mark j calls =>
    cases hworker
    exact step_mark hi hredis h
  | acknowledge j =>
    rw [Group.act] at h
    split at h
    · rename_i entry rest hprogress hbatch
      cases h
      exact step_stay hi (by rw [hprogress]; rfl) rfl rfl
    · cases h

lemma step_actAt (hworker : event.worker = some i) (hredis : event.RedisWorks)
    (halone : Alone settings group event) (h : group.actAt settings i event = some group') :
    Step group.view group'.view := by
  rw [Group.actAt] at h
  split at h
  · cases h
  · rename_i worker hi
    obtain ⟨⟨result, worker'⟩, hact, rfl⟩ := Option.map_eq_some_iff.1 h
    exact step_act hi hworker hredis halone hact

/-- The group does nothing but the steps of processes that check and mark. -/
lemma step_next (hredis : event.RedisWorks) (halone : Alone settings group event)
    (h : next settings group event = some group') : Step group.view group'.view := by
  cases event with
  | tick ms =>
    cases h
    exact .stay
  | enqueue entry =>
    cases h
    exact .stay
  | _ => exact step_actAt rfl hredis halone h

/-- **One completion for each key.** Whatever the workers do and however long their jobs take: as long as
no job is begun while another worker is at work for its key, no key is completed twice. -/
theorem completions_nodup (settings : Settings) (clock : ℕ) (undelivered : List StreamEntry)
    (pending : List PendingEntry) (store : QueueStore) (workers : ℕ) (events : List Event) (t : Group)
    (hredis : ∀ event ∈ events, event.RedisWorks)
    (halone : Guarded (next settings) (Alone settings)
      (start clock undelivered pending store workers) events)
    (hrun : run (next settings) (start clock undelivered pending store workers) events = some t) :
    t.completions.Nodup := by
  have hstart : Inv (start clock undelivered pending store workers).view := by
    refine inv_idle (fun phase hphase => ?_) rfl
    obtain ⟨worker, hworker, rfl⟩ := mem_map.1 hphase
    rw [eq_of_mem_replicate hworker]
    rfl
  have hinv := (halone.and_forall hredis).invariant (fun group => Inv group.view)
    (fun _ _ _ hinv hok hnext => hinv.step (step_next hok.1 hok.2 hnext)) hstart hrun
  exact hinv.nodup

/-! ### Two workers -/

/-- Two workers with one entry in the stream. -/
def twoWorkers : Group :=
  start 1000 [{ id := "1000-0", payload := some "job" }] []
    { markers := [], requests := [], jobs := [], fetchJobs := [] } 2

/-- The default limit. -/
def defaultSettings : Settings := { consumer := oneJob, claimIdleMs := 30000 }

/-- The first worker reads the entry and looks for its marker. -/
def firstReads : List Event :=
  [.claim 0 fun _ => true, .readPending 0, .readNew 0, .check 0 (handledAs (.ok ()))]

/-- After the idle limit the second worker takes the entry over and looks for its marker. -/
def secondTakesOver : List Event :=
  [.tick 30000, .claim 1 fun _ => true, .readPending 1, .check 1 (handledAs (.ok ()))]

/-- An entry that is taken over after its job has been completed is recognised. -/
theorem taken_over_once :
    ∃ t, run (next defaultSettings) twoWorkers
        (firstReads ++ [.finish 0 (handledAs (.ok ())), .mark 0 (handledAs (.ok ()))] ++
          secondTakesOver) = some t ∧
      t.completions.length = 1 ∧ t.completions.Nodup := by
  refine exists_of_run (by decide +kernel) fun t hrun _ => ?_
  exact completions_nodup defaultSettings 1000 _ [] _ 2 _ t
    (by simp [firstReads, secondTakesOver, Event.RedisWorks, handledAs]) (by decide +kernel) hrun

/-- An entry whose job takes longer than the idle limit is completed by both workers. -/
theorem taken_over_twice :
    (∀ event ∈ firstReads ++ secondTakesOver ++
        [.finish 0 (handledAs (.ok ())), .finish 1 (handledAs (.ok ()))], event.RedisWorks) ∧
    (run (next defaultSettings) twoWorkers
        (firstReads ++ secondTakesOver ++
          [.finish 0 (handledAs (.ok ())), .finish 1 (handledAs (.ok ()))])).map (·.completions) =
      some ["domain:site.example:https://site.example/:t1",
        "domain:site.example:https://site.example/:t1"] := by
  refine ⟨?_, by decide +kernel⟩
  simp [firstReads, secondTakesOver, Event.RedisWorks, handledAs]

end OpenDefender.System.Deduplication
