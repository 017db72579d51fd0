import OpenDefender.Fetcher.Job
import OpenDefender.Lib.Log
import OpenDefender.Worker.Queue

/-!
What the two workers have done with an entry of their stream by the time they acknowledge it.

A run is a sequence of entries, each handled by a worker of the group, while markers expire and others write
to the tables. The log keeps what has been done, with the entry it has been done for. `entries_settled`: if no
entry is too old, and if the writes that record the fate of a job do not fail, every acknowledged entry has
been settled.

An entry that is too old is acknowledged with nothing recorded at all: `old_entry_lost`.
-/

namespace OpenDefender.System.Acknowledgement

open Lib Lib.Log Lib.Run Worker Fetcher List

/-! ### Runs -/

/-- The two keys of a job. -/
structure JobKeys where
  idempotencyKey : String
  normalizedKey : String
  deriving DecidableEq, Repr

/-- A worker with the keys of its markers, the keys of its jobs, and the condition on the calls of one
`process_job`. -/
structure Judged (σ γ : Type) where
  consumer : StreamConsumer σ γ
  markers : σ → List String
  jobKeys : String → Option JobKeys
  Sound : γ → String → Prop

/-- The classification worker. Its condition: a request can be marked as failed. -/
def classifier (consumer : QueueConsumer) : Judged QueueStore JobCalls where
  consumer := consumer.streamConsumer
  markers store := store.markers
  jobKeys payload := (consumer.decode payload).toOption.map fun job =>
    { idempotencyKey := classificationIdempotencyKey job, normalizedKey := job.normalizedKey }
  Sound calls _ := calls.pendingError = none

/-- The page fetcher. Its condition: no call fails, and the job has a valid URL. -/
def pageFetcher (fetcher : PageFetcher) : Judged FetchStore FetchCalls where
  consumer := fetcher.streamConsumer
  markers store := store.markers.map (·.key)
  jobKeys payload := (fetcher.decode payload).toOption.map fun job =>
    { idempotencyKey := pageFetchIdempotencyKey job, normalizedKey := job.normalizedKey }
  Sound calls payload := ¬calls.Faulty ∧
    ∀ job, fetcher.decode payload = .ok job → resolveCandidateUrls calls.services job ≠ []

lemma markers_classifier (consumer : QueueConsumer) (store : QueueStore) :
    (classifier consumer).markers store = store.markers := rfl

lemma markers_pageFetcher (fetcher : PageFetcher) (store : FetchStore) :
    (pageFetcher fetcher).markers store = store.markers.map (·.key) := rfl

/-- Something that has been done, and the entry it has been done for, if it is one of the run. -/
structure LogRecord where
  entry : Option StreamEntry
  record : EntryRecord
  deriving DecidableEq, Repr

/-- A group of workers. -/
structure Group (σ : Type) where
  store : σ
  log : List LogRecord

/-- What happens: an entry is handled, or something is changed from elsewhere. -/
inductive Event (σ γ : Type) where
  | deliver (entry : StreamEntry) (calls : γ) (faults : EntryFaults) (nowMs : ℕ)
  | elsewhere (store : σ)

variable {σ γ : Type}

variable (judged : Judged σ γ)

/-- The next state. Nobody but the workers sets a marker. -/
def next (group : Group σ) : Event σ γ → Option (Group σ)
  | .deliver entry calls faults nowMs =>
    let handled := judged.consumer.handleEntry group.store calls faults nowMs entry
    some
      { store := handled.1
        log := group.log ++ handled.2.map fun record => { entry := some entry, record } }
  | .elsewhere store =>
    if judged.markers store ⊆ judged.markers group.store then some { group with store } else none

/-- The markers that are there belong to jobs that have been completed before. -/
def start (store : σ) : Group σ where
  store := store
  log := (judged.markers store).map fun key => { entry := none, record := .completed key }

/-- The record is one that settles the entry. -/
def Settles (entry : StreamEntry) (record : EntryRecord) : Prop :=
  let keys := entry.payload.bind judged.jobKeys
  match record with
  | .completed key => keys.map (·.idempotencyKey) = some key
  | .skippedDuplicate key => keys.map (·.idempotencyKey) = some key
  | .requeued _ => keys.isSome
  | .recordedFailed key _ => keys.map (·.normalizedKey) = some key
  | .deadLettered _ payload => payload = entry.payload
  | .acknowledged => False

/-- What a record needs before it: an acknowledgement, that its entry has been settled; a duplicate, that
a job with its key has been completed. -/
def needs (line : LogRecord) (before : List LogRecord) : Prop :=
  match line.record with
  | .acknowledged => ∃ entry record, line.entry = some entry ∧
      { entry := some entry, record } ∈ before ∧ Settles judged entry record
  | .skippedDuplicate key => ∃ entry, { entry, record := .completed key } ∈ before
  | _ => True

/-- The entry is not too old. If it cannot be read, the dead-letter stream takes it; otherwise the calls
of `process_job` meet the condition of the worker. -/
def Sound (judged : Judged σ γ) : Event σ γ → Prop
  | .deliver entry calls faults nowMs =>
    entryTooOld nowMs entry.id maxEntryAgeMs = false ∧
      match entry.payload.filter (judged.jobKeys · |>.isSome) with
      | none => faults.deadLetter = none
      | some payload => judged.Sound calls payload
  | .elsewhere _ => True

/-! ### What a worker has to keep to -/

/-- What has been done with an entry before it is acknowledged. -/
structure Deals (judged : Judged σ γ) (store : σ) (entry : StreamEntry) (done : List EntryRecord)
    (store' : σ) : Prop where
  settled : ∃ record ∈ done, Settles judged entry record
  duplicate : ∀ key, .skippedDuplicate key ∈ done → key ∈ judged.markers store
  marked : ∀ key ∈ judged.markers store', key ∈ judged.markers store ∨ .completed key ∈ done
  silent : .acknowledged ∉ done

/-- What `process_job` of a worker does, as far as acknowledgements need it. -/
structure Accountable (judged : Judged σ γ) : Prop where
  /-- The loop finds out in the same way whether a payload can be read. -/
  parseable : ∀ payload, judged.consumer.parseable payload = (judged.jobKeys payload).isSome
  unreadable : ∀ store calls payload, judged.jobKeys payload = none →
    judged.consumer.processJob store calls payload = { ok := false, store, records := [] }
  deals : ∀ store calls payload entry, (judged.jobKeys payload).isSome → judged.Sound calls payload →
    entry.payload = some payload →
    Deals judged store entry (judged.consumer.processJob store calls payload).records
      (judged.consumer.processJob store calls payload).store

/-- The markers belong to completed jobs, and every record has what it needs before it. -/
structure Inv (judged : Judged σ γ) (group : Group σ) : Prop where
  markers : ∀ key ∈ judged.markers group.store, ∃ entry, { entry, record := .completed key } ∈ group.log
  justified : Justified (needs judged) group.log

variable {judged : Judged σ γ}

/-! ### One entry -/

/-- An entry that cannot be read goes to the dead-letter stream. -/
lemma deals_deadLetter (judged : Judged σ γ) (entry : StreamEntry) (store : σ) (reason : String) :
    Deals judged store entry [.deadLettered reason entry.payload] store where
  settled := ⟨_, mem_singleton_self _, rfl⟩
  duplicate := by simp
  marked key hkey := Or.inl hkey
  silent := by simp

lemma publishDeadLetter_eq (h : faults.deadLetter = none) (reason : String)
    (payload : Option String) :
    publishDeadLetter faults reason payload = [.deadLettered reason payload] := by
  rw [publishDeadLetter, h]
  rfl

variable {entry : StreamEntry}

/-- An entry of a sound run is dealt with before it is acknowledged. -/
lemma deals_handleEntry (hworker : Accountable judged) (store : σ)
    (hsound : Sound judged (.deliver entry calls faults nowMs)) :
    ∃ done, (judged.consumer.handleEntry store calls faults nowMs entry).2 = done ++ acknowledge faults ∧
      Deals judged store entry done
        (judged.consumer.handleEntry store calls faults nowMs entry).1 := by
  obtain ⟨hage, hsound⟩ := hsound
  rw [StreamConsumer.handleEntry, hage]
  cases hpayload : entry.payload with
  | none =>
    rw [hpayload] at hsound
    have hdeals := deals_deadLetter judged entry store "missing_payload"
    refine ⟨_, congrArg (· ++ _) (publishDeadLetter_eq hsound "missing_payload" none), ?_⟩
    rwa [hpayload] at hdeals
  | some payload =>
    rw [hpayload] at hsound
    cases hkeys : judged.jobKeys payload with
    | none =>
      have hdead : faults.deadLetter = none := by
        simpa [Option.filter_some, hkeys] using hsound
      have hparse := hworker.parseable payload
      rw [hkeys] at hparse
      have hdeals := deals_deadLetter judged entry store "invalid_payload"
      rw [hpayload] at hdeals
      refine ⟨[.deadLettered "invalid_payload" (some payload)], ?_, ?_⟩
      · simp [hworker.unreadable store calls payload hkeys, hparse, publishDeadLetter_eq hdead]
      · simpa [hworker.unreadable store calls payload hkeys] using hdeals
    | some keys =>
      have hcalls : judged.Sound calls payload := by
        simpa [Option.filter_some, hkeys] using hsound
      have hparse := hworker.parseable payload
      rw [hkeys] at hparse
      refine ⟨(judged.consumer.processJob store calls payload).records, ?_, ?_⟩
      · simp [hparse]
      · exact hworker.deals store calls payload entry (by rw [hkeys]; rfl) hcalls hpayload

/-! ### Whole runs -/

lemma needs_mono (hsub : before ⊆ before') (h : needs judged line before) :
    needs judged line before' := by
  obtain ⟨entry, record⟩ := line
  cases record with
  | acknowledged =>
    obtain ⟨entry, record, hentry, hmem, hsettles⟩ := h
    exact ⟨entry, record, hentry, hsub hmem, hsettles⟩
  | skippedDuplicate key =>
    obtain ⟨entry, hmem⟩ := h
    exact ⟨entry, hsub hmem⟩
  | _ => trivial

variable {group : Group σ}

/-- What has been done with an entry needs nothing but the markers. -/
lemma needs_of_deals (hinv : Inv judged group) (hdeals : Deals judged group.store entry done store')
    (hrecord : record ∈ done) : needs judged { entry := some entry, record } group.log := by
  cases record with
  | acknowledged => exact absurd hrecord hdeals.silent
  | skippedDuplicate key => exact hinv.markers key (hdeals.duplicate key hrecord)
  | _ => trivial

lemma justified_deliver (hinv : Inv judged group)
    (hdeals : Deals judged group.store entry done store') (faults : EntryFaults) :
    Justified (needs judged) (group.log ++ (done ++ acknowledge faults).map fun record =>
      { entry := some entry, record }) := by
  rw [map_append, ← append_assoc]
  have hdone : Justified (needs judged)
      (group.log ++ done.map fun record => { entry := some entry, record }) := by
    refine hinv.justified.append fun before line after heq => ?_
    have hmem : line ∈ done.map fun record => { entry := some entry, record } := by
      rw [heq]
      exact mem_append_right _ mem_cons_self
    obtain ⟨record, hrecord, rfl⟩ := mem_map.1 hmem
    exact needs_mono (subset_append_left _ _) (needs_of_deals hinv hdeals hrecord)
  rw [acknowledge]
  split_ifs
  · rwa [map_nil, append_nil]
  · obtain ⟨record, hrecord, hsettles⟩ := hdeals.settled
    refine hdone.concat ⟨entry, record, rfl, ?_, hsettles⟩
    exact mem_append_right _ (mem_map_of_mem hrecord)

lemma inv_next (hworker : Accountable judged) (hinv : Inv judged group)
    (hsound : Sound judged event) (h : next judged group event = some group') :
    Inv judged group' := by
  cases event with
  | deliver entry calls faults nowMs =>
    obtain ⟨done, hrecords, hdeals⟩ := deals_handleEntry hworker group.store hsound
    rw [next, Option.some.injEq] at h
    rw [← h]
    refine ⟨fun key hkey => ?_, ?_⟩
    · rcases hdeals.marked key hkey with hkey | hcompleted
      · obtain ⟨entry, hmem⟩ := hinv.markers key hkey
        exact ⟨entry, mem_append_left _ hmem⟩
      · refine ⟨some entry, mem_append_right _ (mem_map_of_mem ?_)⟩
        rw [hrecords]
        exact mem_append_left _ hcompleted
    · rw [hrecords]
      exact justified_deliver hinv hdeals faults
  | elsewhere store =>
    rw [next] at h
    split_ifs at h with hsub
    rw [← Option.some.inj h]
    exact ⟨fun key hkey => hinv.markers key (hsub hkey), hinv.justified⟩

lemma inv_start (judged : Judged σ γ) (store : σ) : Inv judged (start judged store) where
  markers key hkey := ⟨none, mem_map_of_mem hkey⟩
  justified := by
    intro before line after heq
    have hmem : line ∈ (start judged store).log := by
      rw [heq]
      exact mem_append_right _ mem_cons_self
    obtain ⟨key, -, rfl⟩ := mem_map.1 hmem
    trivial

/-- A run of a worker that keeps to its part. -/
lemma Accountable.justified (hworker : Accountable judged)
    (hsound : ∀ event ∈ events, Sound judged event)
    (hrun : run (next judged) (start judged store) events = some group) :
    Justified (needs judged) group.log := by
  have hguard : Guarded (next judged) (fun _ event => Sound judged event) (start judged store) events :=
    guarded_of_forall hsound
  have hinv := hguard.invariant (Inv judged) (fun _ _ _ => inv_next hworker)
    (inv_start judged store) hrun
  exact hinv.justified

/-! ### The two workers -/

/-- A record that settles the entry, and perhaps failures recorded after it. The only markers that are
set are those of completed jobs. -/
lemma deals_cons (hsettles : Settles judged entry record)
    (hduplicate : ∀ key, record = .skippedDuplicate key → key ∈ judged.markers store)
    (hmarked : ∀ key ∈ judged.markers store', key ∈ judged.markers store ∨ record = .completed key)
    (hmore : ∀ other ∈ more, ∃ key status, other = .recordedFailed key status) :
    Deals judged store entry (record :: more) store' where
  settled := ⟨record, mem_cons_self, hsettles⟩
  duplicate key hkey := by
    rcases mem_cons.1 hkey with heq | hmem
    · exact hduplicate key heq.symm
    · obtain ⟨key', status, heq⟩ := hmore _ hmem
      cases heq
  marked key hkey := by
    rcases hmarked key hkey with hkey | heq
    · exact Or.inl hkey
    · rw [heq]
      exact Or.inr mem_cons_self
  silent hmem := by
    rcases mem_cons.1 hmem with heq | hmem
    · rw [← heq] at hsettles
      exact hsettles
    · obtain ⟨key, status, heq⟩ := hmore _ hmem
      cases heq

lemma deals_of_queue (hdb : calls.pendingError = none)
    (hentry : entry.payload.bind (classifier consumer).jobKeys = some
        { idempotencyKey := classificationIdempotencyKey job, normalizedKey := job.normalizedKey })
    (h : consumer.Processes store calls job text result) :
    Deals (classifier consumer) store entry result.records result.store := by
  have hkept : ∀ {store' : QueueStore} {record : EntryRecord}, store'.markers = store.markers →
      ∀ key ∈ (classifier consumer).markers store',
        key ∈ (classifier consumer).markers store ∨ record = .completed key := by
    intro store' record hmarkers key hkey
    rw [markers_classifier, hmarkers] at hkey
    exact Or.inl hkey
  cases h with
  | duplicate hseen =>
    refine deals_cons ?_ ?_ (hkept rfl) (by simp)
    · rw [Settles, hentry]
      rfl
    · intro key hkey
      cases hkey
      exact hseen
  | completed hhandled hjobs hmarkers =>
    refine deals_cons ?_ (by simp) ?_ (by simp)
    · rw [Settles, hentry]
      rfl
    · intro key hkey
      rcases hmarkers with hmarkers | hmarkers
      · exact hkept hmarkers key hkey
      · rw [markers_classifier, hmarkers, mem_append, mem_singleton] at hkey
        rw [markers_classifier, EntryRecord.completed.injEq]
        exact hkey.imp_right Eq.symm
  | requeued hattempt hjobs hmarkers hmore =>
    refine deals_cons ?_ (by simp) (hkept hmarkers) ?_
    · rw [Settles, hentry]
      rfl
    · exact fun other hother => ⟨_, _, mem_singleton.1 (hmore hother)⟩
  | failed hjobs hmarkers hrow =>
    refine deals_cons ?_ (by simp) (hkept hmarkers) (by simp)
    rw [Settles, hentry]
    rfl
  | unrecorded hfault hjobs hmarkers =>
    rw [hdb] at hfault
    cases hfault

lemma accountable_classifier (consumer : QueueConsumer) : Accountable (classifier consumer) where
  parseable payload := by
    simp [classifier, QueueConsumer.streamConsumer]
  unreadable store calls payload hkeys := by
    cases hdecode : consumer.decode payload with
    | error message => exact processJob_unreadable store calls hdecode
    | ok job => simp [classifier, hdecode, Except.toOption] at hkeys
  deals store calls payload entry hkeys hcalls hpayload := by
    cases hdecode : consumer.decode payload with
    | error message => simp [classifier, hdecode, Except.toOption] at hkeys
    | ok job =>
      refine deals_of_queue hcalls ?_ (Worker.processes_processJob store calls hdecode)
      simp [hpayload, classifier, hdecode, Except.toOption]

lemma mem_markers_markProcessed
    (hkey : key ∈ (pageFetcher fetcher).markers (store.markProcessed fetcher.cfg now idempotencyKey)) :
    key ∈ (pageFetcher fetcher).markers store ∨
      EntryRecord.completed idempotencyKey = .completed key := by
  rw [markers_pageFetcher, FetchStore.markProcessed, map_append, mem_append, map_cons,
    map_nil, mem_singleton] at hkey
  rw [markers_pageFetcher, EntryRecord.completed.injEq]
  exact hkey.imp_right Eq.symm

lemma deals_of_fetch (hdb : ¬calls.Faulty) (hurls : resolveCandidateUrls calls.services job ≠ [])
    (hentry : entry.payload.bind (pageFetcher fetcher).jobKeys =
      some { idempotencyKey := pageFetchIdempotencyKey job, normalizedKey := job.normalizedKey })
    (h : store.Processes fetcher.cfg calls job result) :
    Deals (pageFetcher fetcher) store entry result.records result.store := by
  cases h with
  | aborted error hwhy => exact absurd hwhy (not_or.2 ⟨hdb, hurls⟩)
  | duplicate hseen =>
    refine deals_cons ?_ ?_ (fun key hkey => Or.inl hkey) (by simp)
    · rw [Settles, hentry]
      rfl
    · intro key hkey
      cases hkey
      obtain ⟨marker, hmarker, hlive⟩ := any_eq_true.1 hseen
      exact mem_map.2 ⟨marker, hmarker, (of_decide_eq_true hlive).1⟩
  | skipped hneeds =>
    refine deals_cons ?_ (by simp) (fun key hkey => mem_markers_markProcessed hkey) (by simp)
    rw [Settles, hentry]
    rfl
  | fetched url =>
    refine deals_cons ?_ (by simp) ?_ (by simp)
    · rw [Settles, hentry]
      rfl
    · intro key hkey
      rw [FetchStore.storePage, FetchStore.finish] at hkey
      split at hkey
      · exact Or.inl hkey
      · exact mem_markers_markProcessed hkey
  | failed failure =>
    refine deals_cons ?_ (by simp) (fun key hkey => Or.inl hkey) (by simp)
    rw [Settles, hentry]
    rfl

lemma accountable_pageFetcher (fetcher : PageFetcher) : Accountable (pageFetcher fetcher) where
  parseable payload := by
    simp [pageFetcher, PageFetcher.streamConsumer]
  unreadable store calls payload hkeys := by
    cases hdecode : fetcher.decode payload with
    | error message => simp [pageFetcher, PageFetcher.streamConsumer, hdecode]
    | ok job => simp [pageFetcher, hdecode, Except.toOption] at hkeys
  deals store calls payload entry hkeys hcalls hpayload := by
    cases hdecode : fetcher.decode payload with
    | error message => simp [pageFetcher, hdecode, Except.toOption] at hkeys
    | ok job =>
      have hentry : entry.payload.bind (pageFetcher fetcher).jobKeys = some
            { idempotencyKey := pageFetchIdempotencyKey job
              normalizedKey := job.normalizedKey } := by
        simp [hpayload, pageFetcher, hdecode, Except.toOption]
      have hdeals := deals_of_fetch hcalls.1 (hcalls.2 job hdecode) hentry
        (Fetcher.processes_processJob store fetcher.cfg calls job)
      simpa [pageFetcher, PageFetcher.streamConsumer, hdecode] using hdeals

/-- **Acknowledged entries are settled.** In every run of either worker in which no entry is too old,
entries that cannot be read reach the dead-letter stream and the other calls of a job meet its condition,
an acknowledgement comes after a record that settles its entry, and a duplicate after the completed job. -/
theorem entries_settled (consumer : QueueConsumer) (fetcher : PageFetcher) : (∀ store events group,
      (∀ event ∈ events, Sound (classifier consumer) event) →
      run (next (classifier consumer)) (start (classifier consumer) store) events = some group →
      Justified (needs (classifier consumer)) group.log) ∧
    ∀ store events group, (∀ event ∈ events, Sound (pageFetcher fetcher) event) →
      run (next (pageFetcher fetcher)) (start (pageFetcher fetcher) store) events = some group →
      Justified (needs (pageFetcher fetcher)) group.log :=
  ⟨fun _ _ _ hsound hrun => (accountable_classifier consumer).justified hsound hrun,
    fun _ _ _ hsound hrun => (accountable_pageFetcher fetcher).justified hsound hrun⟩

/-! ### Runs with one job -/

/-- A fetcher that knows one job. -/
def onePage : PageFetcher where
  cfg := defaultFetchConfig
  decode text :=
    if text = "job" then
      .ok
        { normalizedKey := "domain:site.example"
          url := "https://site.example/"
          hostname := "site.example"
          candidateUrls := []
          traceId := none
          idempotencyKey := none
          ttlSeconds := none }
    else .error "expected value"

/-- No command of the loop fails. -/
def noFaults : EntryFaults := { deadLetter := none, acknowledge := none }

/-- The entries of the runs below, by their payload. -/
def entryOf (payload : String) : StreamEntry := { id := "1000-0", payload := some payload }

lemma sound_entryOf (hage : entryTooOld nowMs "1000-0" maxEntryAgeMs = false) :
    Sound (classifier oneJob) (.deliver (entryOf payload) (handledAs (.ok ())) noFaults nowMs) := by
  refine ⟨hage, ?_⟩
  split <;> rfl

lemma sound_page :
    Sound (pageFetcher onePage) (.deliver (entryOf "job") (fetchCallsAt 0 none) noFaults 2000) := by
  have hfaults : ¬(fetchCallsAt 0 none).Faulty := by simp [FetchCalls.Faulty, fetchCallsAt]
  refine ⟨by decide +kernel, hfaults, fun job hjob => ?_⟩
  cases hjob
  decide +kernel

/-- A job, the same job again and a payload that cannot be read; and a page that is fetched. -/
theorem fresh_entries_settled : (∃ group, run (next (classifier oneJob))
        (start (classifier oneJob) { markers := [], requests := [], jobs := [], fetchJobs := [] })
        [.deliver (entryOf "job") (handledAs (.ok ())) noFaults 2000,
          .deliver (entryOf "job") (handledAs (.ok ())) noFaults 3000,
          .deliver (entryOf "?") (handledAs (.ok ())) noFaults 4000] = some group ∧
      group.log.length = 6 ∧ Justified (needs (classifier oneJob)) group.log) ∧
    ∃ group, run (next (pageFetcher onePage))
        (start (pageFetcher onePage) { markers := [], contents := [] })
        [.deliver (entryOf "job") (fetchCallsAt 0 none) noFaults 2000] = some group ∧
      group.log.length = 2 ∧ Justified (needs (pageFetcher onePage)) group.log := by
  refine ⟨exists_of_run (by decide +kernel) fun group hrun _ =>
      (entries_settled oneJob onePage).1 _ _ group ?_ hrun,
    exists_of_run (by decide +kernel) fun group hrun _ =>
      (entries_settled oneJob onePage).2 _ _ group ?_ hrun⟩
  · refine forall_mem_cons.2 ⟨sound_entryOf (by decide +kernel), forall_mem_cons.2
      ⟨sound_entryOf (by decide +kernel), forall_mem_singleton.2 (sound_entryOf (by decide +kernel))⟩⟩
  · exact forall_mem_singleton.2 sound_page

/-- A job that has waited for more than five minutes is acknowledged, and nothing else happens. So is one
whose page cannot be stored. -/
theorem old_entry_lost : (run (next (classifier oneJob))
        (start (classifier oneJob) { markers := [], requests := [], jobs := [], fetchJobs := [] })
        [.deliver (entryOf "job") (handledAs (.ok ())) noFaults 301001]).map (·.log) =
      some [{ entry := some (entryOf "job"), record := .acknowledged }] ∧
    ¬Justified (needs (classifier oneJob))
      [{ entry := some (entryOf "job"), record := .acknowledged }] ∧
    (run (next (pageFetcher onePage)) (start (pageFetcher onePage) { markers := [], contents := [] })
        [.deliver (entryOf "job") (fetchCallsAt 0 (some "connection closed")) noFaults 2000]).map (·.log) =
      some [{ entry := some (entryOf "job"), record := .acknowledged }] ∧
    ¬Justified (needs (pageFetcher onePage))
      [{ entry := some (entryOf "job"), record := .acknowledged }] := by
  refine ⟨by decide +kernel, fun h => ?_, by decide +kernel, fun h => ?_⟩
  · obtain ⟨entry, record, -, hmem, -⟩ := h [] _ [] rfl
    cases hmem
  · obtain ⟨entry, record, -, hmem, -⟩ := h [] _ [] rfl
    cases hmem

end OpenDefender.System.Acknowledgement
