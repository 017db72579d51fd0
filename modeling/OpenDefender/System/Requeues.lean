import OpenDefender.Worker.Queue

/-!
A classification job along its chain of requeues: every entry of the chain is delivered once, and what the
handler answers is anything.

`requeues_bounded` says how often the job is put back, and how the chain ends.
-/

namespace OpenDefender.System.Requeues

open Worker Lib Lib.Run List

/-- A chain: the entries that are not yet delivered, what is outside, the jobs that have been delivered,
and whether a handler has succeeded. -/
structure Chain where
  waiting : List String
  store : QueueStore
  delivered : List ClassificationJobPayload
  succeeded : Bool

/-- The next entry is delivered. What the worker puts back is waiting afterwards. -/
def next (consumer : QueueConsumer) (chain : Chain) (calls : JobCalls) : Option Chain :=
  match chain.waiting with
  | [] => none
  | payload :: rest =>
    let result := consumer.processJob chain.store calls payload
    some
      { waiting := rest ++ result.store.jobs.drop chain.store.jobs.length
        store := result.store
        delivered := chain.delivered ++ (consumer.decode payload).toOption.toList
        succeeded := chain.succeeded ||
          result.records.any fun record => record matches .completed _ }

/-- A job in the stream. -/
def start (store : QueueStore) (payload : String) : Chain :=
  { waiting := [payload], store, delivered := [], succeeded := false }

/-- JSON brings the job back as it was, whatever its counter. -/
def RoundTrips (consumer : QueueConsumer) (job : ClassificationJobPayload) : Prop :=
  ∀ attempt, ∃ text, consumer.encode { job with requeueAttempt := attempt } = .ok text ∧
    consumer.decode text = .ok { job with requeueAttempt := attempt }

/-- The second job is the first with the next counter. -/
def Advances (job copy : ClassificationJobPayload) : Prop :=
  copy = { job with requeueAttempt := job.requeueAttempt + 1 }

/-! ### The invariant -/

/-- The last job of the chain is waiting, and none has succeeded. -/
structure Live (consumer : QueueConsumer) (chain : Chain) (last : ClassificationJobPayload) : Prop where
  waiting : ∃ payload, chain.waiting = [payload] ∧ consumer.decode payload = .ok last
  unmarked : classificationIdempotencyKey last ∉ chain.store.markers

/-- The chain has ended, with a handler that succeeded or with a request marked as failed. -/
structure Ended (chain : Chain) (normalizedKey : String) : Prop where
  waiting : chain.waiting = []
  settled : chain.succeeded = true ∨
    (requestOf chain.store.requests normalizedKey).map (·.status) = some "failed"

/-- The jobs that have been put back after the first one, and the last of them all. -/
structure Copies (consumer : QueueConsumer) (before : List String) (job : ClassificationJobPayload)
    (jobs : List String) (texts : List String) (copies : List ClassificationJobPayload)
    (last : ClassificationJobPayload) : Prop where
  added : jobs = before ++ texts
  decoded : List.Forall₂ (fun text copy => consumer.decode text = .ok copy) texts copies
  advances : List.IsChain Advances (job :: copies)
  getLast : (job :: copies).getLast? = some last
  last_eq : last = { job with requeueAttempt := job.requeueAttempt + copies.length }
  room : copies.length ≤ consumer.maxRequeueAttempts - job.requeueAttempt

/-- Where a chain is. -/
def Inv (consumer : QueueConsumer) (before : List String) (job : ClassificationJobPayload)
    (chain : Chain) : Prop :=
  ∃ texts copies last, Copies consumer before job chain.store.jobs texts copies last ∧
    (Live consumer chain last ∨ Ended chain job.normalizedKey)

variable {consumer : QueueConsumer} {before : List String} {job last : ClassificationJobPayload}
  {texts jobs : List String} {copies : List ClassificationJobPayload}

/-- Below the limit the counter does not saturate. -/
lemma nextAttempt_eq (hattempt : last.requeueAttempt < consumer.maxRequeueAttempts) :
    last.nextAttempt = { last with requeueAttempt := last.requeueAttempt + 1 } := by
  have hlt := consumer.attempts_lt
  rw [ClassificationJobPayload.nextAttempt, min_eq_left (by omega)]

/-- What is put back is read as the job with the next counter. -/
lemma decode_outbound (hjson : RoundTrips consumer job)
    (hcopies : Copies consumer before job jobs texts copies last)
    (hattempt : last.requeueAttempt < consumer.maxRequeueAttempts) (payload : String) :
    consumer.decode (consumer.outbound payload (some last)) =
      .ok { last with requeueAttempt := last.requeueAttempt + 1 } := by
  obtain ⟨text, hencode, hdecode⟩ := hjson (last.requeueAttempt + 1)
  have hlast : { last with requeueAttempt := last.requeueAttempt + 1 } =
      { job with requeueAttempt := last.requeueAttempt + 1 } := by
    rw [hcopies.last_eq]
  rw [QueueConsumer.outbound, nextAttempt_eq hattempt, hlast, hencode]
  exact hdecode

/-- One more copy. -/
lemma Copies.concat (h : Copies consumer before job jobs texts copies last)
    (hattempt : last.requeueAttempt < consumer.maxRequeueAttempts)
    (hdecode : consumer.decode text = .ok { last with requeueAttempt := last.requeueAttempt + 1 }) :
    Copies consumer before job (jobs ++ [text]) (texts ++ [text])
      (copies ++ [{ last with requeueAttempt := last.requeueAttempt + 1 }])
      { last with requeueAttempt := last.requeueAttempt + 1 } where
  added := by rw [h.added, append_assoc]
  decoded := rel_append h.decoded (.cons hdecode .nil)
  advances := by
    rw [← cons_append]
    refine h.advances.append (isChain_singleton _) ?_
    intro x hx y hy
    obtain rfl : last = x := Option.some.inj (h.getLast.symm.trans hx)
    cases hy
    exact rfl
  getLast := by
    rw [← cons_append]
    exact getLast?_concat
  last_eq := by
    rw [h.last_eq, length_append, length_singleton, Nat.add_assoc]
  room := by
    have hcount : last.requeueAttempt = job.requeueAttempt + copies.length := by rw [h.last_eq]
    rw [length_append, length_singleton]
    omega

/-! ### Steps -/

lemma next_of_waiting (hwaiting : chain.waiting = [payload])
    (hdecode : consumer.decode payload = .ok last) (h : next consumer chain calls = some chain') :
    chain' =
      { waiting := (consumer.processJob chain.store calls payload).store.jobs.drop
          chain.store.jobs.length
        store := (consumer.processJob chain.store calls payload).store
        delivered := chain.delivered ++ [last]
        succeeded := chain.succeeded ||
          (consumer.processJob chain.store calls payload).records.any
            fun record => record matches .completed _ } := by
  rw [next, hwaiting] at h
  rw [← Option.some.inj h, hdecode]
  rfl

lemma inv_next (hjson : RoundTrips consumer job) (hinv : Inv consumer before job chain)
    (hdb : calls.pendingError = none) (h : next consumer chain calls = some chain') :
    Inv consumer before job chain' := by
  obtain ⟨texts, copies, last, hcopies, hlive | hended⟩ := hinv
  · obtain ⟨payload, hwaiting, hdecode⟩ := hlive.waiting
    rw [next_of_waiting hwaiting hdecode h]
    have hkey : last.normalizedKey = job.normalizedKey := by rw [hcopies.last_eq]
    cases hprocess : consumer.processJob chain.store calls payload with
    | mk ok store records =>
      have hcases := processes_processJob chain.store calls hdecode
      rw [hprocess] at hcases
      cases hcases with
      | duplicate hseen => exact absurd hseen hlive.unmarked
      | completed hhandled hjobs hmarkers =>
        refine ⟨texts, copies, last, by rwa [hjobs], Or.inr ⟨?_, Or.inl ?_⟩⟩
        · rw [hjobs, drop_length]
        · simp
      | requeued hattempt hjobs hmarkers hmore =>
        have hdecode' := decode_outbound hjson hcopies hattempt payload
        refine ⟨_, _, _, by rw [hjobs]; exact hcopies.concat hattempt hdecode', Or.inl ⟨?_, ?_⟩⟩
        · refine ⟨_, ?_, hdecode'⟩
          rw [hjobs, drop_left]
        · rw [hmarkers]
          exact hlive.unmarked
      | failed hjobs hmarkers hrow =>
        refine ⟨texts, copies, last, by rwa [hjobs], Or.inr ⟨?_, Or.inr ?_⟩⟩
        · rw [hjobs, drop_length]
        · rw [← hkey]
          exact hrow
      | unrecorded hfault hjobs hmarkers =>
        rw [hdb] at hfault
        cases hfault
  · rw [next, hended.waiting] at h
    cases h

/-- **The chain of requeues of a job.** It is put back at most as often as the limit is above its first
counter, each copy differs from its predecessor in the counter only, and if the chain has ended without a
handler that succeeded, the request of its key is marked as failed. -/
theorem requeues_bounded (consumer : QueueConsumer) (job : ClassificationJobPayload)
    (hjson : RoundTrips consumer job) (store : QueueStore) (payload : String)
    (hdecode : consumer.decode payload = .ok job)
    (hnew : classificationIdempotencyKey job ∉ store.markers) (events : List JobCalls)
    (hdb : ∀ calls ∈ events, calls.pendingError = none) (t : Chain)
    (hrun : run (next consumer) (start store payload) events = some t) :
    ∃ texts copies, t.store.jobs = store.jobs ++ texts ∧
      List.Forall₂ (fun text copy => consumer.decode text = .ok copy) texts copies ∧
      copies.length ≤ consumer.maxRequeueAttempts - job.requeueAttempt ∧
      List.IsChain Advances (job :: copies) ∧
      (t.waiting = [] → t.succeeded = false →
        (requestOf t.store.requests job.normalizedKey).map (·.status) = some "failed") := by
  have hstart : Inv consumer store.jobs job (start store payload) := by
    refine ⟨[], [], job, ⟨?_, .nil, isChain_singleton _, rfl, rfl, Nat.zero_le _⟩, Or.inl ?_⟩
    · exact (append_nil _).symm
    · exact ⟨⟨payload, rfl, hdecode⟩, hnew⟩
  have hguard : Guarded (next consumer) (fun _ calls => calls.pendingError = none)
      (start store payload) events :=
    guarded_of_forall hdb
  obtain ⟨texts, copies, last, hcopies, hwhere⟩ :=
    hguard.invariant (Inv consumer store.jobs job) (fun _ _ _ => inv_next hjson) hstart hrun
  refine ⟨texts, copies, hcopies.added, hcopies.decoded, hcopies.room, hcopies.advances,
    fun hwaiting hfailed => ?_⟩
  obtain hlive | hended := hwhere
  · obtain ⟨payload, hone, -⟩ := hlive.waiting
    rw [hwaiting] at hone
    cases hone
  · exact hended.settled.resolve_left (by rw [hfailed]; exact Bool.false_ne_true)

/-! ### A chain that ends -/

/-- A job of which only the counter is written, as so many strokes. -/
def strokes (job : ClassificationJobPayload) : QueueConsumer where
  maxRequeueAttempts := 2
  one_le_attempts := by decide
  attempts_lt := by decide
  decode text := .ok { job with requeueAttempt := text.length }
  encode copy := .ok (String.ofList (List.replicate copy.requeueAttempt '|'))

lemma roundTrips_strokes (job : ClassificationJobPayload) : RoundTrips (strokes job) job := by
  intro attempt
  refine ⟨_, rfl, ?_⟩
  rw [strokes]
  simp

/-- A job that waits for its page. -/
def waitingJob : ClassificationJobPayload where
  normalizedKey := "domain:site.example"
  entityLevel := "domain"
  hostname := "site.example"
  fullUrl := "https://site.example/"
  traceId := "t1"
  requiresContent := true

/-- A page that never comes: two copies, and a request marked as failed. -/
theorem exhausted_chain :
    let store : QueueStore := { markers := [], requests := [], jobs := [], fetchJobs := [] }
    ∃ t, run (next (strokes waitingJob)) (start store "")
        [handledAs (.error .contentNotReady), handledAs (.error (.retryable "timeout")),
          handledAs (.error .contentNotReady)] = some t ∧
      t.waiting = [] ∧ t.store.jobs = ["|", "||"] ∧
      ∃ texts copies, t.store.jobs = [] ++ texts ∧
        List.Forall₂ (fun text copy => (strokes waitingJob).decode text = .ok copy) texts copies ∧
        copies.length ≤ 2 ∧ List.IsChain Advances (waitingJob :: copies) ∧
        (t.waiting = [] → t.succeeded = false →
          (requestOf t.store.requests waitingJob.normalizedKey).map (·.status) = some "failed") := by
  intro store
  refine exists_of_any (fun t => t.waiting = [] && t.store.jobs = ["|", "||"]) (by decide +kernel)
    fun t hrun hchain => ?_
  rw [Bool.and_eq_true, decide_eq_true_iff, decide_eq_true_iff] at hchain
  exact ⟨hchain.1, hchain.2,
    requeues_bounded (strokes waitingJob) waitingJob (roundTrips_strokes waitingJob) store "" rfl
      (by decide +kernel) _ (by simp [handledAs]) t hrun⟩

end OpenDefender.System.Requeues
