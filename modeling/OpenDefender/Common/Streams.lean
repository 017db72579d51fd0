import OpenDefender.Lib.Text

/-!
Redis streams as the workers consume them (`workers/llm-worker/src/main.rs`,
`workers/page-fetcher/src/main.rs`): the jobs come as entries with a JSON payload, and an entry is
acknowledged when it has been dealt with.

The two workers have the same loop, each with its own `process_job`: `StreamConsumer.handleEntry` is the
body of this loop. What a worker does with an entry is kept as records, in the order in which it does it.
-/

namespace OpenDefender

open Lib Text

/-- An entry of a stream; `payload` is the field of this name, if there is one. -/
structure StreamEntry where
  id : String
  payload : Option String
  deriving DecidableEq, Repr

/-- The digits of a number, most significant first. -/
def decimalValue (digits : List Char) : ℕ :=
  digits.foldl (fun value c => 10 * value + (c.toNat - '0'.toNat)) 0

/-- `str::parse::<u64>`. -/
def parseU64 (s : String) : Option ℕ :=
  let digits := match s.toList with
    | '+' :: rest => rest
    | all => all
  if !digits.isEmpty && digits.all Char.isDigit && decimalValue digits < 2 ^ 64 then
    some (decimalValue digits)
  else none

/-- `entry_too_old`: the id of an entry starts with the time it was added, in milliseconds. -/
def entryTooOld (nowMs : ℕ) (entryId : String) (maxAgeMs : ℕ) : Bool :=
  match splitOnce "-" entryId with
  | none => false
  | some (millis, _) =>
    match parseU64 millis with
    | none => false
    | some addedMs => decide (maxAgeMs < nowMs - addedMs)

/-- The age that both workers pass to `entry_too_old`. -/
def maxEntryAgeMs : ℕ := 300000

/-- What a worker does with an entry. -/
inductive EntryRecord where
  | completed (idempotencyKey : String)
  | skippedDuplicate (idempotencyKey : String)
  | requeued (payload : String)
  | recordedFailed (normalizedKey status : String)
  | deadLettered (reason : String) (payload : Option String)
  | acknowledged
  deriving DecidableEq, Repr

/-- What `process_job` leaves: whether it returned `Ok`, the state outside, and what it has done. -/
structure JobResult (σ : Type) where
  ok : Bool
  store : σ
  records : List EntryRecord

/-- A worker of a stream, over the state `σ` outside of it. What the calls of `process_job` are answered
comes as a `γ`. -/
structure StreamConsumer (σ γ : Type) where
  parseable : String → Bool
  processJob : σ → γ → String → JobResult σ

/-- Which commands of the loop fail. -/
structure EntryFaults where
  deadLetter : Option String
  acknowledge : Option String
  deriving DecidableEq, Repr

/-- `publish_dead_letter`, whose errors are ignored. -/
def publishDeadLetter (faults : EntryFaults) (reason : String) (payload : Option String) :
    List EntryRecord :=
  if faults.deadLetter.isSome then [] else [.deadLettered reason payload]

/-- `XACK`, whose errors are ignored. -/
def acknowledge (faults : EntryFaults) : List EntryRecord :=
  if faults.acknowledge.isSome then [] else [.acknowledged]

/-- The body of the loop: an entry that is too old is acknowledged and that is all. -/
def StreamConsumer.handleEntry {σ γ : Type} (consumer : StreamConsumer σ γ) (store : σ) (calls : γ)
    (faults : EntryFaults) (nowMs : ℕ) (entry : StreamEntry) : σ × List EntryRecord :=
  if entryTooOld nowMs entry.id maxEntryAgeMs then (store, acknowledge faults)
  else
    match entry.payload with
    | some payload =>
      let result := consumer.processJob store calls payload
      let deadLetter :=
        if !result.ok && !consumer.parseable payload then
          publishDeadLetter faults "invalid_payload" (some payload)
        else []
      (result.store, result.records ++ deadLetter ++ acknowledge faults)
    | none => (store, publishDeadLetter faults "missing_payload" none ++ acknowledge faults)

end OpenDefender
