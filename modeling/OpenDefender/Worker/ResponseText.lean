import OpenDefender.Worker.Handler
import OpenDefender.Worker.Output

/-!
What becomes of a text that is no verdict (`parse_llm_json_text`, `classify_invocation_failure` of
`workers/llm-worker/src/main.rs`). Whether the output was invalid is read off the message of the error
(`invalid_output_settled_iff`).
-/

namespace OpenDefender.Worker

open Lib Text Procedure List

/-- `serde_json::from_str`: into an `LlmResponse`, with the message of the error, and into any value. -/
structure JsonParser where
  response : String → Except String LlmResponse
  accepts : String → Bool

/-- The text without the fences of a code block. -/
def stripFences (text : String) : String :=
  let text := trim text
  let text := ((stripPrefix "```json" text).or (stripPrefix "```" text)).elim text trim
  if endsWith text "```" then trim (String.ofList (text.toList.take (text.length - 3))) else text

/-- What is read of the text: a response or why there is none, of the whole text or of the first object in it. -/
def readResponse (parser : JsonParser) (text : String) : Option (Except String LlmResponse) :=
  match parser.response (stripFences text) with
  | .ok parsed => some (.ok parsed)
  | .error _ => (extractBalancedJsonObject parser.accepts (stripFences text)).map parser.response

/-- `parse_llm_json_text`. -/
def parseLlmJsonText (parser : JsonParser) (text : String) : Except InvocationError LlmResponse :=
  match readResponse parser text with
  | some (.ok parsed) => parsed.normalize
  | some (.error message) => .error { message, request := none }
  | none => .error { message := "llm response did not contain valid JSON object", request := none }

/-- The message quotes one of the phrases by which invalid output is known. -/
def Quotes (message : String) : Prop := isOutputInvalidMessage (toAsciiLowercase message) = true

/-- The response is refused for its action alone, and the name of the action quotes a phrase. -/
structure QuotedAction (r : LlmResponse) : Prop where
  confidence : 0 ≤ r.confidence ∧ r.confidence ≤ 1
  riskLevel : toLowercase r.riskLevel ∈ ["low", "medium", "high", "critical"]
  action : Quotes (toLowercase r.recommendedAction)

/-- The text holds no object, or the name of its action or the message of the JSON parser quotes a phrase. -/
def Recognisable (parser : JsonParser) (text : String) : Prop :=
  match readResponse parser text with
  | some (.ok parsed) => QuotedAction parsed
  | some (.error message) => Quotes message
  | none => True

/-- The verdict is that of the online verification, or the one for insufficient evidence. -/
def Settled (consumer : JobConsumer) (job : ClassificationJobPayload) (retryInstruction : Option String)
    (invocation : Invocation) : Prop :=
  (∃ reason, invocation = insufficientEvidence reason) ∨
    ∃ call, invocation = (prepareOnlineVerificationRequest consumer job retryInstruction).answered call

/-- A list in which the phrase cannot begin says nothing of it. -/
lemma isInfix_append_iff {a b phrase : List Char}
    (h : ∀ t ∈ a.tails, t = [] ∨ ¬ phrase.take t.length <+: t) : phrase <:+: a ++ b ↔ phrase <:+: b := by
  induction a with
  | nil => rfl
  | cons c a ih =>
    rw [cons_append, infix_cons_iff, ih fun t ht => h t (by simp [ht])]
    refine or_iff_right fun hbegins => (h (c :: a) (by simp)).elim (by simp) fun hnot => hnot ?_
    simpa using hbegins.take (c :: a).length

lemma quotes_invalid_action (action : String) :
    Quotes ("invalid recommended_action: " ++ action) ↔ Quotes action := by
  have hlower : toAsciiLowercase "invalid recommended_action: " = "invalid recommended_action: " := by decide
  simp only [Quotes, isOutputInvalidMessage, toAsciiLowercase_append, hlower, Bool.or_eq_true, contains_iff,
    String.toList_append]
  repeat rw [isInfix_append_iff (by decide +kernel)]

lemma quotes_of_normalize (h : r.normalize = .error err) : Quotes err.message ↔ QuotedAction r := by
  revert h
  fun_cases LlmResponse.normalize r <;> rintro ⟨⟩
  case case1 hconfidence => exact iff_of_false (by unfold Quotes; decide +kernel) fun hr => hconfidence hr.confidence
  case case2 hrisk => exact iff_of_false (by unfold Quotes; decide +kernel) fun hr => hrisk hr.riskLevel
  case case4 hconfidence hrisk _ =>
    rw [quotes_invalid_action]
    exact ⟨fun hr => ⟨not_not.1 hconfidence, not_not.1 hrisk, hr⟩, QuotedAction.action⟩

lemma quotes_of_parse (h : parseLlmJsonText parser text = .error err) :
    Quotes err.message ↔ Recognisable parser text := by
  rw [parseLlmJsonText] at h
  rw [Recognisable]
  split at h
  · exact quotes_of_normalize h
  · cases h
    exact Iff.rfl
  · cases h
    exact iff_of_true (by unfold Quotes; decide +kernel) trivial

lemma outputInvalid_iff (err : InvocationError) (failover : FailoverRuntime) :
    (classifyInvocationFailure err failover).outputInvalid = true ↔ Quotes err.message := by
  have hmessage : (classifyInvocationFailure err failover).outputInvalid =
      isOutputInvalidMessage (toAsciiLowercase err.message) := by
    simp only [classifyInvocationFailure]
    split <;> simp only
  rw [hmessage, Quotes]

lemma ends_invokeLlm (env : Environment) (provider : ResolvedProvider) (job : ClassificationJobPayload)
    (prompt : String) : Ends (invokeLlm env provider job prompt) fun _ => True := by
  refine .bind (fun w => ⟨_, _, rfl, trivial⟩ : Ends interact fun _ => True) fun t _ => ?_
  refine .bind (fun w => ⟨_, _, rfl, trivial⟩ : Ends (perform _) fun _ => True) fun _ _ => ?_
  split
  · exact .pure trivial
  · split <;> exact .pure trivial

/-- **Invalid output never fails the job.** -/
lemma ends_afterPrimaryFailure (env : Environment) (consumer : JobConsumer) (job : ClassificationJobPayload)
    (retryInstruction : Option String) (primary : ResolvedProvider) {failure : InvocationFailure}
    (h : failure.outputInvalid = true) :
    Ends (afterPrimaryFailure env consumer job retryInstruction primary failure)
      (Settled consumer job retryInstruction) := by
  simp only [afterPrimaryFailure, shouldAttemptFallback, h, if_true, Bool.not_true, Bool.false_eq_true, if_false]
  split
  · exact .pure (Or.inl ⟨_, rfl⟩)
  · refine .bind (fun w => ⟨_, _, rfl, trivial⟩ : Ends (takeFallbackBudget _ _) fun _ => True) fun budget _ => ?_
    cases budget with
    | error blockedReason => exact .pure (Or.inl ⟨_, rfl⟩)
    | ok _ =>
      simp only [callFallback, fallbackRequest, h, if_true]
      refine .bind (.pure rfl : Ends _ (· = prepareOnlineVerificationRequest consumer job retryInstruction)) ?_
      rintro request rfl
      refine (ends_invokeLlm _ _ _ _).bind fun result _ => ?_
      cases result with
      | ok call => exact .pure (Or.inr ⟨call, rfl⟩)
      | error err =>
        refine .bind (fun w => ⟨_, _, rfl, trivial⟩ : Ends (tripFallbackCooldown _ _) fun _ => True) fun _ _ => ?_
        exact .pure (Or.inl ⟨_, rfl⟩)

/-- **Texts that are no verdict.** Their error counts as invalid output, and is settled by the online verification or
the verdict for insufficient evidence, exactly if the text is `Recognisable`. -/
theorem invalid_output_settled_iff (parser : JsonParser) (text : String) (err : InvocationError)
    (h : parseLlmJsonText parser text = .error err) (env : Environment) (consumer : JobConsumer)
    (job : ClassificationJobPayload) (retryInstruction : Option String) (primary : ResolvedProvider) :
    (classifyInvocationFailure err consumer.failover).outputInvalid = true ∧
      Ends (afterPrimaryFailure env consumer job retryInstruction primary
        (classifyInvocationFailure err consumer.failover)) (Settled consumer job retryInstruction) ↔
      Recognisable parser text := by
  rw [← quotes_of_parse h, ← outputInvalid_iff err consumer.failover]
  exact and_iff_left_of_imp (ends_afterPrimaryFailure env consumer job retryInstruction primary)

/-- A text without an object. -/
theorem plain_answer_settled :
    let parser : JsonParser := { response := fun _ => .error "expected value", accepts := fun _ => false }
    let err : InvocationError := { message := "llm response did not contain valid JSON object", request := none }
    parseLlmJsonText parser "I cannot tell." = .error err ∧
      (classifyInvocationFailure err sampleConsumer.failover).outputInvalid = true := by
  intro parser err
  have hparse : parseLlmJsonText parser "I cannot tell." = .error err := by decide +kernel
  have hnone : readResponse parser "I cannot tell." = none := by decide +kernel
  refine ⟨hparse, ((invalid_output_settled_iff parser "I cannot tell." err hparse sampleEnvironment sampleConsumer
    sampleJob none sampleConsumer.router.primary).2 ?_).1⟩
  rw [Recognisable, hnone]
  trivial

/-- An object with confidence 2 fails the job. -/
theorem confidence_fails_job :
    let parser : JsonParser :=
      { response := fun _ => .ok
          { primaryCategory := "news", subcategory := "general", riskLevel := "low", confidence := 2
            recommendedAction := "allow" }
        accepts := fun _ => true }
    let err : InvocationError := { message := "confidence must be between 0 and 1", request := none }
    parseLlmJsonText parser "\x7b\x7d" = .error err ∧
      (afterPrimaryFailure sampleEnvironment sampleConsumer sampleJob none sampleConsumer.router.primary
        (classifyInvocationFailure err sampleConsumer.failover) sampleWorld).map Prod.fst = .error (.nonRetryable
          "primary provider failed and fallback skipped: confidence must be between 0 and 1") := by
  decide +kernel

end OpenDefender.Worker
