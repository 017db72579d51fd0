import OpenDefender.Worker.Handler

/-!
Verdicts without page content (`handle_job` of `workers/llm-worker/src/main.rs`). `metadata_only_verdict` is
about every path to a stored row.
-/

namespace OpenDefender.Worker

open Lib Text Procedure

variable {consumer : JobConsumer} {job : ClassificationJobPayload} {invocation : Invocation}

lemma excerpt_isSome {call : ProviderCall} (h : hasContent call.job.contentExcerpt = true) : call.excerpt ≠ none := by
  obtain ⟨text, htext, hne⟩ := (Option.any_eq_true _ _).1 h
  have hexcerpt : jobExcerpt call.job = some (trim text) := by simp_all [jobExcerpt]
  unfold ProviderCall.excerpt
  split <;> simp [hexcerpt]

/-- A verdict without an excerpt was asked for without one. -/
lemma Invocation.Made.of_excerpt_none (h : invocation.Made consumer job)
    (hnone : invocation.call.bind ProviderCall.excerpt = none) :
    invocation.contextMode = .metadataOnly ∧ ∀ call, invocation.call = some call →
      call.job.contentExcerpt = none ∧ ∃ retryInstruction, call.prompt = buildPrompt job.withoutContent
        (buildTaxonomyPrompt consumer.taxonomy.taxonomy) retryInstruction .metadataOnly := by
  cases h with
  | synthesized reason => exact ⟨rfl, fun call hcall => by cases hcall⟩
  | answered request call hrequest hcall =>
    obtain ⟨⟨hmode, -⟩, hbare⟩ := hrequest
    obtain ⟨hwith, hhas⟩ | ⟨hmode, -⟩ := hmode
    · rw [← hcall.job] at hhas
      exact absurd hnone (excerpt_isSome hhas)
    · have hbare := hbare.resolve_left (by rw [hmode]; decide)
      refine ⟨hmode, fun call' hsame => ?_⟩
      cases hsame
      exact ⟨hcall.job ▸ hbare.excerpt, hcall.prompt ▸ hbare.prompt⟩

/-- The guardrail against prompt injection takes action on a job. -/
def JobConsumer.guards (consumer : JobConsumer) (job : ClassificationJobPayload) : Bool :=
  consumer.promptInjection.enabled && decide (consumer.promptInjection.Suspects job.contentExcerpt)

/-- The action for verdicts without content. -/
def metadataOnlyAction (consumer : JobConsumer) (job : ClassificationJobPayload) (response : LlmResponse) : PolicyAction :=
  if labelEnabled consumer response then
    if consumer.guards job then .review else consumer.onlineContext.metadataOnlyForceAction
  else .block

lemma finalProposal_metadataOnly (consumer : JobConsumer) (job : ClassificationJobPayload) (recommended : PolicyAction)
    (hmode : invocation.contextMode = .metadataOnly) :
    (finalProposal consumer job invocation recommended).action = metadataOnlyAction consumer job invocation.response ∧
      (finalProposal consumer job invocation recommended).confidence ≤ consumer.onlineContext.metadataOnlyMaxConfidence := by
  have hcap (p : Proposal) : (metadataOnlyGuardrail consumer.onlineContext invocation.contextMode p).confidence ≤
      consumer.onlineContext.metadataOnlyMaxConfidence := by
    simp only [metadataOnlyGuardrail, hmode, if_true]
    split <;> linarith
  have hguard (p : Proposal) : (promptInjectionGuardrail consumer.promptInjection job.contentExcerpt p).confidence ≤
      p.confidence := by
    unfold promptInjectionGuardrail
    split
    · dsimp only
      split <;> linarith
    · exact le_rfl
  have hconfidence := (hguard _).trans (hcap ⟨recommended, invocation.response.confidence⟩)
  unfold finalProposal metadataOnlyAction
  cases labelEnabled consumer invocation.response with
  | false => exact ⟨rfl, hconfidence⟩
  | true =>
    refine ⟨?_, hconfidence⟩
    simp only [promptInjectionGuardrail, metadataOnlyGuardrail, hmode, JobConsumer.guards, PromptInjectionRuntime.Suspects,
      if_true]
    split
    · rename_i hfires
      exact (if_pos hfires).symm
    · rename_i hsilent
      exact (if_neg hsilent).symm

/-- **Verdicts without page content.** No excerpt was sent in the call that the stored verdict comes from, or there was no
call: the request carried no content, neither in its prompt nor in its job. The action that is stored is that for such
verdicts, or `Review` where the guardrail fires, or `Block` where the label is switched off; the confidence that is
stored is at most the cap, also as the column keeps it where it keeps the cap. -/
theorem metadata_only_verdict (env : Environment) (consumer : JobConsumer) (job : ClassificationJobPayload) (w w' : World)
    (report : JobReport) (hrun : classifyJob env consumer job w = .ok (report, w'))
    (hnone : report.invocation.call.bind ProviderCall.excerpt = none) :
    (∀ call, report.invocation.call = some call → call.job.contentExcerpt = none ∧
      ∃ retryInstruction, call.prompt = buildPrompt job.withoutContent
        (buildTaxonomyPrompt consumer.taxonomy.taxonomy) retryInstruction .metadataOnly) ∧
    ∃ row confidence kept, storedRow report.table job.normalizedKey = some row ∧
      row.recommendedAction = (metadataOnlyAction consumer job report.invocation.response).display ∧
      confidence ≤ consumer.onlineContext.metadataOnlyMaxConfidence ∧
      row.confidence = some kept ∧ numericColumn confidence = some kept ∧
      (numericColumn consumer.onlineContext.metadataOnlyMaxConfidence =
        some consumer.onlineContext.metadataOnlyMaxConfidence →
        kept ≤ consumer.onlineContext.metadataOnlyMaxConfidence) := by
  obtain ⟨hmade, recommended, -, row, kept, hrow, haction, hkept, hcolumn⟩ :=
    classifyJob_stores env consumer job w report w' hrun
  obtain ⟨hmode, hcall⟩ := hmade.of_excerpt_none hnone
  obtain ⟨hforced, hcap⟩ := finalProposal_metadataOnly consumer job recommended hmode
  rw [hforced] at haction
  exact ⟨hcall, row, _, kept, hrow, haction, hcap, hkept, hcolumn, fun h => numericColumn_le hcap hcolumn h⟩

/-- The page has not been fetched. -/
def emptyEnvironment : Environment := { sampleEnvironment with pageContents := fun _ => [] }

/-- The provider is asked about a domain without its page, and is sure that it is to be allowed: it is to be watched, with
less confidence. -/
theorem metadata_only_verdict_example :
    ∃ report w' row, classifyJob emptyEnvironment sampleConsumer { sampleJob with requiresContent := false } sampleWorld =
        .ok (report, w') ∧ report.invocation.call.isSome = true ∧
      report.invocation.call.bind ProviderCall.excerpt = none ∧
      storedRow report.table sampleJob.normalizedKey = some row ∧ row.recommendedAction = "Monitor" ∧
      ∃ kept, row.confidence = some kept ∧ kept ≤ 40 / 100 := by
  have hend : (classifyJob emptyEnvironment sampleConsumer { sampleJob with requiresContent := false }
      sampleWorld).toOption.any (fun r => r.1.invocation.call.isSome ∧
        r.1.invocation.call.bind ProviderCall.excerpt = none ∧
        metadataOnlyAction sampleConsumer { sampleJob with requiresContent := false } r.1.invocation.response =
          .monitor) = true := by
    decide +kernel
  obtain ⟨⟨report, w'⟩, hrun, hfacts⟩ := (Option.any_eq_true _ _).1 hend
  obtain ⟨hcall, hnone, haction⟩ := of_decide_eq_true hfacts
  have hrun := Outcome.toOption_eq_some.1 hrun
  obtain ⟨-, row, _, kept, hrow, hrowAction, -, hkept, -, hcap⟩ :=
    metadata_only_verdict emptyEnvironment sampleConsumer _ sampleWorld w' report hrun hnone
  exact ⟨report, w', row, hrun, hcall, hnone, hrow, hrowAction.trans (congrArg PolicyAction.display haction), kept, hkept,
    hcap (by decide +kernel)⟩

end OpenDefender.Worker
