import OpenDefender.Engine.Decision
import OpenDefender.Engine.OverrideRows

/-!
The decision endpoint when its queries fail.

A request makes two queries, one for the overrides and one for the hints of a persisted classification. An error of
either is not an error of the request: without its rows the request is decided as if there were none. So a host that an
override blocks is only stopped for certain if the override query returns its rows and the lookup can read them
(`covered_host_stopped_iff`).
-/

namespace OpenDefender.Engine

open Lib Text

/-! ### Requests with the results of their queries -/

/-- What the two queries of a request come to: what they return, or an error of the database. -/
structure QueryResults where
  overrides : Except String (List OverrideRow)
  classification : Except String (Option ClassificationRow)

/-- `resolve_override_decision`; an error of the query is no decision. -/
def resolveOverrideQuery (result : Except String (List OverrideRow)) (normalizedKey : String) :
    Option PolicyDecision :=
  result.toOption.bind fun rows => decideRows rows normalizedKey

/-- `hydrate_request_hints`; an error of the query leaves the request as it is. -/
def hydrateFrom (result : Except String (Option ClassificationRow)) (request : DecisionRequest) : DecisionRequest :=
  if request.categoryHint.isSome && request.subcategoryHint.isSome && request.riskHint.isSome &&
      request.confidenceHint.isSome then request
  else
    match result with
    | .ok (some row) => applyPersistedHints request row
    | .ok none => request
    | .error _ => request

/-- `handle_decision`. -/
def handleDecisionWith (state : AppState) (results : QueryResults) (payload : DecisionRequest) :
    Except ErrorResponse PolicyDecision :=
  if payload.normalizedKey.isEmpty then
    .error { status := 400, errorCode := "VALIDATION_ERROR", message := "normalized_key required" }
  else
    match resolveOverrideQuery results.overrides payload.normalizedKey with
    | some decision => .ok decision
    | none =>
      let simulation := state.evaluator.simulate (hydrateFrom results.classification payload)
      .ok { simulation.decision with
            decisionSource := some (decisionSourceForSimulation state simulation) }

/-- On a reachable database the queries return the rows of the tables. -/
theorem handleDecision_eq_with (hpool : state.classificationPool = some tables) (now : ℕ)
    (payload : DecisionRequest) :
    handleDecision state now payload = handleDecisionWith state
      { overrides := .ok (activeDomainOverrides tables.overrides now)
        classification := .ok (selectedRow tables.classifications payload.normalizedKey) } payload := by
  have hoverride : state.overrideFor now payload.normalizedKey =
      resolveOverrideQuery (.ok (activeDomainOverrides tables.overrides now)) payload.normalizedKey := by
    rw [AppState.overrideFor, hpool]
    rfl
  have hhints : state.hydrated payload =
      hydrateFrom (.ok (selectedRow tables.classifications payload.normalizedKey)) payload := by
    rw [AppState.hydrated, hpool]
    dsimp only
    unfold hydrateRequestHints hydrateFrom
    cases selectedRow tables.classifications payload.normalizedKey <;> rfl
  rw [handleDecision, hoverride, hhints]
  rfl

/-! ### Hosts that an override blocks -/

/-- The actions for which the adaptor's `icap_response` lets a request through: it answers 204 to allow and monitor and
sends a page in place of the request to all others. -/
def letsThrough : PolicyAction → Bool
  | .allow => true
  | .monitor => true
  | _ => false

/-- A row blocks the host, and no row that allows it is more specific. -/
def BlockCovered (host : String) (rows : List OverrideRow) : Prop :=
  ∃ row ∈ rows, Governs host row ∧ overrideActionOf row.action = some .block ∧
    ∀ other ∈ rows, Governs host other → overrideActionOf other.action = some .allow →
      specificity other ≤ specificity row

/-- The lookup can read the rows: no scope is blank, and a row that governs the host without allowing or blocking is
not more specific than all those that block. -/
structure Decisive (host : String) (rows : List OverrideRow) : Prop where
  scopes : ∀ row ∈ rows, (nonEmptyString row.scopeValue).isSome = true
  actions : ∀ row ∈ rows, Governs host row → overrideActionOf row.action = none →
    ∃ other ∈ rows, Governs host other ∧ overrideActionOf other.action = some .block ∧
      specificity row ≤ specificity other

variable {host normalizedKey : String} {rows rows' : List OverrideRow}

lemma Decisive.congr (hmem : ∀ row, row ∈ rows ↔ row ∈ rows') (h : Decisive host rows) : Decisive host rows' := by
  refine ⟨fun row hrow => h.scopes row ((hmem row).2 hrow), fun row hrow hgoverns hneither => ?_⟩
  obtain ⟨other, hother, hrest⟩ := h.actions row ((hmem row).2 hrow) hgoverns hneither
  exact ⟨other, (hmem other).1 hother, hrest⟩

lemma BlockCovered.congr (hmem : ∀ row, row ∈ rows ↔ row ∈ rows') (h : BlockCovered host rows) :
    BlockCovered host rows' := by
  obtain ⟨row, hrow, hgoverns, hblock, hallow⟩ := h
  exact ⟨row, (hmem row).1 hrow, hgoverns, hblock, fun other hother => hallow other ((hmem other).2 hother)⟩

/-- **The lookup for a covered host** blocks it if the rows can be read, and decides nothing otherwise. -/
theorem decideRows_of_covered (hhost : hostFromNormalizedKey normalizedKey = some host)
    (hcovered : BlockCovered host rows) :
    (Decisive host rows → (decideRows rows normalizedKey).map (·.action) = some .block) ∧
      (¬Decisive host rows → decideRows rows normalizedKey = none) := by
  obtain ⟨block, hblock, hgoverns, hblocks, hallow⟩ := hcovered
  by_cases hscopes : ∀ row ∈ rows, (nonEmptyString row.scopeValue).isSome = true
  swap
  · -- a blank scope ends the lookup
    push Not at hscopes
    obtain ⟨row, hrow, hblank⟩ := hscopes
    refine ⟨fun h => absurd (h.scopes row hrow) hblank, fun _ => ?_⟩
    exact decideRows_of_blank hrow (Option.not_isSome_iff_eq_none.1 hblank)
  · rcases decideRows_cases hhost hscopes with ⟨hnone, -⟩ | ⟨row, hrow, hhighest, hdecide⟩
    · exact absurd hgoverns (hnone block hblock)
    -- a block as specific as the winner would have the higher rank
    have hbeaten : ∀ other ∈ rows, Governs host other → overrideActionOf other.action = some .block →
        specificity row ≤ specificity other → overrideActionOf row.action = some .block := by
      intro other hother hgoverns' hblocks' hle
      have hmost : MostSpecific host rows other :=
        ⟨hother, hgoverns', fun third hthird h => (hrow.longest third hthird h).trans hle⟩
      have hrank := hhighest other hmost
      rw [overrideActionOf_eq_block.1 hblocks'] at hrank
      exact overrideActionOf_eq_block.2 (le_antisymm (overrideActionRank_le_two row.action) hrank)
    cases haction : overrideActionOf row.action with
    | none =>
      refine ⟨fun hdecisive => ?_, fun _ => ?_⟩
      · obtain ⟨other, hother, hgoverns', hblocks', hle⟩ := hdecisive.actions row hrow.mem hrow.governs haction
        have hrowBlocks := hbeaten other hother hgoverns' hblocks' hle
        rw [haction] at hrowBlocks
        cases hrowBlocks
      · rw [haction] at hdecide
        exact Option.map_eq_none_iff.1 hdecide
    | some action =>
      have hrowBlocks : overrideActionOf row.action = some .block := by
        rcases overrideActionOf_block_or_allow (by rw [haction]; rfl) with h | h
        · exact h
        · exact hbeaten block hblock hgoverns hblocks (hallow row hrow.mem hrow.governs h)
      rw [hrowBlocks] at hdecide
      refine ⟨fun _ => hdecide, fun hnot => absurd ⟨hscopes, fun other hother hgoverns' _ => ?_⟩ hnot⟩
      exact ⟨row, hrow.mem, hrow.governs, hrowBlocks, hrow.longest other hother hgoverns'⟩

/-- The action of a request that no override decides is that of rules and activation. -/
lemma action_of_handleDecisionWith (state : AppState) (results : QueryResults)
    (hkey : payload.normalizedKey.isEmpty = false) :
    ∃ decision, handleDecisionWith state results payload = .ok decision ∧
      decision.action = ((resolveOverrideQuery results.overrides payload.normalizedKey).map (·.action)).getD
        (state.evaluator.evaluate (hydrateFrom results.classification payload)).action := by
  rw [handleDecisionWith, hkey]
  cases resolveOverrideQuery results.overrides payload.normalizedKey with
  | some decision => exact ⟨decision, rfl, rfl⟩
  | none => exact ⟨_, rfl, rfl⟩

/-- A key with a host is not empty. -/
lemma key_not_empty (hhost : hostFromNormalizedKey normalizedKey = some host) :
    normalizedKey.isEmpty = false := by
  rw [Bool.eq_false_iff]
  intro hempty
  obtain rfl := String.isEmpty_iff.1 hempty
  have hnone : hostFromNormalizedKey "" = none := by decide
  rw [hnone] at hhost
  cases hhost

/-- **Hosts that an override blocks.** Let a row in force block the host of a request, with no row in force that allows
it and is more specific, and let the override query fail or return the rows in force, in any order. The request is not
let through exactly when the query returns and the lookup can read its rows, or rules and activation stop the
request by themselves. -/
theorem covered_host_stopped_iff (state : AppState) (table : List OverrideRow) (now : ℕ) (results : QueryResults)
    (payload : DecisionRequest) (host : String)
    (hhost : hostFromNormalizedKey payload.normalizedKey = some host)
    (hcovered : BlockCovered host (table.filter (OverrideRow.inForce now)))
    (hrows : ∀ rows, results.overrides = .ok rows → rows.Perm (table.filter (OverrideRow.inForce now))) :
    (∀ decision, handleDecisionWith state results payload = .ok decision → letsThrough decision.action = false) ↔
      ((∃ rows, results.overrides = .ok rows) ∧ Decisive host (table.filter (OverrideRow.inForce now))) ∨
        letsThrough (state.evaluator.evaluate (hydrateFrom results.classification payload)).action = false := by
  obtain ⟨decision, hrun, haction⟩ := action_of_handleDecisionWith state results (key_not_empty hhost)
  have hone : (∀ decision, handleDecisionWith state results payload = .ok decision →
      letsThrough decision.action = false) ↔ letsThrough decision.action = false := by
    constructor
    · exact fun h => h decision hrun
    · intro h other hother
      obtain rfl := Except.ok.inj (hrun.symm.trans hother)
      exact h
  rw [hone, haction]
  cases hresult : results.overrides with
  | error err => simp [resolveOverrideQuery, Except.toOption]
  | ok rows =>
    have hmem : ∀ row, row ∈ table.filter (OverrideRow.inForce now) ↔ row ∈ rows :=
      fun row => (hrows rows hresult).mem_iff.symm
    obtain ⟨hread, hunread⟩ := decideRows_of_covered hhost (hcovered.congr hmem)
    have hquery : resolveOverrideQuery (.ok rows) payload.normalizedKey =
        decideRows rows payload.normalizedKey := rfl
    rw [hquery]
    by_cases hdecisive : Decisive host rows
    · rw [hread hdecisive]
      exact iff_of_true rfl (Or.inl ⟨⟨rows, rfl⟩, hdecisive.congr fun row => (hmem row).symm⟩)
    · rw [hunread hdecisive]
      have hnot : ¬Decisive host (table.filter (OverrideRow.inForce now)) :=
        fun h => hdecisive (h.congr hmem)
      simp [hnot]

/-- An engine without rules, in which every category is switched on. -/
def permissiveState : AppState where
  evaluator :=
    { store := { rules := [], version := "v1", policyId := none, taxonomy := sampleTaxonomyStore }
      activation := ActivationProfile.allowAll 0 }
  classificationPool := some { overrides := [], classifications := [] }

/-- A request for a host of `example.com`. -/
def exampleRequest : DecisionRequest where
  normalizedKey := "subdomain:www.example.com"
  entityLevel := "subdomain"
  sourceIp := "192.0.2.10"
  userId := none
  groupIds := none

/-- The rows are returned, a scope is set in capitals and an override of a longer scope is for another host. -/
theorem covered_host_stopped :
    BlockCovered "www.example.com"
        ([overrideOf 1 "*.Example.com" " Block" 5, overrideOf 2 "mail.example.com" "allow" 7].filter
          (OverrideRow.inForce 0)) ∧
      ∀ decision, handleDecisionWith permissiveState
        { overrides := .ok [overrideOf 2 "mail.example.com" "allow" 7, overrideOf 1 "*.Example.com" " Block" 5]
          classification := .error "timeout" } exampleRequest = .ok decision →
        letsThrough decision.action = false := by
  have hcovered : BlockCovered "www.example.com"
      ([overrideOf 1 "*.Example.com" " Block" 5, overrideOf 2 "mail.example.com" "allow" 7].filter
        (OverrideRow.inForce 0)) :=
    ⟨overrideOf 1 "*.Example.com" " Block" 5, by decide +kernel, by decide +kernel, by decide +kernel,
      by decide +kernel⟩
  refine ⟨hcovered, (covered_host_stopped_iff permissiveState _ 0 _ exampleRequest "www.example.com"
    (by decide +kernel) hcovered ?_).2 (Or.inl ⟨⟨_, rfl⟩, ?_⟩)⟩
  · intro rows hrows
    cases hrows
    decide +kernel
  · exact ⟨by decide +kernel, by decide +kernel⟩

/-- The action for the request when the override query comes to this. -/
def exampleAction (result : Except String (List OverrideRow)) : Option PolicyAction :=
  (handleDecisionWith permissiveState { overrides := result, classification := .ok none }
    exampleRequest).toOption.map (·.action)

/-- The query fails, or a row of another scope is blank, or a row with another action is more specific: each time the
request for a blocked host is let through. -/
theorem covered_host_let_through :
    (BlockCovered "www.example.com" ([overrideOf 1 "example.com" "block" 5].filter (OverrideRow.inForce 0)) ∧
      exampleAction (.error "connection reset") = some .allow) ∧
    (BlockCovered "www.example.com"
        ([overrideOf 1 "example.com" "block" 5, overrideOf 2 " " "block" 7].filter (OverrideRow.inForce 0)) ∧
      exampleAction (.ok (activeDomainOverrides
        [overrideOf 1 "example.com" "block" 5, overrideOf 2 " " "block" 7] 0)) = some .allow) ∧
    (BlockCovered "www.example.com"
        ([overrideOf 1 "example.com" "block" 5, overrideOf 3 "www.example.com" "monitor" 7].filter
          (OverrideRow.inForce 0)) ∧
      exampleAction (.ok (activeDomainOverrides
        [overrideOf 1 "example.com" "block" 5, overrideOf 3 "www.example.com" "monitor" 7] 0)) = some .allow) ∧
    letsThrough .allow = true := by
  refine ⟨⟨⟨overrideOf 1 "example.com" "block" 5, ?_⟩, ?_⟩, ⟨⟨overrideOf 1 "example.com" "block" 5, ?_⟩, ?_⟩,
    ⟨⟨overrideOf 1 "example.com" "block" 5, ?_⟩, ?_⟩, rfl⟩ <;> decide +kernel

end OpenDefender.Engine
