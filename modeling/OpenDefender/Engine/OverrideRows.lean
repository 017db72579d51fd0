import OpenDefender.Engine.Overrides

/-!
The override lookup by the rows of its query, in whatever order they come.

The loop keeps one record; `decideRows_cases` says which row that is, without the loop: it governs the host, no row
that does has a longer scope host, and among those as long none has an action of a higher rank. From there the
action is a matter of which rows there are (`override_action_spec`), not of their order.
-/

namespace OpenDefender.Engine

open Lib Text List

/-- `resolve_override_decision` from the rows of the query on. -/
def decideRows (rows : List OverrideRow) (normalizedKey : String) : Option PolicyDecision := do
  let host ← hostFromNormalizedKey normalizedKey
  let best ← scanOverrides host none rows
  let (_, matched) ← best
  let action ← overrideActionOf matched.action
  return overrideDecision matched action

lemma resolveOverrideDecision_eq_decideRows (table : List OverrideRow) (now : ℕ) (normalizedKey : String) :
    resolveOverrideDecision table now normalizedKey =
      decideRows (activeDomainOverrides table now) normalizedKey := rfl

/-- The row governs the host. -/
def Governs (host : String) (row : OverrideRow) : Prop :=
  domainScopeMatchesHost row.scopeValue host = true

/-- The length of the row's scope host. -/
def specificity (row : OverrideRow) : ℕ := domainScopeSpecificity row.scopeValue

/-- The row governs the host, and no row that does has a longer scope host. -/
structure MostSpecific (host : String) (rows : List OverrideRow) (row : OverrideRow) : Prop where
  mem : row ∈ rows
  governs : Governs host row
  longest : ∀ other ∈ rows, Governs host other → specificity other ≤ specificity row

instance (host : String) (row : OverrideRow) : Decidable (Governs host row) :=
  inferInstanceAs (Decidable (_ = true))

variable {rows rows' : List OverrideRow} {host normalizedKey : String} {row : OverrideRow}

/-! ### The row that decides -/

/-- Whitespace around a scope makes no difference to its host. -/
lemma normalizeScopeHost_trim (scopeValue : String) :
    normalizeScopeHost (trim scopeValue) = normalizeScopeHost scopeValue := by
  rw [normalizeScopeHost, normalizeScopeHost, trim_trim]

lemma domainScopeMatchesHost_trim (scopeValue host : String) :
    domainScopeMatchesHost (trim scopeValue) host = domainScopeMatchesHost scopeValue host := by
  unfold domainScopeMatchesHost
  rw [normalizeScopeHost_trim]

lemma domainScopeSpecificity_trim (scopeValue : String) :
    domainScopeSpecificity (trim scopeValue) = domainScopeSpecificity scopeValue := by
  unfold domainScopeSpecificity
  rw [normalizeScopeHost_trim]

/-- The record that the loop reads off a row. -/
lemma mem_governing_iff (hscopes : ∀ row ∈ rows, (nonEmptyString row.scopeValue).isSome) :
    record ∈ governing host rows ↔
      ∃ row ∈ rows, Governs host row ∧ record = ⟨trim row.scopeValue, row.action⟩ := by
  rw [mem_governing]
  constructor
  · rintro ⟨row, hrow, hscope, haction, hmatch⟩
    obtain ⟨htrim, -⟩ := nonEmptyString_eq_some hscope
    refine ⟨row, hrow, ?_, ?_⟩
    · rw [htrim, domainScopeMatchesHost_trim] at hmatch
      exact hmatch
    · rw [← htrim, haction]
  · rintro ⟨row, hrow, hgoverns, rfl⟩
    obtain ⟨text, htext⟩ := Option.isSome_iff_exists.1 (hscopes row hrow)
    refine ⟨row, hrow, ?_, rfl, ?_⟩
    · rw [htext, (nonEmptyString_eq_some htext).1]
    · rw [domainScopeMatchesHost_trim]
      exact hgoverns

lemma overrideOrder_record (row : OverrideRow) :
    overrideOrder ⟨trim row.scopeValue, row.action⟩ = toLex (specificity row, overrideActionRank row.action) := by
  rw [overrideOrder, specificity, domainScopeSpecificity_trim]

/-- A row with a blank scope ends the lookup without a decision. -/
lemma decideRows_of_blank (hrow : row ∈ rows) (hblank : nonEmptyString row.scopeValue = none) :
    decideRows rows normalizedKey = none := by
  rw [decideRows]
  cases hostFromNormalizedKey normalizedKey with
  | none => rfl
  | some host =>
    have hscan := scanOverrides_eq host none rows
    have hnot : ¬∀ row ∈ rows, (nonEmptyString row.scopeValue).isSome = true := by
      intro hall
      have hsome := hall row hrow
      rw [hblank] at hsome
      cases hsome
    rw [Option.map_none, if_neg hnot] at hscan
    rw [Option.bind_eq_bind, Option.bind_some, hscan]
    rfl

/-- **The row that decides.** Without blank scopes, either no row governs the host and there is no decision, or the
decision is that of a most specific row whose action has the highest rank among them. -/
theorem decideRows_cases (hhost : hostFromNormalizedKey normalizedKey = some host)
    (hscopes : ∀ row ∈ rows, (nonEmptyString row.scopeValue).isSome) :
    ((∀ row ∈ rows, ¬Governs host row) ∧ decideRows rows normalizedKey = none) ∨
      ∃ row, MostSpecific host rows row ∧
        (∀ other, MostSpecific host rows other →
          overrideActionRank other.action ≤ overrideActionRank row.action) ∧
        (decideRows rows normalizedKey).map (·.action) = overrideActionOf row.action := by
  have hscan := scanOverrides_eq host none rows
  rw [Option.map_none, if_pos hscopes, ← List.argmax] at hscan
  have hdecide : decideRows rows normalizedKey =
      ((governing host rows).argmax overrideOrder).bind fun record =>
        (overrideActionOf record.action).map (overrideDecision record) := by
    rw [decideRows, hhost, Option.bind_eq_bind, Option.bind_some, hscan]
    cases (governing host rows).argmax overrideOrder with
    | none => rfl
    | some record =>
      rw [Option.map_some, Option.bind_some]
      dsimp only [withSpecificity, Option.bind_eq_bind, Option.bind_some]
      cases overrideActionOf record.action <;> rfl
  cases hmax : (governing host rows).argmax overrideOrder with
  | none =>
    left
    rw [hmax] at hdecide
    refine ⟨fun row hrow hgoverns => ?_, hdecide⟩
    have hmem := (mem_governing_iff hscopes).2 ⟨row, hrow, hgoverns, rfl⟩
    rw [argmax_eq_none.1 hmax] at hmem
    cases hmem
  | some record =>
    right
    obtain ⟨row, hrow, hgoverns, rfl⟩ := (mem_governing_iff hscopes).1 (argmax_mem hmax)
    -- no governing row has a greater record
    have hle : ∀ other ∈ rows, Governs host other → specificity other < specificity row ∨
        specificity other = specificity row ∧
          overrideActionRank other.action ≤ overrideActionRank row.action := by
      intro other hother hgoverns'
      have hmem := (mem_governing_iff hscopes).2 ⟨other, hother, hgoverns', rfl⟩
      have hrecord := le_of_mem_argmax hmem hmax
      rw [overrideOrder_record, overrideOrder_record, Prod.Lex.toLex_le_toLex] at hrecord
      dsimp only at hrecord
      exact hrecord
    refine ⟨row, ⟨hrow, hgoverns, fun other hother hgoverns' => ?_⟩, fun other hother => ?_, ?_⟩
    · rcases hle other hother hgoverns' with hlt | ⟨heq, -⟩
      · exact hlt.le
      · exact heq.le
    · rcases hle other hother.mem hother.governs with hlt | ⟨-, hrank⟩
      · exact absurd (hother.longest row hrow hgoverns) (Nat.not_le.2 hlt)
      · exact hrank
    · rw [hdecide, hmax, Option.bind_some, Option.map_map]
      generalize trim row.scopeValue = scopeValue
      cases overrideActionOf row.action <;> rfl

/-! ### Rows that allow or block -/

/-- A most specific row for the host blocks. -/
def Blocked (host : String) (rows : List OverrideRow) : Prop :=
  ∃ row, MostSpecific host rows row ∧ overrideActionOf row.action = some .block

lemma overrideActionOf_eq_block :
    overrideActionOf action = some .block ↔ overrideActionRank action = 2 := by
  rw [overrideActionOf_eq]
  split_ifs with hblock hallow <;> simp [hblock]

lemma overrideActionRank_le_two (action : String) : overrideActionRank action ≤ 2 := by
  unfold overrideActionRank
  split <;> decide

lemma overrideActionOf_block_or_allow (h : (overrideActionOf action).isSome = true) :
    overrideActionOf action = some .block ∨ overrideActionOf action = some .allow := by
  rw [overrideActionOf_eq] at h ⊢
  split_ifs at h ⊢ with hblock hallow
  · exact Or.inl rfl
  · exact Or.inr rfl
  · cases h

section Usable

variable (hscopes : ∀ row ∈ rows, (nonEmptyString row.scopeValue).isSome = true)
  (hactions : ∀ row ∈ rows, (overrideActionOf row.action).isSome = true)

include hscopes hactions

/-- There is a decision exactly when a row governs the host of the key. -/
lemma isSome_decideRows_iff : (decideRows rows normalizedKey).isSome = true ↔
    ∃ row ∈ rows, scopeGovernsKey row.scopeValue normalizedKey = true := by
  cases hhost : hostFromNormalizedKey normalizedKey with
  | none => simp [decideRows, scopeGovernsKey, hhost]
  | some host =>
    simp only [scopeGovernsKey, hhost, Option.any_some]
    rcases decideRows_cases hhost hscopes with ⟨hnone, hdecide⟩ | ⟨row, hrow, -, hdecide⟩
    · rw [hdecide]
      exact iff_of_false (by simp) fun ⟨row, hrow, hgoverns⟩ => hnone row hrow hgoverns
    · refine iff_of_true ?_ ⟨row, hrow.mem, hrow.governs⟩
      rw [← Option.isSome_map, hdecide]
      exact hactions row hrow.mem

/-- The action is to block if a most specific row blocks, and to allow otherwise. -/
lemma decideRows_action (hhost : hostFromNormalizedKey normalizedKey = some host)
    (h : decideRows rows normalizedKey = some decision) :
    (Blocked host rows → decision.action = .block) ∧ (¬Blocked host rows → decision.action = .allow) := by
  rcases decideRows_cases hhost hscopes with ⟨-, hdecide⟩ | ⟨row, hrow, hhighest, hdecide⟩
  · rw [h] at hdecide
    cases hdecide
  · rw [h, Option.map_some] at hdecide
    constructor
    · rintro ⟨other, hother, hblock⟩
      have hrank := hhighest other hother
      rw [overrideActionOf_eq_block.1 hblock] at hrank
      have hrow' := overrideActionOf_eq_block.2 (le_antisymm (overrideActionRank_le_two row.action) hrank)
      rw [hrow'] at hdecide
      exact Option.some.inj hdecide
    · intro hnot
      rcases overrideActionOf_block_or_allow (hactions row hrow.mem) with hblock | hallow
      · exact absurd ⟨row, hrow, hblock⟩ hnot
      · rw [hallow] at hdecide
        exact Option.some.inj hdecide

end Usable

/-! ### The order of the rows -/

lemma MostSpecific.congr (hmem : ∀ row, row ∈ rows ↔ row ∈ rows') (h : MostSpecific host rows row) :
    MostSpecific host rows' row where
  mem := (hmem row).1 h.mem
  governs := h.governs
  longest := fun other hother => h.longest other ((hmem other).2 hother)

lemma blocked_congr (hmem : ∀ row, row ∈ rows ↔ row ∈ rows') : Blocked host rows ↔ Blocked host rows' := by
  constructor
  · rintro ⟨row, hrow, hblock⟩
    exact ⟨row, hrow.congr hmem, hblock⟩
  · rintro ⟨row, hrow, hblock⟩
    exact ⟨row, hrow.congr fun row => (hmem row).symm, hblock⟩

/-- The action depends on which rows there are only. -/
lemma decideRows_action_congr (hmem : ∀ row, row ∈ rows ↔ row ∈ rows')
    (hscopes : ∀ row ∈ rows, (nonEmptyString row.scopeValue).isSome = true)
    (hactions : ∀ row ∈ rows, (overrideActionOf row.action).isSome = true) :
    (decideRows rows normalizedKey).map (·.action) = (decideRows rows' normalizedKey).map (·.action) := by
  have hscopes' : ∀ row ∈ rows', (nonEmptyString row.scopeValue).isSome = true :=
    fun row hrow => hscopes row ((hmem row).2 hrow)
  have hactions' : ∀ row ∈ rows', (overrideActionOf row.action).isSome = true :=
    fun row hrow => hactions row ((hmem row).2 hrow)
  have hsome : (decideRows rows normalizedKey).isSome = true ↔ (decideRows rows' normalizedKey).isSome = true := by
    rw [isSome_decideRows_iff hscopes hactions, isSome_decideRows_iff hscopes' hactions']
    simp only [hmem]
  cases hdecide : decideRows rows normalizedKey with
  | none =>
    rw [hdecide] at hsome
    have hnone : decideRows rows' normalizedKey = none := by simpa using hsome
    rw [hnone]
  | some decision =>
    rw [hdecide] at hsome
    obtain ⟨decision', hdecide'⟩ := Option.isSome_iff_exists.1 (hsome.1 rfl)
    obtain ⟨host, hhost⟩ : ∃ host, hostFromNormalizedKey normalizedKey = some host := by
      obtain ⟨host, hhost, -⟩ := Option.bind_eq_some_iff.1 hdecide
      exact ⟨host, hhost⟩
    have haction := decideRows_action hscopes hactions hhost hdecide
    have haction' := decideRows_action hscopes' hactions' hhost hdecide'
    rw [hdecide', Option.map_some, Option.map_some]
    by_cases hblocked : Blocked host rows
    · rw [haction.1 hblocked, haction'.1 ((blocked_congr hmem).1 hblocked)]
    · rw [haction.2 hblocked, haction'.2 fun h => hblocked ((blocked_congr hmem).2 h)]

/-- **The action of the overrides.** Where the rows in force have scopes that are not blank and allow or block: the
action is the same in whatever order the query returns the rows; there is one exactly when the scope of a row in force
governs the host; and it is to block if one of the rows with the longest scope host blocks, and to allow otherwise. -/
theorem override_action_spec (table : List OverrideRow) (now : ℕ) (normalizedKey : String)
    (hscopes : ∀ row ∈ table, OverrideRow.inForce now row = true →
      (nonEmptyString row.scopeValue).isSome = true)
    (hactions : ∀ row ∈ table, OverrideRow.inForce now row = true →
      (overrideActionOf row.action).isSome = true)
    (rows : List OverrideRow) (hrows : rows.Perm (table.filter (OverrideRow.inForce now))) :
    (decideRows rows normalizedKey).map (·.action) =
        (resolveOverrideDecision table now normalizedKey).map (·.action) ∧
      ((resolveOverrideDecision table now normalizedKey).isSome = true ↔
        ∃ row ∈ table, OverrideRow.inForce now row = true ∧
          scopeGovernsKey row.scopeValue normalizedKey = true) ∧
      ∀ host decision, hostFromNormalizedKey normalizedKey = some host →
        resolveOverrideDecision table now normalizedKey = some decision →
        (Blocked host (table.filter (OverrideRow.inForce now)) → decision.action = .block) ∧
          (¬Blocked host (table.filter (OverrideRow.inForce now)) → decision.action = .allow) := by
  have hmem : ∀ row, row ∈ activeDomainOverrides table now ↔ row ∈ table.filter (OverrideRow.inForce now) :=
    fun row => mem_insertionSort newerFirst
  have husable : ∀ row ∈ activeDomainOverrides table now,
      (nonEmptyString row.scopeValue).isSome = true ∧ (overrideActionOf row.action).isSome = true := by
    intro row hrow
    obtain ⟨hrow, hforce⟩ := mem_filter.1 ((hmem row).1 hrow)
    exact ⟨hscopes row hrow hforce, hactions row hrow hforce⟩
  rw [resolveOverrideDecision_eq_decideRows]
  refine ⟨?_, ?_, fun host decision hhost hdecide => ?_⟩
  · refine (decideRows_action_congr (fun row => ?_) (fun row hrow => (husable row hrow).1)
      fun row hrow => (husable row hrow).2).symm
    rw [hmem, hrows.mem_iff]
  · rw [isSome_decideRows_iff (fun row hrow => (husable row hrow).1) fun row hrow => (husable row hrow).2]
    simp only [hmem, mem_filter, and_assoc]
  · rw [← blocked_congr hmem]
    exact decideRows_action (fun row hrow => (husable row hrow).1) (fun row hrow => (husable row hrow).2) hhost
      hdecide

/-- An override of a domain in force. -/
def overrideOf (id : Uuid) (scopeValue action : String) (updatedAt : ℕ) : OverrideRow where
  id := id
  scopeType := "domain"
  scopeValue := scopeValue
  action := action
  status := "active"
  createdAt := updatedAt
  updatedAt := updatedAt

/-- The host and the wildcard are two spellings of one scope host, and the block wins over the newer allow; the
override of the domain above it does not count. -/
theorem override_action_of_spellings :
    (decideRows [overrideOf 3 "com" "allow" 9, overrideOf 1 "example.com" "block" 5,
        overrideOf 2 "*.Example.com" "allow" 7] "subdomain:www.example.com").map (·.action) = some .block := by
  have hspec := override_action_spec
    [overrideOf 1 "example.com" "block" 5, overrideOf 2 "*.Example.com" "allow" 7, overrideOf 3 "com" "allow" 9] 0
    "subdomain:www.example.com" (by decide +kernel) (by decide +kernel)
    [overrideOf 3 "com" "allow" 9, overrideOf 1 "example.com" "block" 5, overrideOf 2 "*.Example.com" "allow" 7]
    (by decide +kernel)
  rw [hspec.1]
  decide +kernel

end OpenDefender.Engine
