import OpenDefender.System.OverrideStatements

/-!
An import of overrides against its dry run, and what it leaves in the table.

The import takes a status for active whatever its case, the index and the removal only `active` itself.
`import_as_predicted` is about tables in which this makes no difference (`PlainStatus`), `dry_run_miscounts`
about one with a row in capital letters.
-/

namespace OpenDefender.System.OverrideExchange

open Admin Lib Lib.Script Text Engine OverrideImport OverrideStatements List

/-- Every status that is taken for active is `active`. -/
def PlainStatus (table : List OverrideRow) : Prop :=
  ∀ row ∈ table, countsAsActive row = true → row.status = "active"

instance (table : List OverrideRow) : Decidable (PlainStatus table) :=
  inferInstanceAs (Decidable (∀ _ ∈ _, _))

/-- The ids that are drawn differ, and are not in use. -/
structure FreshIds (table : List OverrideRow) (fresh : ℕ → Uuid) : Prop where
  injective : Function.Injective fresh
  unused : ∀ i, fresh i ∉ table.map (·.id)

variable {table : List OverrideRow} {ctx : ImportContext} {view : ImportView} {values : List String}
  {scopes : List (String × Uuid)} {fresh : ℕ → Uuid} {mode : OverrideImportMode}

/-! ### What the import reads -/

/-- The domain rows that count as active have different scopes. -/
lemma unique_active_domainRows (htable : Constrained table) (hplain : PlainStatus table) :
    Table.Unique (·.scopeValue) ((domainRows table).filter countsAsActive) := by
  have hperm : ((domainRows table).filter countsAsActive).Perm
      ((activeRows table).filter fun row => row.scopeType == "domain") := by
    refine ((perm_insertionSort _ _).filter _).trans (List.Perm.of_eq ?_)
    rw [activeRows, filter_filter, filter_filter]
    refine filter_congr fun row hrow => ?_
    rw [Bool.and_comm, Bool.eq_iff_iff]
    simp only [Bool.and_eq_true, beq_iff_eq]
    exact and_congr_right fun _ => ⟨hplain row hrow, countsAsActive_of_active⟩
  have hscopes : (((activeRows table).filter fun row => row.scopeType == "domain").map
      (·.scopeValue)).map (Prod.mk "domain") =
        ((activeRows table).filter fun row => row.scopeType == "domain").map scopeOf := by
    rw [map_map]
    refine map_congr_left fun row hrow => ?_
    rw [Function.comp_apply, scopeOf, beq_iff_eq.1 (mem_filter.1 hrow).2]
  refine (hperm.map _).nodup_iff.2 (List.Nodup.of_map (Prod.mk "domain") ?_)
  rw [hscopes]
  exact Table.Unique.filter htable.scopes _

/-- So there is nothing to revoke first. -/
lemma withoutDuplicates_plain (htable : Constrained table) (hplain : PlainStatus table) (now : ℕ) :
    withoutDuplicates table (importView table) now = table := by
  rw [withoutDuplicates, importView_eq,
    duplicateActiveIds_eq_nil (unique_active_domainRows htable hplain)]
  rfl

lemma keptTable_eq (htable : Constrained table) (hplain : PlainStatus table) :
    keptTable ctx table scopes = written ctx (importView table) table scopes := by
  rw [keptTable, withoutDuplicates_plain htable hplain]

lemma covers_plain (htable : Constrained table) (hplain : PlainStatus table) :
    Covers (importView table) table := by
  have hcovers := covers_importView table 0
  rwa [withoutDuplicates_plain htable hplain] at hcovers

/-- `active_scope_values_by_action` holds the scopes of the active rows of each action. -/
lemma activeScopes_readRows (h : Table.Unique (·.scopeValue) (rows.filter countsAsActive))
    (action : String) :
    ((readRows rows).2.get action).getD [] =
      (rows.filter fun row => countsAsActive row && row.action == action).map (·.scopeValue) := by
  induction rows using List.reverseRecOn with
  | nil => rfl
  | append_singleton rows row ih =>
    have hstep : (readRows (rows ++ [row])).2 = addActiveScope (viewOf rows) (readRows rows).2 row := by
      rw [← readRows_view, readRows, foldl_concat]
      rfl
    rw [Table.Unique, filter_append, map_append, nodup_append] at h
    rw [hstep, addActiveScope, activeByScope_viewOf, Option.isNone_map, filter_append,
      map_append, ← ih h.1]
    by_cases hactive : countsAsActive row = true
    · -- no row of the scope was active before
      have hfirst : firstActive rows row.scopeValue = none := by
        cases hfirst : firstActive rows row.scopeValue with
        | none => rfl
        | some first =>
          obtain ⟨hmem, hscope, hfirstActive⟩ := mem_of_firstActive hfirst
          refine absurd hscope (h.2.2 first.scopeValue ?_ row.scopeValue (by simp [hactive]))
          exact mem_map_of_mem (mem_filter.2 ⟨hmem, hfirstActive⟩)
      by_cases haction : row.action = action
      · simp [hactive, hfirst, haction]
      · simp [hactive, hfirst, haction, Ne.symm haction]
    · simp [hactive]

/-! ### The counts -/

lemma newScopes_withFreshIds : newScopes ctx view (withFreshIds values fresh) =
    values.countP fun scopeValue => chosen view ctx.action scopeValue = none := by
  have hcount := countP_map (p := fun scopeValue => decide (chosen view ctx.action scopeValue = none))
    (f := Prod.fst) (l := withFreshIds values fresh)
  rw [map_fst_withFreshIds] at hcount
  exact hcount.symm

lemma knownScopes_withFreshIds : knownScopes ctx view (withFreshIds values fresh) =
    values.countP fun scopeValue => chosen view ctx.action scopeValue ≠ none := by
  have hcount := countP_map (p := fun scopeValue => decide (chosen view ctx.action scopeValue ≠ none))
    (f := Prod.fst) (l := withFreshIds values fresh)
  rw [map_fst_withFreshIds] at hcount
  exact hcount.symm

lemma isKnown_iff :
    isKnown view action scopeValue = true ↔ chosen view action scopeValue ≠ none := by
  rw [isKnown, chosen]
  cases view.activeByScope.get scopeValue <;>
    cases view.latestByScopeAction.get (scopeValue, action) <;> simp

/-- A row that is chosen has one of the imported scopes. -/
lemma scope_of_isChosen (hids : Table.Unique (·.id) table) (hcovers : Covers view table)
    (hrow : row ∈ table) (h : IsChosen view ctx.action scopes row.id) :
    row.scopeType = "domain" ∧ row.scopeValue ∈ scopes.map Prod.fst := by
  obtain ⟨scope, hscope, hchosen⟩ := h
  obtain ⟨found, hfound, hid, hdomain, hvalue⟩ := hcovers.known _ _ _ hchosen
  obtain rfl := hids.eq hfound hrow hid
  exact ⟨hdomain, hvalue ▸ mem_map_of_mem hscope⟩

/-- The loop makes no row one that is removed, and none of those it writes is. -/
lemma countP_isRemoved_written (hids : Table.Unique (·.id) table) (hcovers : Covers view table) :
    (written ctx view table scopes).countP (isRemoved ctx (scopes.map Prod.fst)) =
      table.countP (isRemoved ctx (scopes.map Prod.fst)) := by
  have hkeep : ∀ row : OverrideRow, row.scopeValue ∈ scopes.map Prod.fst →
      isRemoved ctx (scopes.map Prod.fst) row = false := fun row hmem => by
    rw [isRemoved, decide_eq_false (not_not.2 hmem), Bool.and_false]
  have hinserted : ((scopes.filter fun scope => chosen view ctx.action scope.1 = none).map
      (importedRow ctx)).countP (isRemoved ctx (scopes.map Prod.fst)) = 0 := by
    refine countP_eq_zero.2 fun row hrow => ?_
    obtain ⟨scope, hscope, rfl⟩ := mem_map.1 hrow
    exact Bool.eq_false_iff.1 (hkeep _ (mem_map_of_mem (mem_of_mem_filter hscope)))
  rw [written, countP_append, hinserted, Nat.add_zero, countP_map]
  refine countP_congr fun row hrow => ?_
  rw [Function.comp_apply]
  split_ifs with hchosen
  · obtain ⟨-, hvalue⟩ := scope_of_isChosen hids hcovers hrow hchosen
    rw [hkeep row hvalue, hkeep (activateRow ctx row) hvalue]
  · rfl

/-- The rows the dry run counts as removed. -/
lemma predicted_deleted (htable : Constrained table) (hplain : PlainStatus table) :
    (((readRows (domainRows table)).2.get ctx.action).getD []).countP (fun scopeValue => scopeValue ∉ values) =
      table.countP (isRemoved ctx values) := by
  rw [activeScopes_readRows (unique_active_domainRows htable hplain), countP_map, countP_filter,
    domainRows, (perm_insertionSort _ _).countP_eq, countP_filter]
  refine countP_congr fun row hrow => ?_
  have hactive : countsAsActive row = true ↔ row.status = "active" :=
    ⟨hplain row hrow, countsAsActive_of_active⟩
  simp only [isRemoved, Function.comp_apply, Bool.and_eq_true, beq_iff_eq, decide_eq_true_eq, hactive]
  tauto

/-- **A dry run predicts the counts.** -/
theorem predictedCounts_eq (ctx : ImportContext) (mode : OverrideImportMode) (values : List String)
    (fresh : ℕ → Uuid) (htable : Constrained table) (hplain : PlainStatus table) :
    predictedCounts (readRows (domainRows table)) ctx.action mode values =
      importedCounts ctx mode table (withFreshIds values fresh) := by
  have hknown : ∀ scopeValue, isKnown (importView table) ctx.action scopeValue =
      decide (chosen (importView table) ctx.action scopeValue ≠ none) := fun scopeValue => by
    rw [Bool.eq_iff_iff, isKnown_iff, decide_eq_true_eq]
  have hdeleted : (keptTable ctx table (withFreshIds values fresh)).countP (isRemoved ctx values) =
      table.countP (isRemoved ctx values) := by
    have hcount : (written ctx (importView table) table (withFreshIds values fresh)).countP
        (isRemoved ctx ((withFreshIds values fresh).map Prod.fst)) =
          table.countP (isRemoved ctx ((withFreshIds values fresh).map Prod.fst)) :=
      countP_isRemoved_written htable.ids (covers_plain htable hplain)
    rwa [map_fst_withFreshIds, ← keptTable_eq htable hplain] at hcount
  rw [predictedCounts.eq_def, importedCounts.eq_def, readRows_view, ← importView_eq, newScopes_withFreshIds,
    knownScopes_withFreshIds, map_fst_withFreshIds]
  congr 1
  · refine countP_congr fun scopeValue _ => ?_
    rw [hknown]
    simp
  · refine countP_congr fun scopeValue _ => ?_
    rw [hknown]
  · cases mode with
    | merge => rfl
    | replace =>
      dsimp only
      rw [predicted_deleted htable hplain, hdeleted]

/-! ### The table -/

/-- No statement fails if the ids are fresh. -/
lemma unique_written_fresh (hids : Table.Unique (·.id) table) (hfresh : FreshIds table fresh) :
    Table.Unique (·.id) (written ctx view table (withFreshIds values fresh)) := by
  have hdrawn : ((withFreshIds values fresh).map Prod.snd).Nodup := by
    have hindices := (nodup_range' (s := 0) (n := values.length)).map hfresh.injective
    rw [← zipIdx_map_snd, map_map] at hindices
    rw [withFreshIds, map_map]
    exact hindices
  rw [Table.Unique, ids_written]
  refine nodup_append.2 ⟨hids, hdrawn.sublist (filter_sublist.map _), ?_⟩
  rintro _ hold _ hnew rfl
  obtain ⟨scope, hscope, rfl⟩ := mem_map.1 hnew
  obtain ⟨indexed, -, rfl⟩ := mem_map.1 (mem_of_mem_filter hscope)
  exact hfresh.unused indexed.2 hold

/-- A scope that is written has an active row with the action. -/
lemma exists_active_written (ctx : ImportContext) (hcovers : Covers view table)
    (hscope : scope ∈ scopes) :
    ∃ row ∈ written ctx view table scopes, row.status = "active" ∧ scopeOf row = ("domain", scope.1) ∧
      row.action = ctx.action := by
  cases hchosen : chosen view ctx.action scope.1 with
  | none =>
    refine ⟨importedRow ctx scope, mem_append_right _ (mem_map_of_mem ?_), rfl, rfl, rfl⟩
    exact mem_filter.2 ⟨hscope, by simp [hchosen]⟩
  | some id =>
    obtain ⟨row, hrow, rfl, hdomain, hvalue⟩ := hcovers.known _ _ _ hchosen
    refine ⟨activateRow ctx row, mem_append_left _ (mem_map.2 ⟨row, hrow, ?_⟩), rfl, ?_, rfl⟩
    · rw [if_pos ⟨scope, hscope, hchosen⟩]
    · rw [← hdomain, ← hvalue]
      rfl

/-- The rows of other scopes are as they were. -/
lemma filter_written (hids : Table.Unique (·.id) table) (hcovers : Covers view table) :
    ((written ctx view table scopes).filter fun row =>
      scopeOf row ∉ (scopes.map Prod.fst).map (Prod.mk "domain")) =
    table.filter fun row => scopeOf row ∉ (scopes.map Prod.fst).map (Prod.mk "domain") := by
  have hinserted : (((scopes.filter fun scope => chosen view ctx.action scope.1 = none).map
      (importedRow ctx)).filter fun row => scopeOf row ∉ (scopes.map Prod.fst).map (Prod.mk "domain")) = [] := by
    refine filter_eq_nil_iff.2 fun row hrow hnot => of_decide_eq_true hnot ?_
    obtain ⟨scope, hscope, rfl⟩ := mem_map.1 hrow
    exact mem_map_of_mem (mem_map_of_mem (mem_of_mem_filter hscope))
  rw [written, filter_append, hinserted, append_nil,
    Table.filter_map_of_take_out (q := fun _ => false)]
  · simp
  · intro row _
    rw [Bool.not_false, Bool.and_true]
    split_ifs <;> rfl
  · intro row hrow hother
    split_ifs with hchosen
    · obtain ⟨hdomain, hvalue⟩ := scope_of_isChosen hids hcovers hrow hchosen
      rw [if_pos hchosen] at hother
      refine absurd ?_ (of_decide_eq_true hother)
      have hscope : scopeOf (activateRow ctx row) = ("domain", row.scopeValue) := by
        rw [← hdomain]
        rfl
      rw [hscope]
      exact mem_map_of_mem hvalue
    · rfl

/-! ### The import -/

/-- The parsed scopes, as scopes of the table. -/
def parsedScopes (payload : OverrideImportRequest) : List Scope :=
  (parseOverrideExchangeLines payload.content).scopes.map (Prod.mk "domain")

/-- An active domain row of the action: the mode `replace` removes it if its scope is not parsed. -/
def replaceable (action : String) (row : OverrideRow) : Bool :=
  row.scopeType == "domain" && row.action == action && row.status == "active"

/-- What an import makes of a table. -/
structure Effect (scopes : List Scope) (action : String) (mode : OverrideImportMode)
    (table t : List OverrideRow) : Prop where
  one_active : ∀ scope ∈ scopes, ∃ row,
    ((activeRows t).filter fun r => scopeOf r = scope) = [row] ∧ row.action = action
  replaced : mode = .replace → ∀ scopeValue,
    (∃ row ∈ activeRows t, scopeOf row = ("domain", scopeValue) ∧ row.action = action) ↔
      ("domain", scopeValue) ∈ scopes
  others : (t.filter fun row => scopeOf row ∉ scopes) =
    table.filter fun row => scopeOf row ∉ scopes && !(mode == .replace && replaceable action row)

lemma importedTable_eq : importedTable ctx mode table scopes =
    (keptTable ctx table scopes).filter fun row =>
      !(mode == .replace && isRemoved ctx (scopes.map Prod.fst) row) := by
  cases mode with
  | merge => exact (filter_true _).symm
  | replace => rfl

lemma isRemoved_iff : isRemoved ctx values row = true ↔
    replaceable ctx.action row = true ∧ scopeOf row ∉ values.map (Prod.mk "domain") := by
  simp only [isRemoved, replaceable, Bool.and_eq_true, beq_iff_eq, decide_eq_true_eq, scopeOf, mem_map,
    Prod.mk.injEq]
  constructor
  · rintro ⟨⟨⟨hdomain, haction⟩, hactive⟩, hvalue⟩
    exact ⟨⟨⟨hdomain, haction⟩, hactive⟩, fun ⟨v, hv, _, heq⟩ => hvalue (heq ▸ hv)⟩
  · rintro ⟨⟨⟨hdomain, haction⟩, hactive⟩, hscope⟩
    exact ⟨⟨⟨hdomain, haction⟩, hactive⟩, fun hvalue => hscope ⟨_, hvalue, hdomain.symm, rfl⟩⟩

/-- **What an import leaves.** -/
theorem effect_importedTable (htable : Constrained table) (hplain : PlainStatus table)
    (ht : Constrained (importedTable ctx mode table scopes)) :
    Effect ((scopes.map Prod.fst).map (Prod.mk "domain")) ctx.action mode table
      (importedTable ctx mode table scopes) := by
  have hcovers := covers_plain htable hplain
  -- the row of an imported scope is not removed
  have hactive : ∀ scope ∈ (scopes.map Prod.fst).map (Prod.mk "domain"),
      ∃ row ∈ activeRows (importedTable ctx mode table scopes), scopeOf row = scope ∧
        row.action = ctx.action := by
    intro scope hscope
    obtain ⟨value, hvalue, rfl⟩ := mem_map.1 hscope
    obtain ⟨pair, hpair, rfl⟩ := mem_map.1 hvalue
    obtain ⟨row, hrow, hstatus, hrowScope, haction⟩ := exists_active_written ctx hcovers hpair
    refine ⟨row, mem_activeRows.2 ⟨?_, hstatus⟩, hrowScope, haction⟩
    rw [importedTable_eq, keptTable_eq htable hplain]
    refine mem_filter.2 ⟨hrow, ?_⟩
    have hkept : isRemoved ctx (scopes.map Prod.fst) row = false := by
      rw [Bool.eq_false_iff, Ne, isRemoved_iff, hrowScope]
      exact fun h => h.2 hscope
    rw [hkept, Bool.and_false, Bool.not_false]
  refine ⟨?_, ?_, ?_⟩
  · intro scope hscope
    obtain ⟨row, hrow, rfl, haction⟩ := hactive scope hscope
    exact ⟨row, Table.Unique.filter_key ht.scopes hrow, haction⟩
  · rintro rfl scopeValue
    refine ⟨?_, hactive ("domain", scopeValue)⟩
    rintro ⟨row, hrow, hscope, haction⟩
    obtain ⟨hmem, hstatus⟩ := mem_activeRows.1 hrow
    rw [importedTable_eq] at hmem
    have hnot := (mem_filter.1 hmem).2
    by_contra hout
    have hremoved : isRemoved ctx (scopes.map Prod.fst) row = true := by
      rw [isRemoved_iff, hscope]
      refine ⟨?_, hout⟩
      simp [replaceable, (Prod.mk.inj hscope).1, haction, hstatus]
    rw [hremoved] at hnot
    exact absurd hnot (by decide)
  · rw [importedTable_eq, keptTable_eq htable hplain, filter_comm, filter_written htable.ids hcovers,
      filter_filter]
    refine filter_congr fun row _ => ?_
    by_cases hout : scopeOf row ∈ (scopes.map Prod.fst).map (Prod.mk "domain")
    · rw [decide_eq_false (not_not.2 hout), Bool.and_false, Bool.false_and]
    · have hsame : isRemoved ctx (scopes.map Prod.fst) row = replaceable ctx.action row := by
        rw [Bool.eq_iff_iff, isRemoved_iff, and_iff_left hout]
      rw [hsame, Bool.and_comm]

/-- The counts of a call are those of its transaction or its prediction. -/
lemma importOverrides_run (haction : normalizeAction payload.action = .ok action)
    (hmode : normalizeOverrideImportMode payload.mode = .ok mode)
    (hrun : runImport (payload.dryRun.getD true) ⟨action, actor, now⟩ mode (readRows (domainRows table))
      (parseOverrideExchangeLines payload.content).scopes fresh table = (.ok counts, t)) :
    importOverrides payload actor now fresh table =
      (.ok (importResponse action mode (payload.dryRun.getD true) (parseOverrideExchangeLines payload.content)
        counts), t) := by
  rw [importOverrides, haction, hmode]
  refine (bind_of_ok (a := action) (t := table) rfl).trans ?_
  refine (bind_of_ok (a := mode) (t := table) rfl).trans ?_
  refine (bind_of_ok (read_apply _ _)).trans ?_
  exact bind_of_ok hrun

lemma runImport_real (ctx : ImportContext) (mode : OverrideImportMode) (htable : Constrained table)
    (hvalues : values.Nodup) (hids : Table.Unique (·.id) (keptTable ctx table (withFreshIds values fresh))) :
    ∃ t, runImport false ctx mode (readRows (domainRows table)) values fresh table =
        (.ok (importedCounts ctx mode table (withFreshIds values fresh)), t) ∧
      t = importedTable ctx mode table (withFreshIds values fresh) ∧ Constrained t := by
  have hscopes : ((withFreshIds values fresh).map Prod.fst).Nodup := by rwa [map_fst_withFreshIds]
  obtain ⟨counts, t, hrun, ht, hconstrained, rfl⟩ :=
    (importOverridesTx_ensures htable mode hscopes).exists_ok fun e t h => h.2.1 hids
  refine ⟨t, ?_, ht, hconstrained⟩
  rw [runImport, readRows_view, ← importView_eq, if_neg Bool.false_ne_true, transaction, hrun]

/-- **An import does what its dry run predicts**, and leaves each parsed scope with one active row, which has
the action. -/
theorem import_as_predicted (table : List OverrideRow) (htable : Constrained table)
    (hplain : PlainStatus table) (payload : OverrideImportRequest) (action : String) (mode : OverrideImportMode)
    (haction : normalizeAction payload.action = .ok action)
    (hmode : normalizeOverrideImportMode payload.mode = .ok mode) (actor : String) (now : ℕ)
    (fresh : ℕ → Uuid) (hfresh : FreshIds table fresh) :
    ∃ predicted response t,
      importOverrides { payload with dryRun := some true } actor now fresh table = (.ok predicted, table) ∧
      importOverrides { payload with dryRun := some false } actor now fresh table = (.ok response, t) ∧
      predicted.imported = response.imported ∧ predicted.updated = response.updated ∧
      predicted.deleted = response.deleted ∧ Effect (parsedScopes payload) action mode table t := by
  have hids : Table.Unique (·.id) (keptTable ⟨action, actor, now⟩ table
      (withFreshIds (parseOverrideExchangeLines payload.content).scopes fresh)) := by
    rw [keptTable_eq htable hplain]
    exact unique_written_fresh htable.ids hfresh
  obtain ⟨t, hrun, rfl, ht⟩ := runImport_real ⟨action, actor, now⟩ mode htable
    (nodup_parsed payload.content) hids
  have heffect := effect_importedTable htable hplain ht
  rw [map_fst_withFreshIds] at heffect
  have hcounts := predictedCounts_eq ⟨action, actor, now⟩ mode
    (parseOverrideExchangeLines payload.content).scopes fresh htable hplain
  refine ⟨_, _, _, importOverrides_run (t := table) haction hmode rfl, importOverrides_run haction hmode hrun,
    ?_, ?_, ?_, heffect⟩
  · exact congrArg ImportCounts.imported hcounts
  · exact congrArg ImportCounts.updated hcounts
  · exact congrArg ImportCounts.deleted hcounts

/-- A row for a domain that is blocked. -/
def blockedRow : OverrideRow where
  id := 1
  scopeType := "domain"
  scopeValue := "example.com"
  action := "block"
  status := "active"
  createdAt := 1
  updatedAt := 1

/-- A list of two domains that replaces the blocked ones. -/
def blockList : OverrideImportRequest where
  action := "block"
  mode := some "replace"
  dryRun := none
  content := "example.org\nexample.net"

theorem import_as_predicted_replace :
    ∃ predicted response t,
      importOverrides { blockList with dryRun := some true } "alice" 20 (· + 2) [blockedRow] =
        (.ok predicted, [blockedRow]) ∧
      importOverrides { blockList with dryRun := some false } "alice" 20 (· + 2) [blockedRow] =
        (.ok response, t) ∧
      predicted.imported = response.imported ∧ predicted.updated = response.updated ∧
      predicted.deleted = response.deleted ∧
      Effect (parsedScopes blockList) "block" .replace [blockedRow] t :=
  import_as_predicted [blockedRow] ⟨by decide, by decide⟩ (by decide +kernel) blockList "block" .replace
    (by decide +kernel) (by decide +kernel) "alice" 20 (· + 2)
    ⟨fun _ _ h => Nat.add_right_cancel h, fun i h => by simp [blockedRow] at h⟩

/-- A row whose status is not in the index, but is taken for active. -/
def shoutedRow : OverrideRow :=
  { blockedRow with status := "ACTIVE" }

/-- The dry run counts a row to be deleted that the import leaves. -/
theorem dry_run_miscounts :
    Constrained [shoutedRow] ∧
      ((importOverrides { blockList with dryRun := some true } "alice" 20 (· + 2) [shoutedRow]).1.toOption.map
        (·.deleted)) = some 1 ∧
      ((importOverrides { blockList with dryRun := some false } "alice" 20 (· + 2) [shoutedRow]).1.toOption.map
        (·.deleted)) = some 0 :=
  ⟨⟨by decide, by decide⟩, by decide +kernel, by decide +kernel⟩

end OpenDefender.System.OverrideExchange
