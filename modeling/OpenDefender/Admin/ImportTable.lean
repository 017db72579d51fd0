import OpenDefender.Admin.Overrides
import OpenDefender.Lib.Table

/-!
What an import of overrides finds in the table, and what its writes leave.

`import_overrides` goes through the rows once and keeps the active row of each scope and the newest row of each
scope and action; for each imported scope it then writes the one row it has `chosen`, or a new one. The
maps change as it goes on, but what is chosen for a scope does not depend on the scopes before it, so the table after
any number of scopes has a closed form, `written`. In it a scope has no two active rows (`activeUnique_written`),
whatever the statuses were before.
-/

namespace OpenDefender.Admin

open Lib Text Engine List

/-! ### The unique index -/

/-- The rows in the index on active scopes. -/
def activeRows (table : List OverrideRow) : List OverrideRow :=
  table.filter fun row => row.status == "active"

/-- `overrides_active_scope_uidx`. -/
def ActiveUnique (table : List OverrideRow) : Prop :=
  Table.Unique scopeOf (activeRows table)

instance (table : List OverrideRow) : Decidable (ActiveUnique table) :=
  inferInstanceAs (Decidable (List.Nodup _))

variable {table : List OverrideRow} {row : OverrideRow}

lemma mem_activeRows : row ∈ activeRows table ↔ row ∈ table ∧ row.status = "active" := by
  simp [activeRows]

/-- In a table with unique ids, the index asks for no two active rows of one scope. -/
lemma activeUnique_iff_pairwise : ActiveUnique table ↔ table.Pairwise fun r r' =>
      r.status = "active" → r'.status = "active" → scopeOf r ≠ scopeOf r' := by
  rw [ActiveUnique, Table.Unique, activeRows, List.Nodup, pairwise_map, pairwise_filter]
  simp only [beq_iff_eq]

/-- The active row of a scope is the only one. -/
lemma ActiveUnique.eq (h : ActiveUnique table) {r r' : OverrideRow} (hr : r ∈ table) (hr' : r' ∈ table)
    (hactive : r.status = "active") (hactive' : r'.status = "active") (hscope : scopeOf r = scopeOf r') : r = r' :=
  Table.Unique.eq h (mem_activeRows.2 ⟨hr, hactive⟩) (mem_activeRows.2 ⟨hr', hactive'⟩) hscope

/-- Rows that keep their scope and are not activated. -/
lemma ActiveUnique.map (h : ActiveUnique table) {f : OverrideRow → OverrideRow}
    (hscope : ∀ r, scopeOf (f r) = scopeOf r) (hstatus : ∀ r, (f r).status = "active" → r.status = "active") :
    ActiveUnique (table.map f) := by
  rw [activeUnique_iff_pairwise] at h ⊢
  refine pairwise_map.2 (h.imp fun {r r'} hne hr hr' => ?_)
  rw [hscope, hscope]
  exact hne (hstatus r hr) (hstatus r' hr')

lemma ActiveUnique.filter (h : ActiveUnique table) (p : OverrideRow → Bool) :
    ActiveUnique (table.filter p) := by
  rw [activeUnique_iff_pairwise] at h ⊢
  exact h.filter p

lemma ActiveUnique.concat (h : ActiveUnique table)
    (hrow : row.status = "active" → ∀ r ∈ table, r.status = "active" → scopeOf r ≠ scopeOf row) :
    ActiveUnique (table ++ [row]) := by
  rw [activeUnique_iff_pairwise] at h ⊢
  refine pairwise_append.2 ⟨h, pairwise_singleton _ _, fun r hr r' hr' hactive hactive' => ?_⟩
  obtain rfl := mem_singleton.1 hr'
  exact hrow hactive' r hr hactive

/-- One row is changed, and no other one of its new scope is active. -/
lemma ActiveUnique.put (hids : Table.Unique (·.id) table) (h : ActiveUnique table) {id : Uuid}
    {new : OverrideRow → OverrideRow}
    (hnew : ∀ r ∈ table, r.id = id → (new r).status = "active" →
      ∀ r' ∈ table, r'.id ≠ id → r'.status = "active" → scopeOf r' ≠ scopeOf (new r)) :
    ActiveUnique (table.map fun r => if r.id = id then new r else r) := by
  rw [activeUnique_iff_pairwise] at h ⊢
  refine pairwise_map.2 (((pairwise_map.1 hids).and h).imp_of_mem ?_)
  intro r r' hr hr' ⟨hne, hscopes⟩ hactive hactive'
  by_cases hid : r.id = id
  · have hid' : r'.id ≠ id := fun h' => hne (hid.trans h'.symm)
    rw [if_pos hid] at hactive ⊢
    rw [if_neg hid'] at hactive' ⊢
    exact (hnew r hr hid hactive r' hr' hid' hactive').symm
  · rw [if_neg hid] at hactive ⊢
    by_cases hid' : r'.id = id
    · rw [if_pos hid'] at hactive' ⊢
      exact hnew r' hr' hid' hactive' r hr hid hactive
    · rw [if_neg hid'] at hactive' ⊢
      exact hscopes hactive hactive'

/-! ### What the import finds -/

/-- The status is taken for active. -/
def countsAsActive (row : OverrideRow) : Bool :=
  eqIgnoreAsciiCase row.status "active"

/-- The rows the import reads, newest first. -/
def domainRows (table : List OverrideRow) : List OverrideRow :=
  (table.filter fun row => row.scopeType == "domain").insertionSort latestFirst

/-- The view before the first row. -/
def ImportView.empty : ImportView where
  activeByScope := .empty
  latestByScopeAction := .empty
  duplicateActiveIds := []

variable (rows : List OverrideRow)

/-- The view of some rows. -/
def viewOf : ImportView :=
  rows.foldl ImportView.addRow ImportView.empty

lemma importView_eq (table : List OverrideRow) : importView table = viewOf (domainRows table) := rfl

lemma viewOf_concat (row : OverrideRow) : viewOf (rows ++ [row]) = (viewOf rows).addRow row :=
  foldl_concat _ _ _ _

lemma mem_domainRows : row ∈ domainRows table ↔ row ∈ table ∧ row.scopeType = "domain" := by
  rw [domainRows, mem_insertionSort, mem_filter, beq_iff_eq]

/-- The first row of a scope that counts as active. -/
def firstActive (scopeValue : String) : Option OverrideRow :=
  rows.find? fun row => row.scopeValue = scopeValue && countsAsActive row

/-- The first row of a scope with an action. -/
def firstOfAction (scopeValue action : String) : Option OverrideRow :=
  rows.find? fun row => row.scopeValue = scopeValue && row.action = action

lemma firstActive_concat (row : OverrideRow) (scopeValue : String) : firstActive (rows ++ [row]) scopeValue =
      (firstActive rows scopeValue).or
        (if row.scopeValue = scopeValue && countsAsActive row then some row else none) := by
  rw [firstActive, find?_append, find?_singleton]
  rfl

lemma firstOfAction_concat (row : OverrideRow) (scopeValue action : String) :
    firstOfAction (rows ++ [row]) scopeValue action = (firstOfAction rows scopeValue action).or
        (if row.scopeValue = scopeValue && row.action = action then some row else none) := by
  rw [firstOfAction, find?_append, find?_singleton]
  rfl

/-- The maps after one more row. -/
lemma activeByScope_addRow (view : ImportView) (row : OverrideRow) : (view.addRow row).activeByScope =
      if countsAsActive row && (view.activeByScope.get row.scopeValue).isNone then
        view.activeByScope.set row.scopeValue (row.id, row.action)
      else view.activeByScope := by
  rw [ImportView.addRow, countsAsActive]
  dsimp only
  by_cases hactive : eqIgnoreAsciiCase row.status "active" = true
  · cases hget : view.activeByScope.get row.scopeValue <;> simp [hactive]
  · simp [hactive]

lemma latestByScopeAction_addRow (view : ImportView) (row : OverrideRow) :
    (view.addRow row).latestByScopeAction =
      view.latestByScopeAction.setIfAbsent (row.scopeValue, row.action) row.id := by
  rw [ImportView.addRow]
  dsimp only
  split_ifs <;> rfl

lemma duplicateActiveIds_addRow (view : ImportView) (row : OverrideRow) :
    (view.addRow row).duplicateActiveIds =
      if countsAsActive row && (view.activeByScope.get row.scopeValue).isSome then
        view.duplicateActiveIds ++ [row.id]
      else view.duplicateActiveIds := by
  rw [ImportView.addRow, countsAsActive]
  dsimp only
  by_cases hactive : eqIgnoreAsciiCase row.status "active" = true
  · cases hget : view.activeByScope.get row.scopeValue <;> simp [hactive]
  · simp [hactive]

/-- The active row of a scope is the first one. -/
lemma activeByScope_viewOf (scopeValue : String) : (viewOf rows).activeByScope.get scopeValue =
      (firstActive rows scopeValue).map fun row => (row.id, row.action) := by
  induction rows using List.reverseRecOn generalizing scopeValue with
  | nil => rfl
  | append_singleton rows row ih =>
    rw [viewOf_concat, firstActive_concat, activeByScope_addRow, ih row.scopeValue, Option.isNone_map]
    by_cases hscope : row.scopeValue = scopeValue
    · subst hscope
      cases hfirst : firstActive rows row.scopeValue with
      | none =>
        by_cases hactive : countsAsActive row = true
        · simp [hactive]
        · simp [hactive, ih, hfirst]
      | some first => simp [ih, hfirst]
    · have hget : ∀ map : Assoc String (Uuid × String), ∀ value,
          (map.set row.scopeValue value).get scopeValue = map.get scopeValue := fun map value => by
        rw [Assoc.get_set, if_neg (Ne.symm hscope)]
      have hrest : ((if countsAsActive row && (firstActive rows row.scopeValue).isNone then
          (viewOf rows).activeByScope.set row.scopeValue (row.id, row.action)
          else (viewOf rows).activeByScope).get scopeValue) =
            (viewOf rows).activeByScope.get scopeValue := by
        split_ifs
        · exact hget _ _
        · rfl
      rw [hrest, ih]
      simp [hscope]

/-- The newest row of a scope and an action is the first one. -/
lemma latestByScopeAction_viewOf (scopeValue action : String) :
    (viewOf rows).latestByScopeAction.get (scopeValue, action) =
      (firstOfAction rows scopeValue action).map (·.id) := by
  induction rows using List.reverseRecOn with
  | nil => rfl
  | append_singleton rows row ih =>
    rw [viewOf_concat, firstOfAction_concat, latestByScopeAction_addRow, Assoc.setIfAbsent]
    by_cases hkey : row.scopeValue = scopeValue ∧ row.action = action
    · obtain ⟨rfl, rfl⟩ := hkey
      rw [ih]
      cases hfirst : firstOfAction rows row.scopeValue row.action with
      | none => simp
      | some first => simp [ih, hfirst]
    · have hne : (scopeValue, action) ≠ (row.scopeValue, row.action) := fun h =>
        hkey ⟨(Prod.mk.inj h).1.symm, (Prod.mk.inj h).2.symm⟩
      have hrest : ((if ((viewOf rows).latestByScopeAction.get (row.scopeValue, row.action)).isSome then
          (viewOf rows).latestByScopeAction
          else (viewOf rows).latestByScopeAction.set (row.scopeValue, row.action) row.id).get
            (scopeValue, action)) = (viewOf rows).latestByScopeAction.get (scopeValue, action) := by
        split_ifs
        · rfl
        · rw [Assoc.get_set, if_neg hne]
      have hrow : (row.scopeValue = scopeValue && row.action = action) = false := by
        simpa using hkey
      rw [hrest, ih, hrow]
      simp

variable {rows : List OverrideRow}

lemma mem_of_firstActive {scopeValue : String} (h : firstActive rows scopeValue = some row) :
    row ∈ rows ∧ row.scopeValue = scopeValue ∧ countsAsActive row = true := by
  have hrow := find?_some h
  rw [Bool.and_eq_true, decide_eq_true_eq] at hrow
  exact ⟨mem_of_find?_eq_some h, hrow⟩

lemma mem_of_firstOfAction {scopeValue action : String} (h : firstOfAction rows scopeValue action = some row) :
    row ∈ rows ∧ row.scopeValue = scopeValue ∧ row.action = action := by
  have hrow := find?_some h
  rw [Bool.and_eq_true, decide_eq_true_eq, decide_eq_true_eq] at hrow
  exact ⟨mem_of_find?_eq_some h, hrow⟩

/-- A row that counts as active is the first of its scope, or a duplicate. -/
lemma first_or_duplicate (hrow : row ∈ rows) (hactive : countsAsActive row = true) :
    firstActive rows row.scopeValue = some row ∨ row.id ∈ (viewOf rows).duplicateActiveIds := by
  induction rows using List.reverseRecOn with
  | nil => cases hrow
  | append_singleton rows last ih =>
    rw [viewOf_concat, duplicateActiveIds_addRow, firstActive_concat]
    rcases mem_append.1 hrow with hrow | hrow
    · rcases ih hrow with hfirst | hduplicate
      · exact Or.inl (by rw [hfirst, Option.some_or])
      · right
        split_ifs
        · exact mem_append_left _ hduplicate
        · exact hduplicate
    · obtain rfl := mem_singleton.1 hrow
      rw [activeByScope_viewOf, Option.isSome_map]
      cases hfirst : firstActive rows row.scopeValue with
      | none => exact Or.inl (by simp [hactive])
      | some first => exact Or.inr (by simp [hactive])

/-- If the scopes of the rows that count as active differ, there is no duplicate. -/
lemma duplicateActiveIds_eq_nil (h : Table.Unique (·.scopeValue) (rows.filter countsAsActive)) :
    (viewOf rows).duplicateActiveIds = [] := by
  induction rows using List.reverseRecOn with
  | nil => rfl
  | append_singleton rows row ih =>
    rw [Table.Unique, filter_append, map_append, nodup_append] at h
    rw [viewOf_concat, duplicateActiveIds_addRow, ih h.1, activeByScope_viewOf, Option.isSome_map]
    refine if_neg fun hboth => ?_
    rw [Bool.and_eq_true, Option.isSome_iff_exists] at hboth
    obtain ⟨hactive, first, hfirst⟩ := hboth
    obtain ⟨hmem, hscope, hfirstActive⟩ := mem_of_firstActive hfirst
    refine h.2.2 first.scopeValue ?_ row.scopeValue (by simp [hactive]) hscope
    exact mem_map_of_mem (mem_filter.2 ⟨hmem, hfirstActive⟩)

/-! ### What it chooses -/

variable (ctx : ImportContext) (view : ImportView)

/-- The row that is activated for a scope: the active one, or the newest one with the action. -/
def chosen (action scopeValue : String) : Option Uuid :=
  ((view.activeByScope.get scopeValue).map Prod.fst).or
    (view.latestByScopeAction.get (scopeValue, action))

/-- The write of a scope. -/
def scopeWrite (scope : String × Uuid) : OverrideWrite :=
  match chosen view ctx.action scope.1 with
  | some id => .activate id
  | none => .insert scope.2 scope.1

/-- Writing one scope does not change what is chosen for another. -/
lemma chosen_importScope {ctx : ImportContext} {view : ImportView} {scopeValue other : String}
    {freshId : Uuid} (hne : other ≠ scopeValue) :
    chosen (importScope ctx view scopeValue freshId).2 ctx.action other =
      chosen view ctx.action other := by
  have hkey : (other, ctx.action) ≠ (scopeValue, ctx.action) := fun h => hne (Prod.mk.inj h).1
  rw [chosen, chosen, importScope]
  simp [hne]

/-! ### What it leaves -/

/-- The table after the duplicates have been revoked. -/
def withoutDuplicates (table : List OverrideRow) (view : ImportView) (now : ℕ) : List OverrideRow :=
  if view.duplicateActiveIds.isEmpty then table else revoke table view.duplicateActiveIds now

/-- What the import knows of the table: what it chooses for a scope is a row of it, and no other row of the
scope counts as active. -/
structure Covers (view : ImportView) (table : List OverrideRow) : Prop where
  known : ∀ action scopeValue id, chosen view action scopeValue = some id →
    ∃ row ∈ table, row.id = id ∧ row.scopeType = "domain" ∧ row.scopeValue = scopeValue
  active : ∀ action, ∀ row ∈ table, row.scopeType = "domain" → row.status = "active" →
    chosen view action row.scopeValue = some row.id

lemma mem_revoke {ids : List Uuid} (h : row ∈ revoke table ids now) :
    ∃ old ∈ table, row.id = old.id ∧ scopeOf row = scopeOf old ∧
      (row = old ∧ old.id ∉ ids ∨ row.status = "revoked" ∧ old.id ∈ ids) := by
  obtain ⟨old, hold, rfl⟩ := mem_map.1 h
  refine ⟨old, hold, ?_⟩
  split_ifs with hmem
  · exact ⟨rfl, rfl, Or.inr ⟨rfl, hmem⟩⟩
  · exact ⟨rfl, rfl, Or.inl ⟨rfl, hmem⟩⟩

lemma mem_withoutDuplicates {view : ImportView} (h : row ∈ withoutDuplicates table view now) :
    ∃ old ∈ table, row.id = old.id ∧ scopeOf row = scopeOf old ∧
      (row = old ∧ old.id ∉ view.duplicateActiveIds ∨ row.status = "revoked") := by
  rw [withoutDuplicates] at h
  split at h
  · rename_i hempty
    exact ⟨row, h, rfl, rfl, Or.inl ⟨rfl, by simp [isEmpty_iff.1 hempty]⟩⟩
  · obtain ⟨old, hold, hid, hscope, hcases⟩ := mem_revoke h
    exact ⟨old, hold, hid, hscope, hcases.imp_right And.left⟩

lemma exists_mem_withoutDuplicates (now : ℕ) (h : row ∈ table) :
    ∃ row' ∈ withoutDuplicates table view now, row'.id = row.id ∧ scopeOf row' = scopeOf row := by
  rw [withoutDuplicates]
  split
  · exact ⟨row, h, rfl, rfl⟩
  · refine ⟨_, mem_map_of_mem h, ?_⟩
    split_ifs <;> exact ⟨rfl, rfl⟩

lemma countsAsActive_of_active (h : row.status = "active") : countsAsActive row = true := by
  rw [countsAsActive, h]
  decide +kernel

/-- What an import reads covers the table it writes to. -/
lemma covers_importView (table : List OverrideRow) (now : ℕ) :
    Covers (importView table) (withoutDuplicates table (importView table) now) := by
  rw [importView_eq]
  constructor
  · intro action scopeValue id hchosen
    -- a row of the table, as it was read
    obtain ⟨row, hrow, rfl, hscope⟩ : ∃ row ∈ domainRows table, row.id = id ∧
        row.scopeValue = scopeValue := by
      rw [chosen, activeByScope_viewOf, latestByScopeAction_viewOf] at hchosen
      cases hfirst : firstActive (domainRows table) scopeValue with
      | some row =>
        rw [hfirst] at hchosen
        obtain ⟨hmem, hscope, -⟩ := mem_of_firstActive hfirst
        exact ⟨row, hmem, Option.some.inj hchosen, hscope⟩
      | none =>
        rw [hfirst] at hchosen
        obtain ⟨row, hrow, hid⟩ := Option.map_eq_some_iff.1 hchosen
        obtain ⟨hmem, hscope, -⟩ := mem_of_firstOfAction hrow
        exact ⟨row, hmem, hid, hscope⟩
    obtain ⟨hmem, hdomain⟩ := mem_domainRows.1 hrow
    obtain ⟨row', hrow', hid, hsame⟩ := exists_mem_withoutDuplicates (viewOf (domainRows table)) now hmem
    exact ⟨row', hrow', hid, (Prod.mk.inj hsame).1.trans hdomain, (Prod.mk.inj hsame).2.trans hscope⟩
  · intro action row hrow hdomain hactive
    obtain ⟨old, hold, -, -, ⟨rfl, hsingle⟩ | hrevoked⟩ := mem_withoutDuplicates hrow
    · have hmem : row ∈ domainRows table := mem_domainRows.2 ⟨hold, hdomain⟩
      rcases first_or_duplicate hmem (countsAsActive_of_active hactive) with hfirst | hduplicate
      · rw [chosen, activeByScope_viewOf, hfirst]
        rfl
      · exact absurd hduplicate hsingle
    · rw [hactive] at hrevoked
      exact absurd hrevoked (by decide)

/-- A row that is activated. -/
def activateRow (row : OverrideRow) : OverrideRow :=
  { row with action := ctx.action, reason := some importReason, createdBy := some ctx.actor,
             expiresAt := none, status := "active", updatedAt := ctx.now }

/-- A row that is inserted for a scope. -/
def importedRow (scope : String × Uuid) : OverrideRow :=
  { id := scope.2, scopeType := "domain", scopeValue := scope.1, action := ctx.action,
    reason := some importReason, createdBy := some ctx.actor, status := "active",
    createdAt := ctx.now, updatedAt := ctx.now }

/-- The row is chosen for one of the scopes. -/
def IsChosen (action : String) (scopes : List (String × Uuid)) (id : Uuid) : Prop :=
  ∃ scope ∈ scopes, chosen view action scope.1 = some id

instance (action : String) (scopes : List (String × Uuid)) (id : Uuid) :
    Decidable (IsChosen view action scopes id) :=
  inferInstanceAs (Decidable (∃ _ ∈ _, _))

/-- The table after the scopes have been written. -/
def written (table : List OverrideRow) (scopes : List (String × Uuid)) : List OverrideRow :=
  (table.map fun row =>
      if IsChosen view ctx.action scopes row.id then activateRow ctx row else row) ++
    (scopes.filter fun scope => chosen view ctx.action scope.1 = none).map (importedRow ctx)

variable {ctx : ImportContext} {view : ImportView} {table : List OverrideRow}
  {scopes : List (String × Uuid)} {scope : String × Uuid} {row : OverrideRow}

lemma written_nil : written ctx view table [] = table := by
  simp [written, IsChosen]

lemma isChosen_concat {id : Uuid} : IsChosen view ctx.action (scopes ++ [scope]) id ↔
    IsChosen view ctx.action scopes id ∨ chosen view ctx.action scope.1 = some id := by
  simp only [IsChosen, mem_append, mem_singleton, or_and_right, exists_or, exists_eq_left]

lemma ids_written : (written ctx view table scopes).map (·.id) = table.map (·.id) ++
    (scopes.filter fun scope => chosen view ctx.action scope.1 = none).map Prod.snd := by
  rw [written, map_append, map_map, map_map]
  congr 1
  refine map_congr_left fun row _ => ?_
  rw [Function.comp_apply]
  split_ifs <;> rfl

lemma unique_written_of_append {more : List (String × Uuid)}
    (h : Table.Unique (·.id) (written ctx view table (scopes ++ more))) :
    Table.Unique (·.id) (written ctx view table scopes) := by
  rw [Table.Unique, ids_written] at h ⊢
  rw [filter_append, map_append, ← append_assoc] at h
  exact (nodup_append.1 h).1

/-- The write of one more scope. -/
lemma written_concat (hcovers : Covers view table)
    (hids : Table.Unique (·.id) (written ctx view table scopes)) :
    (scopeWrite ctx view scope).apply ctx (written ctx view table scopes) =
      written ctx view table (scopes ++ [scope]) := by
  rw [scopeWrite]
  cases hchosen : chosen view ctx.action scope.1 with
  | none =>
    have hsame : ∀ id, IsChosen view ctx.action (scopes ++ [scope]) id ↔
        IsChosen view ctx.action scopes id := fun id => by
      rw [isChosen_concat, hchosen]
      simp
    simp only [written, hsame, filter_append, map_append, OverrideWrite.apply]
    simp [hchosen, importedRow]
  | some id =>
    obtain ⟨row, hrow, rfl, -, -⟩ := hcovers.known _ _ _ hchosen
    rw [Table.Unique, ids_written, nodup_append] at hids
    have hinserted : ((scopes.filter fun scope => chosen view ctx.action scope.1 = none).map
        (importedRow ctx)).map (fun r => if r.id = row.id then activateRow ctx r else r) =
          (scopes.filter fun scope => chosen view ctx.action scope.1 = none).map (importedRow ctx) := by
      refine (map_congr_left fun r hr => ?_).trans (map_id _)
      obtain ⟨other, hother, rfl⟩ := mem_map.1 hr
      refine if_neg fun heq => ?_
      exact hids.2.2 row.id (mem_map_of_mem hrow) other.2 (mem_map_of_mem hother) heq.symm
    have htable : (table.map fun r =>
        if IsChosen view ctx.action scopes r.id then activateRow ctx r else r).map
          (fun r => if r.id = row.id then activateRow ctx r else r) =
        table.map fun r =>
          if IsChosen view ctx.action (scopes ++ [scope]) r.id then activateRow ctx r else r := by
      rw [map_map]
      refine map_congr_left fun r _ => ?_
      rw [Function.comp_apply]
      by_cases hold : IsChosen view ctx.action scopes r.id
      · rw [if_pos hold, if_pos (isChosen_concat.2 (Or.inl hold))]
        split_ifs <;> rfl
      · rw [if_neg hold]
        by_cases hid : r.id = row.id
        · rw [if_pos hid, if_pos (isChosen_concat.2 (Or.inr (by rw [hchosen, hid])))]
        · rw [if_neg hid, if_neg]
          rw [isChosen_concat, hchosen]
          rintro (h | h)
          · exact hold h
          · exact hid (Option.some.inj h).symm
    have happ : (OverrideWrite.activate row.id).apply ctx (written ctx view table scopes) =
        (written ctx view table scopes).map fun r =>
          if r.id = row.id then activateRow ctx r else r := rfl
    rw [happ, written, map_append, hinserted, htable, written, filter_append]
    simp [hchosen]

/-- A row of the old table that is active now is the one chosen for its scope. -/
lemma chosen_of_active (hids : Table.Unique (·.id) table) (hcovers : Covers view table)
    (hrow : row ∈ table) (hdomain : row.scopeType = "domain")
    (hactive : IsChosen view ctx.action scopes row.id ∨ row.status = "active") :
    chosen view ctx.action row.scopeValue = some row.id := by
  rcases hactive with ⟨scope, -, hchosen⟩ | hactive
  · obtain ⟨found, hfound, hid, -, hscope⟩ := hcovers.known _ _ _ hchosen
    obtain rfl := hids.eq hfound hrow hid
    rw [hscope]
    exact hchosen
  · exact hcovers.active ctx.action row hrow hdomain hactive

/-- Rows of other scope types are never chosen. -/
lemma domain_of_isChosen (hids : Table.Unique (·.id) table) (hcovers : Covers view table)
    (hrow : row ∈ table) (h : IsChosen view ctx.action scopes row.id) : row.scopeType = "domain" := by
  obtain ⟨scope, -, hchosen⟩ := h
  obtain ⟨found, hfound, hid, hdomain, -⟩ := hcovers.known _ _ _ hchosen
  exact hids.eq hfound hrow hid ▸ hdomain

/-- **No scope has two active rows** after any number of scopes. -/
theorem activeUnique_written (hids : Table.Unique (·.id) table) (hunique : ActiveUnique table)
    (hcovers : Covers view table) (hscopes : (scopes.map Prod.fst).Nodup) :
    ActiveUnique (written ctx view table scopes) := by
  have hactive : ∀ r : OverrideRow,
      (if IsChosen view ctx.action scopes r.id then activateRow ctx r else r).status = "active" →
        IsChosen view ctx.action scopes r.id ∨ r.status = "active" := by
    intro r h
    split_ifs at h with hchosen
    · exact Or.inl hchosen
    · exact Or.inr h
  have hscope : ∀ r : OverrideRow,
      scopeOf (if IsChosen view ctx.action scopes r.id then activateRow ctx r else r) = scopeOf r := by
    intro r
    split_ifs <;> rfl
  rw [activeUnique_iff_pairwise, written, pairwise_append]
  refine ⟨pairwise_map.2 ?_, pairwise_map.2 ?_, ?_⟩
  · -- two rows of the old table
    have hpairs := (pairwise_map.1 hids).and (activeUnique_iff_pairwise.1 hunique)
    refine hpairs.imp_of_mem fun {r r'} hr hr' hne hr_active hr'_active hsame => ?_
    rw [hscope, hscope] at hsame
    by_cases hdomain : r.scopeType = "domain"
    · have hdomain' : r'.scopeType = "domain" := (Prod.mk.inj hsame).1.symm.trans hdomain
      have hfirst := chosen_of_active hids hcovers hr hdomain (hactive r hr_active)
      have hsecond := chosen_of_active hids hcovers hr' hdomain' (hactive r' hr'_active)
      rw [← show r.scopeValue = r'.scopeValue from (Prod.mk.inj hsame).2, hfirst] at hsecond
      exact hne.1 (Option.some.inj hsecond)
    · have hold : r.status = "active" := (hactive r hr_active).resolve_left fun h =>
        hdomain (domain_of_isChosen hids hcovers hr h)
      have hold' : r'.status = "active" := (hactive r' hr'_active).resolve_left fun h =>
        hdomain ((Prod.mk.inj hsame).1.trans (domain_of_isChosen hids hcovers hr' h))
      exact hne.2 hold hold' hsame
  · -- two new rows
    have hscopes' := (pairwise_map.1 hscopes).filter fun scope => chosen view ctx.action scope.1 = none
    exact hscopes'.imp fun hne _ _ hsame => hne (Prod.mk.inj hsame).2
  · -- a row of the old table and a new one
    intro x hx y hy hr_active _ hsame
    obtain ⟨r, hr, rfl⟩ := mem_map.1 hx
    obtain ⟨scope, hmem, rfl⟩ := mem_map.1 hy
    rw [hscope] at hsame
    have hchosen := chosen_of_active hids hcovers hr (Prod.mk.inj hsame).1 (hactive r hr_active)
    have hnone := of_decide_eq_true (mem_filter.1 hmem).2
    rw [show r.scopeValue = scope.1 from (Prod.mk.inj hsame).2, hnone] at hchosen
    cases hchosen

end OpenDefender.Admin
