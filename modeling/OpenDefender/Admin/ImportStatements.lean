import OpenDefender.Admin.OverrideStatements

/-!
The statements of an import of overrides (`import_overrides` of `services/admin-api/src/main.rs`).

The import reads the domain rows, counts what it would do, and in its transaction writes the scopes one after the
other. `importOverridesTx_ensures`: the transaction leaves `importedTable` and reports `importedCounts`, unless an id
that was drawn for a new row is in use; no statement violates the index on active scopes.
-/

namespace OpenDefender.Admin

open Lib Lib.Script Text Engine List

/-! ### The statements -/

/-- The counts of an import. -/
structure ImportCounts where
  imported : ℕ
  updated : ℕ
  deleted : ℕ
  deriving DecidableEq, Repr

/-- One row in `active_scope_values_by_action`, which the loop builds along with the view. -/
def addActiveScope (view : ImportView) (byAction : Assoc String (List String)) (row : OverrideRow) :
    Assoc String (List String) :=
  if countsAsActive row && (view.activeByScope.get row.scopeValue).isNone then
    byAction.set row.action ((byAction.get row.action).getD [] ++ [row.scopeValue])
  else byAction

/-- What the loop over the existing rows collects. -/
def readRows (rows : List OverrideRow) : ImportView × Assoc String (List String) :=
  rows.foldl (fun found row => (found.1.addRow row, addActiveScope found.1 found.2 row))
    (ImportView.empty, .empty)

/-- Whether a scope has a row that would be updated. -/
def isKnown (view : ImportView) (action scopeValue : String) : Bool :=
  (view.activeByScope.get scopeValue).isSome ||
    (view.latestByScopeAction.get (scopeValue, action)).isSome

/-- The counts a dry run reports. -/
def predictedCounts (found : ImportView × Assoc String (List String)) (action : String)
    (mode : OverrideImportMode) (scopes : List String) : ImportCounts where
  imported := scopes.countP fun scopeValue => !isKnown found.1 action scopeValue
  updated := scopes.countP fun scopeValue => isKnown found.1 action scopeValue
  deleted :=
    match mode with
    | .merge => 0
    | .replace => ((found.2.get action).getD []).countP fun scopeValue => scopeValue ∉ scopes

/-- One scope in the loop of the transaction, with the view and the counts of new and updated rows. -/
def importStep (ctx : ImportContext) (state : ImportView × ℕ × ℕ) (scope : String × Uuid) :
    TableScript (ImportView × ℕ × ℕ) := do
  let (write, view) := importScope ctx state.1 scope.1 scope.2
  execute fun table => write.apply ctx table
  match write with
  | .insert _ _ => pure (view, state.2.1 + 1, state.2.2)
  | _ => pure (view, state.2.1, state.2.2 + 1)

/-- The removal in mode `replace`, with the number of rows that went. -/
def removeOthers (ctx : ImportContext) (scopes : List String) : TableScript ℕ := do
  let removed ← read fun table => removedRows ctx table scopes
  execute fun table => (OverrideWrite.delete (removed.map (·.id))).apply ctx table
  pure removed.length

/-- The transaction of `import_overrides`. -/
def importOverridesTx (ctx : ImportContext) (mode : OverrideImportMode) (view : ImportView)
    (scopes : List (String × Uuid)) : TableScript ImportCounts := do
  revokeDuplicates view.duplicateActiveIds ctx.now
  let (_, imported, updated) ← scopes.foldlM (importStep ctx) (view, 0, 0)
  match mode with
  | .merge => pure { imported, updated, deleted := 0 }
  | .replace => do
    let deleted ← removeOthers ctx (scopes.map Prod.fst)
    pure { imported, updated, deleted }

/-- The scopes of an import, each with the id that is drawn if it needs a new row. -/
def withFreshIds (scopes : List String) (fresh : ℕ → Uuid) : List (String × Uuid) :=
  scopes.zipIdx.map fun scope => (scope.1, fresh scope.2)

/-- The counts of an import, as predicted or after its transaction. -/
def runImport (dryRun : Bool) (ctx : ImportContext) (mode : OverrideImportMode)
    (found : ImportView × Assoc String (List String)) (scopes : List String) (fresh : ℕ → Uuid) :
    TableScript ImportCounts :=
  if dryRun then pure (predictedCounts found ctx.action mode scopes)
  else transaction (importOverridesTx ctx mode found.1 (withFreshIds scopes fresh))

/-! ### What the statements do -/

variable {table : List OverrideRow} {now : ℕ} {ctx : ImportContext} {view : ImportView}
  {done todo scopes : List (String × Uuid)}

/-- The number of scopes that get a new row. -/
def newScopes (ctx : ImportContext) (view : ImportView) (scopes : List (String × Uuid)) : ℕ :=
  scopes.countP fun scope => chosen view ctx.action scope.1 = none

/-- The number of scopes whose row is activated. -/
def knownScopes (ctx : ImportContext) (view : ImportView) (scopes : List (String × Uuid)) : ℕ :=
  scopes.countP fun scope => chosen view ctx.action scope.1 ≠ none

lemma newScopes_cons (scope : String × Uuid) (todo : List (String × Uuid)) :
    newScopes ctx view (scope :: todo) = newScopes ctx view [scope] + newScopes ctx view todo := by
  rw [← singleton_append, newScopes, countP_append]
  rfl

lemma knownScopes_cons (scope : String × Uuid) (todo : List (String × Uuid)) :
    knownScopes ctx view (scope :: todo) = knownScopes ctx view [scope] + knownScopes ctx view todo := by
  rw [← singleton_append, knownScopes, countP_append]
  rfl

/-- One scope. It fails only if the id of its new row is in use. -/
lemma importStep_ensures (hids : Table.Unique (·.id) table) (hindex : ActiveUnique table)
    (hcovers : Covers view table) (hscopes : ((done ++ [scope]).map Prod.fst).Nodup)
    (hdone : Constrained (written ctx view table done))
    (hcurrent : chosen current ctx.action scope.1 = chosen view ctx.action scope.1)
    (imported updated : ℕ) :
    Ensures (importStep ctx (current, imported, updated) scope) (written ctx view table done)
      (fun state t => t = written ctx view table (done ++ [scope]) ∧ Constrained t ∧
        state = ((importScope ctx current scope.1 scope.2).2, imported + newScopes ctx view [scope],
          updated + knownScopes ctx view [scope]))
      (fun e t => e = .violates "overrides_pkey" ∧
        ¬Table.Unique (·.id) (written ctx view table (done ++ [scope])) ∧ Constrained t) := by
  have hwrite : (importScope ctx current scope.1 scope.2).1 = scopeWrite ctx view scope := by
    rw [scopeWrite, ← hcurrent]
    rfl
  have hnext : (scopeWrite ctx view scope).apply ctx (written ctx view table done) =
      written ctx view table (done ++ [scope]) := written_concat hcovers hdone.ids
  rw [importStep]
  dsimp only
  rw [hwrite]
  refine Ensures.bind ((execute_ensures ?_).mono (fun _ _ ht => ht) ?_) fun _ t hwritten => ?_
  · rw [hnext]
    exact activeUnique_written hids hindex hcovers hscopes
  · rintro e t ⟨he, hkey, rfl⟩
    rw [hnext] at hkey
    exact ⟨he, hkey, hdone⟩
  · obtain ⟨heq, ht⟩ := hwritten
    rw [hnext] at heq
    rw [scopeWrite, newScopes, knownScopes]
    cases hchosen : chosen view ctx.action scope.1 with
    | none => exact Ensures.pure ⟨heq, ht, by simp [hchosen]⟩
    | some id => exact Ensures.pure ⟨heq, ht, by simp [hchosen]⟩

/-- **The loop.** The view changes from scope to scope, but not what it chooses for the scopes to come;
the loop stops only at an id that is in use. -/
theorem foldlM_importStep (hids : Table.Unique (·.id) table) (hindex : ActiveUnique table)
    (hcovers : Covers view table) (hscopes : ((done ++ todo).map Prod.fst).Nodup)
    (hdone : Constrained (written ctx view table done))
    (hcurrent : ∀ scope ∈ todo, chosen current ctx.action scope.1 = chosen view ctx.action scope.1)
    (imported updated : ℕ) :
    Ensures (todo.foldlM (importStep ctx) (current, imported, updated)) (written ctx view table done)
      (fun state t => t = written ctx view table (done ++ todo) ∧ Constrained t ∧
        state.2 = (imported + newScopes ctx view todo, updated + knownScopes ctx view todo))
      (fun e t => e = .violates "overrides_pkey" ∧
        ¬Table.Unique (·.id) (written ctx view table (done ++ todo)) ∧ Constrained t) := by
  induction todo generalizing done current imported updated with
  | nil => exact Ensures.pure ⟨by rw [append_nil], hdone, rfl⟩
  | cons scope todo ih =>
    rw [append_cons] at hscopes ⊢
    have hfirst : ((done ++ [scope]).map Prod.fst).Nodup := by
      rw [map_append] at hscopes
      exact (nodup_append.1 hscopes).1
    have hfresh : ∀ other ∈ todo, other.1 ≠ scope.1 := by
      intro other hother heq
      rw [map_append, nodup_append] at hscopes
      exact hscopes.2.2 scope.1 (by simp) other.1 (mem_map_of_mem hother) heq.symm
    have hnext : ∀ other ∈ todo, chosen (importScope ctx current scope.1 scope.2).2 ctx.action other.1 =
        chosen view ctx.action other.1 := fun other hother =>
      (chosen_importScope (hfresh other hother)).trans (hcurrent other (mem_cons_of_mem _ hother))
    have hstep := importStep_ensures hids hindex hcovers hfirst hdone
      (hcurrent scope mem_cons_self) imported updated
    rw [foldlM_cons]
    refine Ensures.bind (hstep.mono (fun _ _ ht => ht) ?_) ?_
    · exact fun e t ⟨he, hkey, ht⟩ => ⟨he, fun h => hkey (unique_written_of_append h), ht⟩
    · rintro state t ⟨rfl, ht, rfl⟩
      have hrest := ih hscopes ht hnext (imported + newScopes ctx view [scope]) (updated + knownScopes ctx view [scope])
      refine hrest.mono (fun state t ⟨heq, ht, hcounts⟩ => ⟨heq, ht, ?_⟩) fun _ _ ht => ht
      rw [hcounts, newScopes_cons scope todo, knownScopes_cons scope todo, Nat.add_assoc, Nat.add_assoc]

lemma constrained_withoutDuplicates (htable : Constrained table) :
    Constrained (withoutDuplicates table view now) := by
  rw [withoutDuplicates]
  split_ifs
  · exact htable
  · exact constrained_revoke htable _ _

/-- The table after the loop. -/
def keptTable (ctx : ImportContext) (table : List OverrideRow) (scopes : List (String × Uuid)) :
    List OverrideRow :=
  written ctx (importView table) (withoutDuplicates table (importView table) ctx.now) scopes

/-- The row goes in mode `replace`. -/
def isRemoved (ctx : ImportContext) (scopes : List String) (row : OverrideRow) : Bool :=
  row.scopeType == "domain" && row.action == ctx.action && row.status == "active" &&
    row.scopeValue ∉ scopes

/-- The table after an import. -/
def importedTable (ctx : ImportContext) (mode : OverrideImportMode) (table : List OverrideRow)
    (scopes : List (String × Uuid)) : List OverrideRow :=
  match mode with
  | .merge => keptTable ctx table scopes
  | .replace => (keptTable ctx table scopes).filter fun row => !isRemoved ctx (scopes.map Prod.fst) row

/-- The counts of an import. -/
def importedCounts (ctx : ImportContext) (mode : OverrideImportMode) (table : List OverrideRow)
    (scopes : List (String × Uuid)) : ImportCounts where
  imported := newScopes ctx (importView table) scopes
  updated := knownScopes ctx (importView table) scopes
  deleted :=
    match mode with
    | .merge => 0
    | .replace => (keptTable ctx table scopes).countP (isRemoved ctx (scopes.map Prod.fst))

lemma delete_removedRows (hids : Table.Unique (·.id) table) (values : List String) :
    (OverrideWrite.delete ((removedRows ctx table values).map (·.id))).apply ctx table =
      table.filter fun row => !isRemoved ctx values row := by
  refine filter_congr fun row hrow => ?_
  have hmem : row.id ∈ (removedRows ctx table values).map (·.id) ↔ isRemoved ctx values row = true := by
    rw [mem_map]
    constructor
    · rintro ⟨r, hr, hid⟩
      obtain ⟨hr, hremoved⟩ := mem_filter.1 hr
      exact hids.eq hr hrow hid ▸ hremoved
    · exact fun h => ⟨row, mem_filter.2 ⟨hrow, h⟩, rfl⟩
  rw [Bool.eq_iff_iff, decide_eq_true_eq, hmem, Bool.not_eq_true', Bool.not_eq_true]

lemma removeOthers_run (htable : Constrained table) (values : List String) :
    removeOthers ctx values table =
      (.ok (table.countP (isRemoved ctx values)), table.filter fun row => !isRemoved ctx values row) := by
  have hdelete : execute (fun t => (OverrideWrite.delete ((removedRows ctx table values).map (·.id))).apply
      ctx t) table = (.ok (), table.filter fun row => !isRemoved ctx values row) := by
    rw [← delete_removedRows htable.ids values]
    refine execute_run ?_
    rw [delete_removedRows htable.ids values]
    exact ⟨htable.ids.filter _, htable.scopes.filter _⟩
  rw [removeOthers, bind_of_ok (read_apply _ _), bind_of_ok hdelete, countP_eq_length_filter]
  rfl

/-- **The transaction of an import** leaves the table and the counts above, unless an id that was drawn is
in use. -/
theorem importOverridesTx_ensures (htable : Constrained table) (mode : OverrideImportMode)
    (hscopes : (scopes.map Prod.fst).Nodup) :
    Ensures (importOverridesTx ctx mode (importView table) scopes) table
      (fun counts t => t = importedTable ctx mode table scopes ∧ Constrained t ∧
        counts = importedCounts ctx mode table scopes)
      (fun e t => e = .violates "overrides_pkey" ∧
        ¬Table.Unique (·.id) (keptTable ctx table scopes) ∧ Constrained t) := by
  have hstart : Constrained (withoutDuplicates table (importView table) ctx.now) :=
    constrained_withoutDuplicates htable
  have hnil : Constrained (written ctx (importView table)
      (withoutDuplicates table (importView table) ctx.now) []) := by rwa [written_nil]
  have hloop := foldlM_importStep hstart.ids hstart.scopes (covers_importView table ctx.now)
    (show (([] ++ scopes).map Prod.fst).Nodup from hscopes) hnil (fun _ _ => rfl) 0 0
  rw [written_nil, nil_append, Nat.zero_add, Nat.zero_add] at hloop
  rw [importOverridesTx]
  refine Ensures.bind_ok (revokeDuplicates_run htable _ _) (Ensures.bind hloop ?_)
  rintro ⟨current, imported, updated⟩ t ⟨rfl, ht, hcounts⟩
  obtain ⟨rfl, rfl⟩ := Prod.mk.inj hcounts
  cases mode with
  | merge => exact Ensures.pure ⟨rfl, ht, rfl⟩
  | replace =>
    refine Ensures.of_ok (bind_of_ok (removeOthers_run ht _)) ⟨rfl, ?_, rfl⟩
    exact ⟨ht.ids.filter _, ht.scopes.filter _⟩

lemma readRows_view (rows : List OverrideRow) : (readRows rows).1 = viewOf rows := by
  induction rows using List.reverseRecOn with
  | nil => rfl
  | append_singleton rows row ih =>
    rw [viewOf_concat, ← ih, readRows, foldl_concat]
    rfl

lemma map_fst_withFreshIds (values : List String) (fresh : ℕ → Uuid) :
    (withFreshIds values fresh).map Prod.fst = values := by
  rw [withFreshIds, map_map]
  exact zipIdx_map_fst 0 values

/-- A scope is parsed once. -/
lemma nodup_parsed (content : String) : (parseOverrideExchangeLines content).scopes.Nodup := by
  rw [parseOverrideExchangeLines]
  refine List.foldlRecOn (motive := fun parsed => parsed.scopes.Nodup) (lines content) parseOverrideLine
    ?_ fun parsed h line _ => ?_
  · exact nodup_nil
  rw [parseOverrideLine]
  dsimp only
  split
  · exact h
  · split
    · split
      · exact h
      · rename_i scopeValue _ hnew
        exact nodup_append.2 ⟨h, nodup_singleton _, by
          rintro x hx y hy rfl
          exact hnew (mem_singleton.1 hy ▸ hx)⟩
    · exact h

end OpenDefender.Admin
