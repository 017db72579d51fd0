import OpenDefender.System.OverrideExchange
import OpenDefender.System.StoredOverrides
import Mathlib.Data.List.Destutter

/-!
An export of overrides that is imported again.

The export takes the active rows of an action, expired ones as well; the import of its text activates each of
them anew, without an expiry and with the time of the import (`importedTable_export`). `round_trip_iff` says
on which tables the engine decides as before (`Settled`); on the one of `expired_block_returns` an expired row
comes back.
-/

namespace OpenDefender.System.OverrideRoundTrip

open Admin Lib Lib.Script Text Engine FirstMatch OverrideImport OverrideStatements OverrideExchange StoredOverrides List

/-! ### Export -/

/-- The scopes `export_overrides` selects, sorted and without repetition. -/
def exportedScopes (table : List OverrideRow) (action : String) : List String :=
  (((table.filter (replaceable action)).map (·.scopeValue)).insertionSort (· ≤ ·)).destutter (· ≠ ·)

/-- The text `export_overrides` returns. -/
def exportOverrides (table : List OverrideRow) (action : String) : Except ApiError String := do
  let action ← normalizeAction action
  return join "\n" (exportedScopes table action)

variable {table : List OverrideRow} {action scopeValue : String} {now : ℕ}

/-- Stored rows of an action that are active have different scopes. -/
lemma nodup_replaceable (htable : StoredTable table) (action : String) :
    ((table.filter (replaceable action)).map (·.scopeValue)).Nodup := by
  have hscopes : ((table.filter (replaceable action)).map (·.scopeValue)).map (Prod.mk "domain") =
      (table.filter (replaceable action)).map scopeOf := by
    rw [map_map]
    refine map_congr_left fun row hrow => ?_
    rw [Function.comp_apply, scopeOf, (htable.rows row (mem_of_mem_filter hrow)).domain]
  refine List.Nodup.of_map (Prod.mk "domain") ?_
  rw [hscopes]
  have hsub : (table.filter (replaceable action)).Sublist (activeRows table) := by
    refine monotone_filter_right table fun row hrow => ?_
    rw [replaceable, Bool.and_eq_true] at hrow
    exact hrow.2
  exact htable.scopes.sublist (hsub.map scopeOf)

lemma mem_exportedScopes (htable : StoredTable table) : scopeValue ∈ exportedScopes table action ↔
    ∃ row ∈ table, replaceable action row = true ∧ row.scopeValue = scopeValue := by
  have hperm := perm_insertionSort (· ≤ ·) ((table.filter (replaceable action)).map (·.scopeValue))
  have hchain : (((table.filter (replaceable action)).map (·.scopeValue)).insertionSort (· ≤ ·)).IsChain
      (· ≠ ·) := (hperm.nodup_iff.2 (nodup_replaceable htable action)).isChain
  rw [exportedScopes, destutter_of_isChain _ _ hchain, hperm.mem_iff, mem_map]
  simp only [mem_filter, and_assoc]

/-- A line with a stored scope. -/
lemma mem_parseOverrideLine (parsed : ParsedOverrideImport)
    (h : normalizeDomainScope scopeValue = .ok scopeValue) :
    value ∈ (parseOverrideLine parsed scopeValue).scopes ↔ value ∈ parsed.scopes ∨ value = scopeValue := by
  obtain ⟨-, htrim, hne⟩ := normal_text h
  have hcomment : stripPrefix "#" scopeValue = none := by
    refine stripPrefix_eq_none.2 fun rest heq => ?_
    have hmem : '#' ∈ scopeValue.toList := by simp [heq]
    rcases mem_of_accepted h hmem with hstar | hchar
    · exact absurd hstar (by decide)
    · exact absurd hchar (by decide)
  have hskip : (scopeValue.isEmpty || (stripPrefix "#" scopeValue).isSome) = false := by
    rw [hcomment, Option.isSome_none, Bool.or_false, Bool.eq_false_iff, ne_eq, String.isEmpty_iff]
    exact hne
  rw [parseOverrideLine]
  dsimp only
  rw [htrim, hskip, if_neg Bool.false_ne_true, h]
  dsimp only
  split_ifs with hknown
  · exact ⟨Or.inl, fun hvalue => hvalue.elim id fun heq => heq ▸ hknown⟩
  · rw [mem_append, mem_singleton]

lemma mem_foldl_parseOverrideLine {values : List String}
    (hvalues : ∀ value ∈ values, normalizeDomainScope value = .ok value) (parsed : ParsedOverrideImport)
    :
    value ∈ (values.foldl parseOverrideLine parsed).scopes ↔ value ∈ parsed.scopes ∨ value ∈ values := by
  induction values generalizing parsed with
  | nil => simp
  | cons first rest ih =>
    obtain ⟨hfirst, hrest⟩ := forall_mem_cons.1 hvalues
    rw [foldl_cons, ih hrest, mem_parseOverrideLine parsed hfirst, mem_cons, or_assoc]

/-- The exported text names the exported scopes. -/
lemma mem_parsed_export (htable : StoredTable table) :
    scopeValue ∈ (parseOverrideExchangeLines (join "\n" (exportedScopes table action))).scopes ↔
      ∃ row ∈ table, replaceable action row = true ∧ row.scopeValue = scopeValue := by
  have hnormal : ∀ value ∈ exportedScopes table action, normalizeDomainScope value = .ok value := by
    intro value hvalue
    obtain ⟨row, hrow, -, rfl⟩ := (mem_exportedScopes htable).1 hvalue
    exact (htable.rows row hrow).scope
  have hlines : lines (join "\n" (exportedScopes table action)) = exportedScopes table action := by
    refine lines_join fun value hvalue => ?_
    have hwhite := isWhitespace_of_accepted (hnormal value hvalue)
    refine ⟨(normal_text (hnormal value hvalue)).2.2, fun hmem => ?_, fun hmem => ?_⟩
    · exact absurd (hwhite _ hmem) (by decide)
    · exact absurd (hwhite _ hmem) (by decide)
  rw [parseOverrideExchangeLines, hlines, mem_foldl_parseOverrideLine hnormal, ← mem_exportedScopes htable]
  simp

/-! ### Import of the export -/

/-- The table with each exported row activated anew. -/
def reactivated (ctx : ImportContext) (table : List OverrideRow) : List OverrideRow :=
  table.map fun row => if replaceable ctx.action row then activateRow ctx row else row

lemma plainStatus (htable : StoredTable table) : PlainStatus table := by
  intro row hrow hactive
  have hstatus := (htable.rows row hrow).status
  rw [countsAsActive] at hactive
  simp only [mem_cons, not_mem_nil, or_false] at hstatus
  rcases hstatus with h | h | h | h
  · exact h
  all_goals
    rw [h] at hactive
    exact absurd hactive (by decide +kernel)

lemma replaceable_iff : replaceable action row = true ↔
    row.scopeType = "domain" ∧ row.action = action ∧ row.status = "active" := by
  simp only [replaceable, Bool.and_eq_true, beq_iff_eq, and_assoc]

section Reimport

variable {ctx : ImportContext} {scopes : List (String × Uuid)}

/-- The scopes are those of the exported rows. -/
def NamesExported (table : List OverrideRow) (action : String) (scopes : List (String × Uuid)) : Prop :=
  ∀ scopeValue, scopeValue ∈ scopes.map Prod.fst ↔
    ∃ row ∈ table, replaceable action row = true ∧ row.scopeValue = scopeValue

/-- Each scope is found active, in its exported row. -/
lemma chosen_of_exported (htable : StoredTable table) (hrow : row ∈ table)
    (hexported : replaceable action row = true) :
    chosen (importView table) ctx.action row.scopeValue = some row.id := by
  obtain ⟨hdomain, -, hactive⟩ := replaceable_iff.1 hexported
  exact (covers_plain htable.toConstrained (plainStatus htable)).active _ row hrow hdomain hactive

lemma isChosen_iff (htable : StoredTable table) (hscopes : NamesExported table ctx.action scopes)
    (hrow : row ∈ table) :
    IsChosen (importView table) ctx.action scopes row.id ↔ replaceable ctx.action row = true := by
  constructor
  · rintro ⟨scope, hscope, hchosen⟩
    obtain ⟨other, hother, hexported, hvalue⟩ := (hscopes scope.1).1 (mem_map_of_mem hscope)
    rw [← hvalue, chosen_of_exported htable hother hexported] at hchosen
    exact htable.ids.eq hother hrow (Option.some.inj hchosen) ▸ hexported
  · intro hexported
    obtain ⟨scope, hscope, hvalue⟩ := mem_map.1 ((hscopes row.scopeValue).2 ⟨row, hrow, hexported, rfl⟩)
    exact ⟨scope, hscope, hvalue ▸ chosen_of_exported htable hrow hexported⟩

lemma keptTable_export (htable : StoredTable table) (hscopes : NamesExported table ctx.action scopes) :
    keptTable ctx table scopes = reactivated ctx table := by
  have hnone : (scopes.filter fun scope => chosen (importView table) ctx.action scope.1 = none) = [] := by
    refine filter_eq_nil_iff.2 fun scope hscope hnew => ?_
    obtain ⟨row, hrow, hexported, hvalue⟩ := (hscopes scope.1).1 (mem_map_of_mem hscope)
    rw [← hvalue, chosen_of_exported htable hrow hexported] at hnew
    exact absurd hnew (by simp)
  rw [keptTable_eq htable.toConstrained (plainStatus htable), written, hnone, map_nil, append_nil,
    reactivated]
  refine map_congr_left fun row hrow => ?_
  simp only [isChosen_iff htable hscopes hrow]

/-- **The import of an export** activates the exported rows anew, in either mode. -/
theorem importedTable_export (htable : StoredTable table) (hscopes : NamesExported table ctx.action scopes)
    (mode : OverrideImportMode) : importedTable ctx mode table scopes = reactivated ctx table := by
  rw [importedTable_eq, keptTable_export htable hscopes]
  refine filter_eq_self.2 fun row hrow => ?_
  obtain ⟨old, hold, rfl⟩ := mem_map.1 hrow
  -- a row that would be removed is one that was exported, and its scope is named
  have hkept : isRemoved ctx (scopes.map Prod.fst)
      (if replaceable ctx.action old then activateRow ctx old else old) = false := by
    rw [Bool.eq_false_iff, ne_eq, isRemoved_iff]
    split_ifs with hexported
    · rintro ⟨-, hout⟩
      refine hout (mem_map.2 ⟨old.scopeValue, (hscopes _).2 ⟨old, hold, hexported, rfl⟩, ?_⟩)
      rw [← (htable.rows old hold).domain]
      rfl
    · exact fun h => hexported h.1
  rw [hkept, Bool.and_false, Bool.not_false]

end Reimport

/-! ### What decides a scope host -/

/-- The row has the scope host. -/
def hostIs (host : String) (row : OverrideRow) : Bool :=
  hasHost host (recordOf row)

/-- The row of an action that comes first among those in force with the scope host. -/
def newestInForce (table : List OverrideRow) (now : ℕ) (action host : String) : Option OverrideRow :=
  ((table.filter fun row => OverrideRow.inForce now row && (hostIs host row && row.action = action)).insertionSort
    newerFirst).head?

/-- The exported row with the scope host that was created last. -/
def lastCreated (table : List OverrideRow) (action host : String) : Option OverrideRow :=
  newest (·.createdAt) (table.filter fun row => replaceable action row && hostIs host row)

instance : Std.Total newerFirst :=
  ⟨fun a b => by unfold newerFirst; omega⟩

instance : IsTrans OverrideRow newerFirst :=
  ⟨fun a b c => by unfold newerFirst; omega⟩

lemma hostRecords_map (host : String) (rows : List OverrideRow) :
    hostRecords host (rows.map recordOf) = (rows.filter (hostIs host)).map recordOf := by
  have hcomp : hasHost host ∘ recordOf = hostIs host := by
    funext row
    rw [Function.comp_apply, hostIs]
  rw [hostRecords, filter_map, hcomp]

/-- The records with the scope host and an action are led by the newest in force. -/
lemma head?_hostRecords (table : List OverrideRow) (now : ℕ) (action host : String) :
    ((hostRecords host (activeRecords table now)).filter fun record => record.action = action).head? =
      (newestInForce table now action host).map recordOf := by
  have hsorted : ((activeDomainOverrides table now).filter (hostIs host)).filter
      (fun row => row.action = action) = (table.filter fun row =>
        OverrideRow.inForce now row && (hostIs host row && row.action = action)).insertionSort newerFirst := by
    rw [activeDomainOverrides, filter_filter, filter_insertionSort, filter_filter]
    refine congrArg (List.insertionSort newerFirst) (filter_congr fun row _ => ?_)
    rw [Bool.and_comm, Bool.and_comm (decide _)]
  rw [activeRecords, hostRecords_map, filter_map, head?_map, newestInForce, ← hsorted]
  rfl

/-- A block wins over an allow, and the newest of its like. -/
lemma bestRecord_activeRecords (hread : ∀ row ∈ activeDomainOverrides table now, Readable row)
    (host : String) : bestRecord host (activeRecords table now) =
      ((newestInForce table now "block" host).or (newestInForce table now "allow" host)).map recordOf := by
  have haction : ∀ record ∈ hostRecords host (activeRecords table now),
      record.action = "allow" ∨ record.action = "block" :=
    fun record hrecord => (readable_record hread (mem_hostRecords.1 hrecord).1).1
  rw [bestRecord, Option.map_or, ← head?_hostRecords, ← head?_hostRecords]
  exact argmax_of_two (by decide +kernel) haction

/-! ### What the import changes -/

section Lookup

variable {ctx : ImportContext} {host : String} {row : OverrideRow}

lemma hostIs_iff : hostIs host row = true ↔ normalizeScopeHost row.scopeValue = some host := by
  rw [hostIs, hasHost_iff, recordOf]

lemma hostIs_activateRow : hostIs host (activateRow ctx row) = hostIs host row := by
  rw [Bool.eq_iff_iff, hostIs_iff, hostIs_iff, activateRow]

lemma inForce_activateRow (hdomain : row.scopeType = "domain") :
    OverrideRow.inForce now (activateRow ctx row) = true := by
  simp [OverrideRow.inForce, activateRow, hdomain]

/-- A row in force with the action is exported. -/
lemma replaceable_of_inForce (h : OverrideRow.inForce now row = true) (haction : row.action = action) :
    replaceable action row = true := by
  rw [OverrideRow.inForce, Bool.and_eq_true, Bool.and_eq_true, beq_iff_eq, beq_iff_eq] at h
  exact replaceable_iff.2 ⟨h.1.1, haction, h.1.2⟩

lemma mem_newestInForce (h : newestInForce table now action host = some row) :
    row ∈ table ∧ OverrideRow.inForce now row = true ∧ hostIs host row = true ∧ row.action = action := by
  rw [newestInForce] at h
  have hmem := (mem_insertionSort _).1 (mem_of_head? h)
  rw [mem_filter, Bool.and_eq_true, Bool.and_eq_true, decide_eq_true_eq] at hmem
  exact hmem

lemma mem_lastCreated (h : lastCreated table action host = some row) :
    row ∈ table ∧ replaceable action row = true ∧ hostIs host row = true := by
  have hmem := mem_of_newest h
  rw [mem_filter, Bool.and_eq_true] at hmem
  exact hmem

/-- Where nothing is exported, nothing with the action is in force. -/
lemma newestInForce_eq_none (h : lastCreated table action host = none) :
    newestInForce table now action host = none := by
  cases hnewest : newestInForce table now action host with
  | none => rfl
  | some row =>
    obtain ⟨hrow, hforce, hhost, haction⟩ := mem_newestInForce hnewest
    rw [lastCreated, newest_eq_none, filter_eq_nil_iff] at h
    refine absurd ?_ (h row hrow)
    rw [replaceable_of_inForce hforce haction, hhost]
    rfl

/-- The rows of the other action are looked up as before. -/
lemma newestInForce_reactivated_of_ne (hne : other ≠ ctx.action) :
    newestInForce (reactivated ctx table) now other host = newestInForce table now other host := by
  have hother : ∀ r : OverrideRow, r.action = ctx.action →
      (OverrideRow.inForce now r && (hostIs host r && r.action = other)) = false := fun r hr => by
    rw [hr, decide_eq_false hne.symm, Bool.and_false, Bool.and_false]
  have hrows : ((reactivated ctx table).filter fun r =>
      OverrideRow.inForce now r && (hostIs host r && r.action = other)) =
        table.filter fun r => OverrideRow.inForce now r && (hostIs host r && r.action = other) := by
    rw [reactivated, Table.filter_map_of_take_out (q := fun _ => false)]
    · simp
    · intro r _
      rw [Bool.not_false, Bool.and_true]
      split_ifs with hexported
      · rw [hother r (replaceable_iff.1 hexported).2.1, hother (activateRow ctx r) rfl]
      · rfl
    · intro r _ hselected
      split_ifs with hexported
      · rw [if_pos hexported, hother (activateRow ctx r) rfl] at hselected
        cases hselected
      · rfl
  rw [newestInForce, newestInForce, hrows]

/-- Of the exported rows the one created last comes first. -/
lemma newestInForce_reactivated :
    newestInForce (reactivated ctx table) now ctx.action host =
      (lastCreated table ctx.action host).map (activateRow ctx) := by
  have hrows : ((reactivated ctx table).filter fun r =>
      OverrideRow.inForce now r && (hostIs host r && r.action = ctx.action)) =
        (table.filter fun r => replaceable ctx.action r && hostIs host r).map (activateRow ctx) := by
    have hselect : ∀ r ∈ table, (OverrideRow.inForce now (if replaceable ctx.action r then activateRow ctx r else r) &&
        (hostIs host (if replaceable ctx.action r then activateRow ctx r else r) &&
          (if replaceable ctx.action r then activateRow ctx r else r).action = ctx.action)) =
        (replaceable ctx.action r && hostIs host r) := by
      intro r _
      by_cases hexported : replaceable ctx.action r = true
      · have haction : (activateRow ctx r).action = ctx.action := rfl
        rw [if_pos hexported, inForce_activateRow (replaceable_iff.1 hexported).1, hostIs_activateRow, haction,
          decide_eq_true rfl, hexported, Bool.and_true]
      · rw [if_neg hexported, Bool.eq_false_iff.2 hexported, Bool.false_and, Bool.eq_false_iff]
        intro hselected
        rw [Bool.and_eq_true, Bool.and_eq_true, decide_eq_true_eq] at hselected
        exact hexported (replaceable_of_inForce hselected.1 hselected.2.2)
    rw [reactivated, filter_map]
    refine (congrArg _ (filter_congr hselect)).trans (map_congr_left fun r hr => ?_)
    rw [mem_filter, Bool.and_eq_true] at hr
    rw [if_pos hr.2.1]
  have hsorted := map_insertionSort (r := fun a b : OverrideRow => b.createdAt ≤ a.createdAt) (s := newerFirst)
    (activateRow ctx) (table.filter fun r => replaceable ctx.action r && hostIs host r) (fun a _ b _ => by
      simp [newerFirst, activateRow])
  rw [newestInForce, hrows, ← hsorted, head?_map, lastCreated, newest]

/-- A record tells which exported row it is of. -/
lemma eq_of_recordOf_eq (htable : StoredTable table) (hrow : row ∈ table) (hother : other ∈ table)
    (hexported : replaceable action row = true) (hexported' : replaceable action other = true)
    (h : recordOf row = recordOf other) : row = other := by
  obtain ⟨hdomain, -, hactive⟩ := replaceable_iff.1 hexported
  obtain ⟨hdomain', -, hactive'⟩ := replaceable_iff.1 hexported'
  refine htable.scopes.eq hrow hother hactive hactive' (Prod.ext (hdomain.trans hdomain'.symm) ?_)
  exact congrArg OverrideRecord.scopeValue h

lemma recordOf_activateRow (h : replaceable ctx.action row = true) :
    recordOf (activateRow ctx row) = recordOf row := by
  rw [recordOf, recordOf, (replaceable_iff.1 h).2.1]
  rfl

end Lookup

/-! ### Decisions -/

/-- For a scope host nothing changes: it is blocked in any case, or the exported row that decides it is also the
one created last. -/
def Settled (table : List OverrideRow) (now : ℕ) (action host : String) : Prop :=
  action = "allow" ∧ (newestInForce table now "block" host).isSome ∨
    newestInForce table now action host = lastCreated table action host

instance (table : List OverrideRow) (now : ℕ) (action host : String) : Decidable (Settled table now action host) :=
  inferInstanceAs (Decidable (_ ∨ _))

section Decisions

variable {ctx : ImportContext} {host : String}

/-- An exported row that was created last wins again exactly when it is the newest in force. -/
lemma map_recordOf_eq_iff (htable : StoredTable table) :
    ((lastCreated table ctx.action host).map (activateRow ctx)).map recordOf =
        (newestInForce table now ctx.action host).map recordOf ↔
      newestInForce table now ctx.action host = lastCreated table ctx.action host := by
  cases hlast : lastCreated table ctx.action host with
  | none => simp [newestInForce_eq_none hlast]
  | some last =>
    obtain ⟨hlastMem, hlastExported, -⟩ := mem_lastCreated hlast
    cases hnewest : newestInForce table now ctx.action host with
    | none => simp
    | some row =>
      obtain ⟨hrow, hforce, -, haction⟩ := mem_newestInForce hnewest
      rw [Option.map_some, Option.map_some, Option.map_some, Option.some.injEq, Option.some.injEq,
        recordOf_activateRow hlastExported]
      constructor
      · intro h
        exact (eq_of_recordOf_eq htable hlastMem hrow hlastExported (replaceable_of_inForce hforce haction)
          h).symm
      · rintro rfl
        rfl

/-- **One scope host** is decided as before exactly when it is settled. -/
lemma bestRecord_reactivated_iff (htable : StoredTable table) (haction : ctx.action = "allow" ∨ ctx.action = "block")
    (hread : ∀ row ∈ activeDomainOverrides table now, Readable row)
    (hread' : ∀ row ∈ activeDomainOverrides (reactivated ctx table) now, Readable row) :
    bestRecord host (activeRecords (reactivated ctx table) now) = bestRecord host (activeRecords table now) ↔
      Settled table now ctx.action host := by
  rw [bestRecord_activeRecords hread, bestRecord_activeRecords hread', Settled, ← map_recordOf_eq_iff htable]
  rcases haction with haction | haction
  · -- an export of allows
    have hblock : newestInForce (reactivated ctx table) now "block" host = newestInForce table now "block" host :=
      newestInForce_reactivated_of_ne (by rw [haction]; decide)
    rw [hblock, ← haction, newestInForce_reactivated]
    cases newestInForce table now "block" host with
    | none => simp
    | some row => simp
  · -- an export of blocks
    have hallow : newestInForce (reactivated ctx table) now "allow" host = newestInForce table now "allow" host :=
      newestInForce_reactivated_of_ne (by rw [haction]; decide)
    have hnot : ¬ctx.action = "allow" := by rw [haction]; decide
    rw [hallow, ← haction, newestInForce_reactivated]
    cases hlast : lastCreated table ctx.action host with
    | none => simp [newestInForce_eq_none hlast]
    | some last =>
      obtain ⟨-, hexported, -⟩ := mem_lastCreated hlast
      cases hnewest : newestInForce table now ctx.action host with
      | some row => simp [hnot]
      | none =>
        -- an allow in force does not look like the block that comes back
        cases hother : newestInForce table now "allow" host with
        | none => simp [hnot]
        | some other =>
          have hne : recordOf (activateRow ctx last) ≠ recordOf other := fun h =>
            hnot ((congrArg OverrideRecord.action h).trans (mem_newestInForce hother).2.2.2)
          simp [hnot, hne]

lemma storedRow_reactivated (ctx : ImportContext) (htable : StoredTable table)
    (haction : ctx.action = "allow" ∨ ctx.action = "block") :
    ∀ row ∈ reactivated ctx table, StoredRow row := by
  intro row hrow
  obtain ⟨old, hold, rfl⟩ := mem_map.1 hrow
  have hstored := htable.rows old hold
  split_ifs
  · exact ⟨hstored.domain, hstored.scope, haction, by simp [activateRow]⟩
  · exact hstored

lemma readable_of_stored (h : ∀ row ∈ table, StoredRow row) (now : ℕ) :
    ∀ row ∈ activeDomainOverrides table now, Readable row := by
  intro row hrow
  rw [activeDomainOverrides, mem_insertionSort] at hrow
  exact (h row (mem_of_mem_filter hrow)).readable

end Decisions

/-- **The round trip**: an export imported again at any time leaves every decision of the engine at that time as it
was exactly when every scope host is settled. -/
theorem round_trip_iff (table : List OverrideRow) (htable : StoredTable table) (now : ℕ) (action : String)
    (haction : action = "allow" ∨ action = "block") (modeText : Option String) (mode : OverrideImportMode)
    (hmode : normalizeOverrideImportMode modeText = .ok mode) (actor : String) (fresh : ℕ → Uuid) :
    ∃ text response t, exportOverrides table action = .ok text ∧
      importOverrides ⟨action, modeText, some false, text⟩ actor now fresh table = (.ok response, t) ∧
      ((∀ key, resolveOverrideDecision t now key = resolveOverrideDecision table now key) ↔
        ∀ host, Settled table now action host) := by
  have hnormal : normalizeAction action = .ok action := by
    rcases haction with rfl | rfl
    · decide +kernel
    · decide +kernel
  have hscopes : NamesExported table action (withFreshIds
      (parseOverrideExchangeLines (join "\n" (exportedScopes table action))).scopes fresh) := by
    intro scopeValue
    rw [map_fst_withFreshIds, mem_parsed_export htable]
  have hids : Table.Unique (·.id) (keptTable ⟨action, actor, now⟩ table (withFreshIds
      (parseOverrideExchangeLines (join "\n" (exportedScopes table action))).scopes fresh)) := by
    rw [keptTable_export htable hscopes]
    refine htable.ids.map fun row => ?_
    split_ifs <;> rfl
  obtain ⟨t, hrun, rfl, -⟩ := runImport_real ⟨action, actor, now⟩ mode htable.toConstrained
    (nodup_parsed (join "\n" (exportedScopes table action))) hids
  rw [importedTable_export htable hscopes] at hrun
  refine ⟨join "\n" (exportedScopes table action), _, _, ?_, importOverrides_run hnormal hmode hrun, ?_⟩
  · rw [exportOverrides, hnormal]
    rfl
  · have hread := readable_of_stored htable.rows now
    have hread' := readable_of_stored (storedRow_reactivated ⟨action, actor, now⟩ htable haction) now
    rw [decisions_eq_iff hread hread']
    exact forall_congr' fun host => bestRecord_reactivated_iff htable haction hread hread'

/-- A block that stays in force. -/
def standingRow : OverrideRow where
  id := 1
  scopeType := "domain"
  scopeValue := "example.com"
  action := "block"
  status := "active"
  createdAt := 1
  updatedAt := 1

lemma settled_standingRow (host : String) : Settled [standingRow] 10 "block" host := by
  refine Or.inr ?_
  rw [newestInForce, lastCreated, newest]
  have hforce : OverrideRow.inForce 10 standingRow = true := by decide
  have hexported : replaceable "block" standingRow = true := by decide
  have haction : standingRow.action = "block" := rfl
  by_cases hhost : hostIs host standingRow = true
  · simp [hforce, hexported, haction, hhost]
  · simp [Bool.eq_false_iff.2 hhost]

theorem round_trip_standing :
    ∃ text response t, exportOverrides [standingRow] "block" = .ok text ∧
      importOverrides ⟨"block", none, some false, text⟩ "alice" 10 (· + 2) [standingRow] = (.ok response, t) ∧
      ∀ key, resolveOverrideDecision t 10 key = resolveOverrideDecision [standingRow] 10 key := by
  have hstored : StoredTable [standingRow] := ⟨⟨by decide, by decide⟩, by decide +kernel⟩
  obtain ⟨text, response, t, hexport, himport, hiff⟩ := round_trip_iff [standingRow] hstored 10 "block" (Or.inr rfl)
    none .merge (by decide +kernel) "alice" (· + 2)
  exact ⟨text, response, t, hexport, himport, hiff.2 settled_standingRow⟩

/-- The same block, but it has expired. -/
def expiredRow : OverrideRow :=
  { standingRow with expiresAt := some 5 }

/-- An expired block is in force again after the round trip. -/
theorem expired_block_returns :
    StoredTable [expiredRow] ∧ exportOverrides [expiredRow] "block" = .ok "example.com" ∧
      (resolveOverrideDecision [expiredRow] 10 "domain:example.com").map (·.action) = none ∧
      (resolveOverrideDecision
        (importOverrides ⟨"block", none, some false, "example.com"⟩ "alice" 10 (· + 2) [expiredRow]).2 10
        "domain:example.com").map (·.action) = some .block :=
  ⟨⟨⟨by decide, by decide⟩, by decide +kernel⟩, by decide +kernel, by decide +kernel, by decide +kernel⟩

end OpenDefender.System.OverrideRoundTrip
