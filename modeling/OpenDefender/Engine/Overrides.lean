import OpenDefender.Engine.Hosts
import OpenDefender.Taxonomy.Activation
import Mathlib.Data.Prod.Lex

/-!
The override lookup of the policy engine (`resolve_override_decision`).

The active, unexpired domain overrides are read newest first; of those that govern the host the
one with the longest scope host wins, and among equally long ones a block over an allow. An
override decision is returned before any rule is consulted.
-/

namespace OpenDefender

open List Option

/-- A row of the `overrides` table. -/
structure OverrideRow where
  id : Uuid
  scopeType : String
  scopeValue : String
  action : String
  reason : Option String := none
  createdBy : Option String := none
  expiresAt : Option Nat := none
  status : String
  createdAt : Nat
  updatedAt : Nat
  deriving DecidableEq, Repr

namespace Engine

open Lib Text

/-- `ORDER BY updated_at DESC, created_at DESC`. -/
def newerFirst (a b : OverrideRow) : Prop :=
  b.updatedAt < a.updatedAt ∨ (b.updatedAt = a.updatedAt ∧ b.createdAt ≤ a.createdAt)

instance : DecidableRel newerFirst := fun _ _ => inferInstanceAs (Decidable (_ ∨ _))

/-- The `WHERE` clause of the override query at time `now`. -/
def OverrideRow.inForce (now : Nat) (row : OverrideRow) : Bool :=
  row.scopeType == "domain" && row.status == "active" &&
    (match row.expiresAt with
      | none => true
      | some t => now < t)

variable (table : List OverrideRow)

/-- The rows the override query returns. -/
def activeDomainOverrides (now : Nat) : List OverrideRow :=
  (table.filter (OverrideRow.inForce now)).insertionSort newerFirst

/-- `OverrideRecord`. -/
structure OverrideRecord where
  scopeValue : String
  action : String
  deriving DecidableEq, Repr

/-- `normalize_override_action`. -/
def normalizeOverrideAction (action : String) : String :=
  toAsciiLowercase (trim action)

/-- `override_action_rank`. -/
def overrideActionRank (action : String) : Nat :=
  match normalizeOverrideAction action with
  | "block" => 2
  | "allow" => 1
  | _ => 0

/-- The `match &best` in the loop: a longer scope wins, then a higher action rank. -/
def keepBest (best : Option (Nat × OverrideRecord)) (record : OverrideRecord) :
    Option (Nat × OverrideRecord) :=
  let specificity := domainScopeSpecificity record.scopeValue
  match best with
  | some (bestSpecificity, bestRecord) =>
    if bestSpecificity > specificity then best
    else if bestSpecificity = specificity then
      if overrideActionRank record.action > overrideActionRank bestRecord.action then
        some (specificity, record)
      else best
    else some (specificity, record)
  | none => some (specificity, record)

/-- The loop over the rows. The outer `none` is the early return: a row with a blank scope makes
the whole lookup answer nothing. -/
def scanOverrides (host : String) :
    Option (Nat × OverrideRecord) → List OverrideRow → Option (Option (Nat × OverrideRecord))
  | best, [] => some best
  | best, row :: rows =>
    match nonEmptyString row.scopeValue with
    | none => none
    | some scopeValue =>
      if domainScopeMatchesHost scopeValue host then
        scanOverrides host (keepBest best ⟨scopeValue, row.action⟩) rows
      else scanOverrides host best rows

/-- The action of the winning record; other texts than `allow` and `block` decide nothing. -/
def overrideActionOf (action : String) : Option PolicyAction :=
  match toAsciiLowercase (trim action) with
  | "allow" => some .allow
  | "block" => some .block
  | _ => none

/-- The decision of a winning override. -/
def overrideDecision (record : OverrideRecord) (action : PolicyAction) : PolicyDecision :=
  { action := action
    cacheHit := false
    verdict := some
      { primaryCategory := "override-manual"
        subcategory := "domain:" ++ record.scopeValue
        riskLevel := "low"
        confidence := 1
        recommendedAction := action }
    decisionSource := some "override" }

/-- `resolve_override_decision` on a reachable database. -/
def resolveOverrideDecision (now : Nat) (normalizedKey : String) : Option PolicyDecision := do
  let host ← hostFromNormalizedKey normalizedKey
  let best ← scanOverrides host none (activeDomainOverrides table now)
  let (_, matched) ← best
  let action ← overrideActionOf matched.action
  return overrideDecision matched action

/-! ### The winning override -/

/-- The record that decides a key, with its action. -/
def overrideWinner (now : Nat) (normalizedKey : String) : Option (OverrideRecord × PolicyAction) := do
  let host ← hostFromNormalizedKey normalizedKey
  let best ← scanOverrides host none (activeDomainOverrides table now)
  let (_, matched) ← best
  let action ← overrideActionOf matched.action
  return (matched, action)

/-- The decision is that of the winner. -/
lemma resolveOverrideDecision_eq (now : Nat) (normalizedKey : String) :
    resolveOverrideDecision table now normalizedKey =
      (overrideWinner table now normalizedKey).map fun w => overrideDecision w.1 w.2 := by
  unfold resolveOverrideDecision overrideWinner
  cases hostFromNormalizedKey normalizedKey with
  | none => rfl
  | some host =>
    simp only [bind_eq_bind, bind_some]
    cases scanOverrides host none (activeDomainOverrides table now) with
    | none => rfl
    | some best =>
      cases best with
      | none => rfl
      | some matched =>
        simp only [bind_some]
        cases overrideActionOf matched.2.action <;> rfl

/-- The records of the rows that govern a host, in the order they are read. -/
def governing (host : String) (rows : List OverrideRow) : List OverrideRecord :=
  rows.filterMap fun row => (nonEmptyString row.scopeValue).bind fun scopeValue =>
    if domainScopeMatchesHost scopeValue host then some ⟨scopeValue, row.action⟩ else none

/-- What the records are compared by: the length of the scope, then the rank of the action. -/
def overrideOrder (record : OverrideRecord) : ℕ ×ₗ ℕ :=
  toLex (domainScopeSpecificity record.scopeValue, overrideActionRank record.action)

/-- A record with the length of its scope, as the loop carries it. -/
def withSpecificity (record : OverrideRecord) : Nat × OverrideRecord :=
  (domainScopeSpecificity record.scopeValue, record)

/-- One round of the loop keeps the greater record, the earlier one among equals. -/
lemma keepBest_eq_argAux (best : Option OverrideRecord) (record : OverrideRecord) :
    keepBest (best.map withSpecificity) record =
      (List.argAux (fun b c => overrideOrder c < overrideOrder b) best record).map
        withSpecificity := by
  cases best with
  | none => rfl
  | some b =>
    simp only [keepBest, map_some, withSpecificity, List.argAux, overrideOrder,
      Prod.Lex.toLex_lt_toLex]
    split
    · rename_i h
      rw [if_neg (by omega)]
      rfl
    · split
      · rename_i h
        split
        · rename_i hrank
          rw [if_pos (Or.inr ⟨h, hrank⟩)]
          rfl
        · rename_i hrank
          rw [if_neg (by omega)]
          rfl
      · rw [if_pos (by omega)]
        rfl

/-- The loop finds the greatest of the governing records; it answers nothing if a scope is blank. -/
lemma scanOverrides_eq (host : String) (best : Option OverrideRecord) (rows : List OverrideRow) :
    scanOverrides host (best.map withSpecificity) rows =
      if ∀ row ∈ rows, (nonEmptyString row.scopeValue).isSome then
        some (((governing host rows).foldl
          (List.argAux fun b c => overrideOrder c < overrideOrder b) best).map withSpecificity)
      else none := by
  induction rows generalizing best with
  | nil => simp [scanOverrides, governing]
  | cons row rows ih =>
    cases hs : nonEmptyString row.scopeValue with
    | none => simp [scanOverrides, hs]
    | some scopeValue =>
      by_cases hm : domainScopeMatchesHost scopeValue host = true
      · simp only [scanOverrides, hs, hm, if_true, keepBest_eq_argAux, ih, forall_mem_cons,
          isSome_some, true_and, governing, filterMap_cons, bind_some,
          foldl_cons]
      · simp only [scanOverrides, hs, hm, Bool.false_eq_true, if_false, ih,
          forall_mem_cons, isSome_some, true_and, governing, filterMap_cons,
          bind_some]

variable {record : OverrideRecord}

/-- The winner is the greatest governing record, and its action is allow or block. -/
lemma overrideWinner_eq_some {table : List OverrideRow} :
    overrideWinner table now normalizedKey = some (record, action) ↔
      ∃ host, hostFromNormalizedKey normalizedKey = some host ∧
        (∀ row ∈ activeDomainOverrides table now, (nonEmptyString row.scopeValue).isSome) ∧
        (governing host (activeDomainOverrides table now)).argmax overrideOrder = some record ∧
        overrideActionOf record.action = some action := by
  unfold overrideWinner
  cases hostFromNormalizedKey normalizedKey with
  | none => simp
  | some host =>
    have hscan := scanOverrides_eq host none (activeDomainOverrides table now)
    rw [map_none] at hscan
    simp only [bind_eq_bind, bind_some, hscan, List.argmax, Option.some.injEq,
      exists_eq_left']
    split
    · rename_i hall
      simp only [bind_some]
      cases hfold : (governing host (activeDomainOverrides table now)).foldl
          (List.argAux fun b c => overrideOrder c < overrideOrder b) none with
      | none => simp
      | some best =>
        simp only [map_some, bind_some, withSpecificity]
        constructor
        · intro h
          obtain ⟨a, ha, h⟩ := bind_eq_some_iff.1 h
          cases h
          exact ⟨hall, rfl, ha⟩
        · rintro ⟨-, h, ha⟩
          cases h
          rw [ha]
          rfl
    · rename_i hall
      simp [hall]

/-- The rank of an action decides whether it allows or blocks. -/
lemma overrideActionOf_eq (x : String) : overrideActionOf x =
    if overrideActionRank x = 2 then some .block
    else if overrideActionRank x = 1 then some .allow else none := by
  unfold overrideActionOf overrideActionRank normalizeOverrideAction
  generalize toAsciiLowercase (trim x) = t
  by_cases hblock : t = "block"
  · subst hblock
    rfl
  · by_cases hallow : t = "allow"
    · subst hallow
      rfl
    · split <;> simp_all

lemma mem_governing {host : String} :
    record ∈ governing host rows ↔
      ∃ row ∈ rows, nonEmptyString row.scopeValue = some record.scopeValue ∧
        row.action = record.action ∧ domainScopeMatchesHost record.scopeValue host = true := by
  unfold governing
  rw [mem_filterMap]
  constructor
  · rintro ⟨row, hrow, h⟩
    obtain ⟨scopeValue, hs, h⟩ := bind_eq_some_iff.1 h
    split at h
    · rename_i hm
      cases h
      exact ⟨row, hrow, hs, rfl, hm⟩
    · cases h
  · rintro ⟨row, hrow, hs, ha, hm⟩
    exact ⟨row, hrow, by simp [hs, hm, ha]⟩

end Engine

end OpenDefender
