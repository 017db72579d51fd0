import OpenDefender.Lib.Table

/-!
The table `classification_requests` (`services/admin-api/migrations/0006_classification_requests.sql`): the
keys that wait to be classified. A request is written by an upsert and removed by its key.
-/

namespace OpenDefender

open Lib.Table List

/-- A row of `classification_requests`. -/
structure RequestRow where
  normalizedKey : String
  status : String
  baseUrl : Option String
  lastError : Option String
  updatedAt : ℕ
  deriving DecidableEq, Repr

/-- The part of a request that `DO UPDATE` sets. -/
def RequestRow.assign (row : RequestRow) (status : String) (baseUrl lastError : Option String)
    (now : ℕ) : RequestRow :=
  { row with status, baseUrl := baseUrl.or row.baseUrl, lastError, updatedAt := now }

variable (rows : List RequestRow) (normalizedKey : String)

/-- `INSERT INTO classification_requests … ON CONFLICT (normalized_key) DO UPDATE`. -/
def upsertRequest (normalizedKey status : String)
    (baseUrl lastError : Option String) (now : ℕ) : List RequestRow :=
  if rows.any fun row => row.normalizedKey = normalizedKey then
    rows.map fun row =>
      if row.normalizedKey = normalizedKey then row.assign status baseUrl lastError now else row
  else rows ++ [{ normalizedKey, status, baseUrl, lastError, updatedAt := now }]

/-- `DELETE FROM classification_requests WHERE normalized_key = …`. -/
def deleteRequest : List RequestRow :=
  rows.filter fun row => row.normalizedKey ≠ normalizedKey

/-- The request of a key. -/
def requestOf : Option RequestRow :=
  rows.find? fun row => row.normalizedKey = normalizedKey

lemma requestOf_map_own (f : RequestRow → RequestRow)
    (hf : ∀ row, (f row).normalizedKey = row.normalizedKey) :
    requestOf (rows.map fun row => if row.normalizedKey = normalizedKey then f row else row)
      normalizedKey = (requestOf rows normalizedKey).map f := by
  rw [requestOf, requestOf]
  induction rows with
  | nil => rfl
  | cons row rows ih =>
    by_cases hrow : row.normalizedKey = normalizedKey
    · simp [hrow, hf]
    · simpa [hrow] using ih

/-- **What an upsert writes** under its key. -/
lemma requestOf_upsertRequest (normalizedKey status : String) (baseUrl lastError : Option String) (now : ℕ) :
    ∃ row, requestOf (upsertRequest rows normalizedKey status baseUrl lastError now) normalizedKey =
      some row ∧ row.status = status ∧ row.lastError = lastError := by
  rw [upsertRequest]
  split_ifs with hmem
  · rw [requestOf_map_own rows normalizedKey (·.assign status baseUrl lastError now) fun _ => rfl]
    cases hfind : requestOf rows normalizedKey with
    | none =>
      obtain ⟨row, hrow, hkey⟩ := any_eq_true.1 hmem
      exact absurd hkey (find?_eq_none.1 hfind row hrow)
    | some row => exact ⟨_, rfl, rfl, rfl⟩
  · have hnone : requestOf rows normalizedKey = none := by simpa [requestOf] using hmem
    refine ⟨{ normalizedKey, status, baseUrl, lastError, updatedAt := now }, ?_, rfl, rfl⟩
    rw [requestOf, find?_append, ← requestOf, hnone]
    simp

/-! ### The keys that have a request -/

/-- The keys that have a request. -/
def requestKeys : List String := rows.map (·.normalizedKey)

/-- An `UPDATE` leaves the keys as they are. -/
lemma requestKeys_update
    (f : RequestRow → RequestRow) (hf : ∀ row, (f row).normalizedKey = row.normalizedKey) :
    requestKeys (rows.map fun row => if row.normalizedKey = normalizedKey then f row else row) =
      requestKeys rows := by
  rw [requestKeys, requestKeys, map_map]
  refine map_congr_left fun row _ => ?_
  rw [Function.comp_apply]
  split_ifs
  · exact hf row
  · rfl

lemma mem_requestKeys_upsertRequest (normalizedKey status : String)
    (baseUrl lastError : Option String) (now : ℕ) (key : String) :
    key ∈ requestKeys (upsertRequest rows normalizedKey status baseUrl lastError now) ↔
      key ∈ requestKeys rows ∨ key = normalizedKey := by
  rw [upsertRequest]
  split_ifs with hany
  · rw [requestKeys_update rows normalizedKey (·.assign status baseUrl lastError now) fun _ => rfl]
    obtain ⟨row, hrow, hkey⟩ := any_eq_true.1 hany
    have hmem : normalizedKey ∈ requestKeys rows := mem_map.2 ⟨row, hrow, of_decide_eq_true hkey⟩
    exact ⟨Or.inl, fun h => h.elim id fun heq => heq ▸ hmem⟩
  · rw [requestKeys, map_append, mem_append, map_singleton, mem_singleton]
    rfl

lemma mem_requestKeys_deleteRequest (normalizedKey key : String) :
    key ∈ requestKeys (deleteRequest rows normalizedKey) ↔
      key ∈ requestKeys rows ∧ key ≠ normalizedKey := by
  simp only [requestKeys, deleteRequest, mem_map, mem_filter, decide_eq_true_eq]
  constructor
  · rintro ⟨row, ⟨hrow, hne⟩, rfl⟩
    exact ⟨⟨row, hrow, rfl⟩, hne⟩
  · rintro ⟨⟨row, hrow, rfl⟩, hne⟩
    exact ⟨row, ⟨hrow, hne⟩, rfl⟩

end OpenDefender
