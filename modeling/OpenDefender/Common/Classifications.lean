import OpenDefender.Common.Types

/-!
The `classifications` table (`services/admin-api/migrations/0003_classifications.sql`) and the two
ways it is written: the upsert that the admin API and the worker share, and the deletion of a row.

The confidence column is `NUMERIC(5,4)`: a confidence is rounded to four decimals, and one that needs
more than one digit before the point is refused.
-/

namespace OpenDefender

/-- A row of the `classifications` table. -/
structure ClassificationRow where
  normalizedKey : String
  primaryCategory : Option String
  subcategory : Option String
  riskLevel : Option String
  recommendedAction : String
  confidence : Option ℚ
  status : String
  updatedAt : Nat
  deriving DecidableEq, Repr

/-- Rounding to the nearest integer, halves away from zero. -/
def roundHalfAway (x : ℚ) : ℤ :=
  if 0 ≤ x then ⌊x + 1 / 2⌋ else ⌈x - 1 / 2⌉

/-- A value as a `NUMERIC(5,4)` column stores it; `none` on overflow. -/
def numericColumn (x : ℚ) : Option ℚ :=
  let digits := roundHalfAway (x * 10000)
  if digits.natAbs < 100000 then some (digits / 10000) else none

lemma roundHalfAway_le {x : ℚ} {k : ℤ} (h : x ≤ k) : roundHalfAway x ≤ k := by
  unfold roundHalfAway
  split
  · refine Int.lt_add_one_iff.1 (Int.floor_lt.2 ?_)
    push_cast
    linarith
  · refine Int.ceil_le.2 ?_
    linarith

/-- The values of the column are the multiples of 0.0001 below 10. -/
lemma numericColumn_steps (h : numericColumn x = some c) : |c| < 10 ∧ ∃ k : ℤ, c = k / 10000 := by
  simp only [numericColumn, Option.ite_none_right_eq_some] at h
  obtain ⟨hroom, hc⟩ := h
  set k := roundHalfAway (x * 10000)
  cases hc
  have habs : |(k : ℚ)| < 100000 := by
    rw [← Int.cast_abs, Int.abs_eq_natAbs]
    exact_mod_cast hroom
  refine ⟨?_, k, rfl⟩
  rw [abs_div, abs_of_pos (by norm_num : (0 : ℚ) < 10000), div_lt_iff₀ (by norm_num)]
  linarith

/-- A value below one that the column keeps as it is stays below it. -/
lemma numericColumn_le {x c cap : ℚ} (h : x ≤ cap) (hc : numericColumn x = some c) (hcap : numericColumn cap = some cap) :
    c ≤ cap := by
  simp only [numericColumn, Option.ite_none_right_eq_some] at hc hcap
  obtain ⟨-, hc⟩ := hc
  have hdigits : cap * 10000 = (roundHalfAway (cap * 10000) : ℤ) := by
    have heq := Option.some.inj hcap.2
    field_simp at heq
    linarith
  have hround : roundHalfAway (x * 10000) ≤ roundHalfAway (cap * 10000) :=
    roundHalfAway_le (by rw [← hdigits]; linarith)
  rw [← Option.some.inj hc, ← Option.some.inj hcap.2]
  gcongr

/-- A confidence between 0 and 1 has room. -/
lemma isSome_numericColumn {x : ℚ} (h0 : 0 ≤ x) (h1 : x ≤ 1) : (numericColumn x).isSome = true := by
  have hle : roundHalfAway (x * 10000) ≤ 10000 := roundHalfAway_le (by push_cast; linarith)
  have hge : 0 ≤ roundHalfAway (x * 10000) := by
    rw [roundHalfAway, if_pos (by positivity)]
    exact Int.floor_nonneg.2 (by positivity)
  simp only [numericColumn]
  rw [if_pos (by omega)]
  rfl

/-- The columns an upsert binds. -/
structure ClassificationValues where
  primaryCategory : String
  subcategory : String
  riskLevel : String
  recommendedAction : PolicyAction
  confidence : ℚ
  deriving DecidableEq, Repr

/-- The part of a row that `DO UPDATE` sets. -/
def ClassificationRow.assign (row : ClassificationRow) (values : ClassificationValues)
    (confidence : ℚ) (now : Nat) : ClassificationRow :=
  { row with
    primaryCategory := some values.primaryCategory
    subcategory := some values.subcategory
    riskLevel := some values.riskLevel
    recommendedAction := values.recommendedAction.display
    confidence := some confidence
    updatedAt := now }

/-- The row of an `INSERT` without a conflict. -/
def ClassificationValues.newRow (values : ClassificationValues) (normalizedKey : String)
    (confidence : ℚ) (now : Nat) : ClassificationRow :=
  { normalizedKey
    primaryCategory := some values.primaryCategory
    subcategory := some values.subcategory
    riskLevel := some values.riskLevel
    recommendedAction := values.recommendedAction.display
    confidence := some confidence
    status := "active"
    updatedAt := now }

/-- `INSERT INTO classifications … ON CONFLICT (normalized_key) DO UPDATE`. A row that exists keeps its
status. -/
def upsertClassification (table : List ClassificationRow) (normalizedKey : String)
    (values : ClassificationValues) (now : Nat) : Option (List ClassificationRow) :=
  (numericColumn values.confidence).map fun confidence =>
    if table.any (fun row => row.normalizedKey = normalizedKey) then
      table.map fun row =>
        if row.normalizedKey = normalizedKey then row.assign values confidence now else row
    else table ++ [values.newRow normalizedKey confidence now]

/-- `DELETE FROM classifications WHERE normalized_key = …`. -/
def deleteClassificationRow (table : List ClassificationRow) (normalizedKey : String) :
    List ClassificationRow :=
  table.filter fun row => row.normalizedKey ≠ normalizedKey

/-- The row of a key. -/
def storedRow (table : List ClassificationRow) (normalizedKey : String) : Option ClassificationRow :=
  table.find? fun row => row.normalizedKey = normalizedKey

/-! ### What a write changes -/

variable {table : List ClassificationRow} {normalizedKey : String}

lemma find?_assign (hmem : table.any (fun row => row.normalizedKey = normalizedKey) = true)
    (values : ClassificationValues) (confidence : ℚ) (now : Nat) :
    ∃ row : ClassificationRow, storedRow (table.map fun row =>
      if row.normalizedKey = normalizedKey then row.assign values confidence now else row)
        normalizedKey = some (row.assign values confidence now) := by
  unfold storedRow
  induction table with
  | nil => cases hmem
  | cons row rows ih =>
    by_cases hrow : row.normalizedKey = normalizedKey
    · exact ⟨row, by simp [hrow, ClassificationRow.assign]⟩
    · obtain ⟨row', hrow'⟩ := ih (by simpa [hrow] using hmem)
      exact ⟨row', by simpa [hrow] using hrow'⟩

/-- **What an upsert stores** under its key: some row with all the values in it. -/
lemma storedRow_upsert_assign
    (h : upsertClassification table normalizedKey values now = some table') :
    ∃ row confidence, numericColumn values.confidence = some confidence ∧
      storedRow table' normalizedKey = some (ClassificationRow.assign row values confidence now) := by
  obtain ⟨confidence, hconfidence, rfl⟩ := Option.map_eq_some_iff.1 h
  split
  · rename_i hmem
    obtain ⟨row, hrow⟩ := find?_assign hmem values confidence now
    exact ⟨row, confidence, hconfidence, hrow⟩
  · rename_i hmem
    refine ⟨values.newRow normalizedKey confidence now, confidence, hconfidence, ?_⟩
    have hnone : table.find? (fun row => row.normalizedKey = normalizedKey) = none := by
      simpa using hmem
    rw [storedRow, List.find?_append, hnone]
    simp [ClassificationValues.newRow, ClassificationRow.assign]

lemma storedRow_upsert (h : upsertClassification table normalizedKey values now = some table') :
    ∃ row confidence, storedRow table' normalizedKey = some row ∧
      row.recommendedAction = values.recommendedAction.display ∧
      row.confidence = some confidence ∧ numericColumn values.confidence = some confidence := by
  obtain ⟨row, confidence, hconfidence, hrow⟩ := storedRow_upsert_assign h
  exact ⟨_, confidence, hrow, rfl, rfl, hconfidence⟩

end OpenDefender
