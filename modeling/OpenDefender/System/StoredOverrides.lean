import OpenDefender.Engine.OverrideHosts
import OpenDefender.System.HostPatterns
import OpenDefender.System.OverrideStatements

/-!
The overrides table as its handlers write it.

`StoredTable` says what the columns of a row can hold, besides the two constraints. The engine can read such
rows (`StoredRow.readable`).
-/

namespace OpenDefender.System.StoredOverrides

open Admin Lib Lib.Script Text Engine OverrideImport OverrideStatements List

/-- A row as it is written by the handlers. -/
structure StoredRow (row : OverrideRow) : Prop where
  domain : row.scopeType = "domain"
  scope : normalizeDomainScope row.scopeValue = .ok row.scopeValue
  action : row.action = "allow" ∨ row.action = "block"
  status : row.status ∈ ["active", "inactive", "expired", "revoked"]

instance (row : OverrideRow) : Decidable (StoredRow row) :=
  decidable_of_iff (row.scopeType = "domain" ∧ normalizeDomainScope row.scopeValue = .ok row.scopeValue ∧
      (row.action = "allow" ∨ row.action = "block") ∧ row.status ∈ ["active", "inactive", "expired", "revoked"])
    ⟨fun h => ⟨h.1, h.2.1, h.2.2.1, h.2.2.2⟩, fun h => ⟨h.domain, h.scope, h.action, h.status⟩⟩

/-- A table of such rows. -/
structure StoredTable (table : List OverrideRow) : Prop extends Constrained table where
  rows : ∀ row ∈ table, StoredRow row

/-! ### What the engine reads -/

/-- A stored scope is lower case, without whitespace, and not empty. -/
lemma normal_text (h : normalizeDomainScope scopeValue = .ok scopeValue) :
    toAsciiLowercase scopeValue = scopeValue ∧ trim scopeValue = scopeValue ∧ scopeValue ≠ "" := by
  have htrim : trim scopeValue = scopeValue := trim_eq_self (isWhitespace_of_accepted h)
  have hlower := lower_trim_of_accepted h
  rw [htrim] at hlower
  refine ⟨hlower, htrim, ?_⟩
  rintro rfl
  exact absurd h (by decide +kernel)

lemma toLower_of_lowercase (h : toAsciiLowercase s = s) : ∀ c ∈ s.toList, c.toLower = c := by
  rw [toAsciiLowercase, ← String.toList_inj, String.toList_ofList] at h
  intro c hc
  obtain ⟨i, hi, rfl⟩ := getElem_of_mem hc
  have hget := congrArg (·[i]?) h
  simpa [hi] using hget

lemma lowercase_of_toLower (h : ∀ c ∈ s.toList, c.toLower = c) : toAsciiLowercase s = s := by
  rw [toAsciiLowercase, map_congr_left h, map_id', String.ofList_toList]

/-- The host of a stored scope is the host of a key. -/
lemma cleanHost_of_normal (h : normalizeDomainScope scopeValue = .ok scopeValue)
    (hhost : normalizeScopeHost scopeValue = some host) : cleanHost host = some host := by
  have hlower := (normal_text h).1
  rw [normalizeScopeHost_of_accepted h] at hhost
  split_ifs at hhost with hempty
  cases hhost
  -- the host has only characters of the scope
  have hsub : ∀ c ∈ (trimEndMatches '.' (scopeHost scopeValue)).toList, c ∈ (scopeHost scopeValue).toList := by
    intro c hc
    rw [trimEndMatches, String.toList_ofList] at hc
    exact (List.rdropWhile_prefix _ _).subset hc
  have hscope : ∀ c ∈ (scopeHost scopeValue).toList, c ∈ scopeValue.toList := by
    intro c hc
    rw [← splitScope_append scopeValue, String.toList_append]
    exact mem_append_right _ hc
  have hwhite : trim (trimEndMatches '.' (scopeHost scopeValue)) = trimEndMatches '.' (scopeHost scopeValue) :=
    trim_eq_self fun c hc => isWhitespace_of_isScopeChar (isScopeChar_of_accepted h c (hsub c hc))
  have hdots : trimEndMatches '.' (trimEndMatches '.' (scopeHost scopeValue)) =
      trimEndMatches '.' (scopeHost scopeValue) := by
    rw [trimEndMatches, trimEndMatches, String.toList_ofList, rdropWhile_idempotent]
  have hcase : toAsciiLowercase (trimEndMatches '.' (scopeHost scopeValue)) =
      trimEndMatches '.' (scopeHost scopeValue) :=
    lowercase_of_toLower fun c hc => toLower_of_lowercase hlower c (hscope c (hsub c hc))
  rw [cleanHost, hwhite, hdots, hcase, if_neg hempty]

/-- The engine can read a stored row. -/
lemma StoredRow.readable (h : StoredRow row) : Readable row := by
  obtain ⟨-, htrim, hne⟩ := normal_text h.scope
  refine ⟨?_, h.action, fun host hhost => ?_⟩
  · unfold nonEmptyString
    rw [htrim, if_neg (by rwa [String.isEmpty_iff])]
  · rw [hostFromNormalizedKey, hostOfKey_domain]
    exact cleanHost_of_normal h.scope hhost

end OpenDefender.System.StoredOverrides
