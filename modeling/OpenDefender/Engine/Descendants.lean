import OpenDefender.Common.Labels
import OpenDefender.Engine.Decision

/-!
The rows below a domain (`related_classification_lookup` and `hydrate_request_hints` of
`services/policy-engine/src/main.rs`). A domain without a row of its own takes its hints from a row that a `LIKE` pattern
selects, the host of the domain put into the pattern as it is. `descendant_rows_below_iff`: the rows lie below the domain
exactly when `LIKE` reads the host as itself, and an underscore in it is read as any character.
-/

namespace OpenDefender.Engine

open Lib Text Wildcard List

/-- The rows that the lookup may select as descendants of a key. -/
def descendantRows (table : List ClassificationRow) (normalizedKey : String) : List ClassificationRow :=
  table.filter fun row => hintRank normalizedKey row = some 2

/-- The key is that of a host strictly below the domain. -/
def KeyBelow (domain normalizedKey : String) : Prop :=
  ∃ host, normalizedKey = "subdomain:" ++ host ∧ IsLabelSuffix domain host ∧ host ≠ domain

lemma keyBelow_iff :
    KeyBelow domain normalizedKey ↔ ∃ m, normalizedKey = "subdomain:" ++ (m ++ ("." ++ domain)) := by
  constructor
  · rintro ⟨host, rfl, hbelow | hbelow, hne⟩
    · exact absurd hbelow hne
    · obtain ⟨m, rfl⟩ := endsWith_iff.1 hbelow
      exact ⟨m, rfl⟩
  · rintro ⟨m, rfl⟩
    refine ⟨_, rfl, Or.inr (endsWith_append _ _), fun heq => ?_⟩
    have hlen := congrArg String.length heq
    simp only [String.length_append] at hlen
    have hdot : ".".length = 1 := rfl
    omega

/-- The pattern for the descendants of a domain. -/
lemma descendantLikePattern_domain (raw : String) :
    (relatedClassificationLookup ("domain:" ++ raw)).descendantLikePattern =
      (cleanHost raw).map fun host => "subdomain:%." ++ host := by
  have hnone : stripPrefix "subdomain:" ("domain:" ++ raw) = none :=
    stripPrefix_eq_none.2 fun r => domain_ne_subdomain raw r
  rw [relatedClassificationLookup, hnone, stripPrefix_append]
  dsimp only [cleanHost]
  split <;> rfl

lemma likeTokens_descendants (host : String) :
    likeTokens ("subdomain:%." ++ host).toList =
      "subdomain:".toList.map .lit ++ .any :: .lit '.' :: likeTokens host.toList := by
  have hcut : ("subdomain:%." ++ host).toList = "subdomain:".toList ++ '%' :: '.' :: host.toList := by simp
  rw [hcut, likeTokens_append (by simp [isPlain]), likeTokens, likeTokens_cons (by decide)]

/-- A key as a row of the table. -/
def activeRow (normalizedKey : String) : ClassificationRow where
  normalizedKey := normalizedKey
  primaryCategory := some "social-media"
  subcategory := some "social-networks"
  riskLevel := some "low"
  recommendedAction := "Allow"
  confidence := some (9 / 10)
  status := "active"
  updatedAt := 0

/-- What the lookup selects below a domain. -/
lemma mem_descendantRows (hhost : cleanHost raw = some host) :
    row ∈ descendantRows table ("domain:" ++ raw) ↔
      row ∈ table ∧ row.status = "active" ∧ row.normalizedKey ≠ "domain:" ++ raw ∧
        like ("subdomain:%." ++ host) row.normalizedKey = true := by
  have hancestor : (relatedClassificationLookup ("domain:" ++ raw)).ancestorDomainKey = none := by
    have hnone : stripPrefix "subdomain:" ("domain:" ++ raw) = none :=
      stripPrefix_eq_none.2 fun r => domain_ne_subdomain raw r
    rw [relatedClassificationLookup, hnone, stripPrefix_append]
    dsimp only
    split <;> rfl
  rw [descendantRows, mem_filter, decide_eq_true_eq, hintRank, descendantLikePattern_domain, hhost, hancestor]
  by_cases hactive : row.status = "active" <;> by_cases hkey : row.normalizedKey = "domain:" ++ raw <;>
    simp [hactive, hkey]

/-- **Rows below a domain.** Whatever the table holds, the rows that the lookup may select as descendants of a domain key
are those of hosts strictly below the domain exactly when `LIKE` reads the host of the key as itself. -/
theorem descendant_rows_below_iff (raw : String) :
    (∀ table, ∀ row ∈ descendantRows table ("domain:" ++ raw),
        ∃ host, cleanHost raw = some host ∧ KeyBelow host row.normalizedKey) ↔
      ∀ host, cleanHost raw = some host → ReadsLiterally host := by
  cases hhost : cleanHost raw with
  | none =>
    refine iff_of_true (fun table row hrow => ?_) fun host h => by cases h
    have hpattern := descendantLikePattern_domain raw
    rw [hhost, Option.map_none] at hpattern
    have hrank := of_decide_eq_true (mem_filter.1 hrow).2
    simp only [hintRank, hpattern, Option.any_none, Bool.false_eq_true, if_false] at hrank
    split_ifs at hrank <;> simp at hrank
  | some host =>
    simp only [Option.some.injEq, exists_eq_left', forall_eq']
    constructor
    · -- the shortest key that fits the pattern is no longer than that of the host
      intro h
      set key := "subdomain:" ++ ("." ++ String.ofList (shortest 'a' (likeTokens host.toList)))
      have hlike : like ("subdomain:%." ++ host) key = true := by
        rw [like, likeTokens_descendants, accepts_literal]
        have hfits := accepts_shortest 'a' (.any :: .lit '.' :: likeTokens host.toList)
        exact ⟨_, by simp [key, shortest], hfits⟩
      have hne : key ≠ "domain:" ++ raw := fun h => domain_ne_subdomain _ _ h.symm
      obtain ⟨m, hm⟩ := keyBelow_iff.1 (h [activeRow key] (activeRow key)
        ((mem_descendantRows hhost).2 ⟨mem_singleton_self _, rfl, hne, hlike⟩))
      have hcut : "." ++ String.ofList (shortest 'a' (likeTokens host.toList)) = m ++ ("." ++ host) :=
        (String.append_right_inj _).1 hm
      have hlists := String.toList_inj.2 hcut
      simp only [String.toList_append, String.toList_ofList, ← append_assoc] at hlists
      have hlen := length_shortest_le 'a' host.toList
      have hlengths := congrArg List.length hlists
      simp only [length_append] at hlengths
      have hsame := append_inj_right' hlists (by omega)
      simpa using plain_of_shortest (by decide) hsame
    · intro hliteral table row hrow
      obtain ⟨-, -, -, hlike⟩ := (mem_descendantRows hhost).1 hrow
      rw [like, likeTokens_descendants, hliteral.likeTokens_eq] at hlike
      obtain ⟨m, hm⟩ := (accepts_literal_any_literal _ ('.' :: host.toList) _).1 hlike
      exact keyBelow_iff.2 ⟨String.ofList m, by rw [← String.toList_inj, hm]; simp⟩

/-- The host `api_v1.example.com` takes its hints from a row for a host below another domain. -/
theorem descendant_row_elsewhere :
    (selectedRow [activeRow "subdomain:www.api-v1.example.com"] "domain:api_v1.example.com").map (·.normalizedKey) =
        some "subdomain:www.api-v1.example.com" ∧
      ¬ KeyBelow "api_v1.example.com" "subdomain:www.api-v1.example.com" := by
  refine ⟨by decide +kernel, fun ⟨host, hkey, hbelow, _⟩ => ?_⟩
  have hcut : "subdomain:www.api-v1.example.com" = "subdomain:" ++ "www.api-v1.example.com" := rfl
  obtain rfl := (String.append_right_inj _).1 (hcut.symm.trans hkey)
  revert hbelow
  decide +kernel

end OpenDefender.Engine
