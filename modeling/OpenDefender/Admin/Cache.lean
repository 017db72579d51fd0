import OpenDefender.Adaptor.Fleet
import OpenDefender.Admin.Scopes

/-!
The cache invalidation of the admin API (`services/admin-api/src/cache.rs`): the commands each
operation sends to Redis.

Overrides and policies are invalidated by deletions followed by a message to the adaptors;
`invalidate_key` deletes one Redis key and sends no message. The lemmas `targets_…` say which cells
of the fleet each operation can clear.
-/

namespace OpenDefender.Admin

open Lib Text Wildcard Coherence List
open Adaptor hiding invalidateKey

/-- `delete_key`. -/
def deleteKey (key : String) : List RedisCommand :=
  if (trim key).isEmpty then [] else [.del key]

/-- `delete_pattern`. -/
def deletePattern (pattern : String) : List RedisCommand :=
  if (trim pattern).isEmpty then [] else [.walk pattern]

/-- `delete_domain_scope`. -/
def deleteDomainScope (scopeValue : String) : List RedisCommand :=
  deleteKey ("domain:" ++ scopeHost scopeValue) ++
    deleteKey ("subdomain:" ++ scopeHost scopeValue) ++
      deletePattern ("subdomain:*." ++ scopeHost scopeValue)

/-- `flush_domain_entries`. -/
def flushDomainEntries : List RedisCommand :=
  deletePattern "domain:*" ++ deletePattern "subdomain:*"

/-- `delete_scope`. -/
def deleteScope (scopeType scopeValue : String) : List RedisCommand :=
  if scopeType = "domain" then deleteDomainScope scopeValue else flushDomainEntries

/-- `invalidate_override`. -/
def invalidateOverride (scopeType scopeValue : String) : List RedisCommand :=
  deleteScope scopeType scopeValue ++ [.publish (.override scopeType scopeValue)]

/-- `invalidate_policy`. -/
def invalidatePolicy : List RedisCommand :=
  flushDomainEntries ++ [.publish .policy]

/-- `invalidate_key`. -/
def invalidateKey (key : String) : List RedisCommand :=
  deleteKey key

/-- The invalidations of several scopes, one after the other. -/
def invalidateScopes (scopes : List (String × String)) : List RedisCommand :=
  scopes.flatMap fun scope => invalidateOverride scope.1 scope.2

/-! ### The commands -/

lemma deleteKey_of_head (hkey : key.toList = c :: l) (hc : isWhitespace c = false) :
    deleteKey key = [.del key] := by
  rw [deleteKey, trim_isEmpty_of_head hkey hc]
  rfl

lemma deletePattern_of_head (hpattern : pattern.toList = c :: l) (hc : isWhitespace c = false) :
    deletePattern pattern = [.walk pattern] := by
  rw [deletePattern, trim_isEmpty_of_head hpattern hc]
  rfl

lemma deleteDomainScope_eq (scopeValue : String) :
    deleteDomainScope scopeValue =
      [.del ("domain:" ++ scopeHost scopeValue), .del ("subdomain:" ++ scopeHost scopeValue),
        .walk ("subdomain:*." ++ scopeHost scopeValue)] := by
  have hd : ("domain:" ++ scopeHost scopeValue).toList =
      'd' :: ("omain:".toList ++ (scopeHost scopeValue).toList) := by simp
  have hs : ("subdomain:" ++ scopeHost scopeValue).toList =
      's' :: ("ubdomain:".toList ++ (scopeHost scopeValue).toList) := by simp
  have hp : ("subdomain:*." ++ scopeHost scopeValue).toList =
      's' :: ("ubdomain:*.".toList ++ (scopeHost scopeValue).toList) := by simp
  rw [deleteDomainScope, deleteKey_of_head hd rfl, deleteKey_of_head hs rfl, deletePattern_of_head hp rfl]
  rfl

lemma invalidateOverride_domain (scopeValue : String) :
    invalidateOverride "domain" scopeValue =
      [.del ("domain:" ++ scopeHost scopeValue), .del ("subdomain:" ++ scopeHost scopeValue),
        .walk ("subdomain:*." ++ scopeHost scopeValue), .publish (.override "domain" scopeValue)] := by
  rw [invalidateOverride, deleteScope, if_pos rfl, deleteDomainScope_eq]
  rfl

lemma invalidatePolicy_eq :
    invalidatePolicy = [.walk "domain:*", .walk "subdomain:*", .publish .policy] := by
  rfl

variable {k : String}

/-- Without wildcards of its own in the host, the pattern of a scope fits the names below the
host. -/
lemma globMatches_scope (hhost : ∀ c ∈ (scopeHost scopeValue).toList, isScopeChar c = true) :
    globMatches ("subdomain:*." ++ scopeHost scopeValue) k = true ↔
      ∃ u, k = "subdomain:" ++ (u ++ ("." ++ scopeHost scopeValue)) := by
  have hmap : (scopeHost scopeValue).toList.map
      (fun c => if c = '*' then Token.any else if c = '?' then Token.one else Token.lit c) =
      (scopeHost scopeValue).toList.map Token.lit := by
    refine map_congr_left fun c hc => ?_
    have hchar := hhost c hc
    rw [if_neg (by rintro rfl; cases hchar), if_neg (by rintro rfl; cases hchar)]
  have hglob : glob ("subdomain:*." ++ scopeHost scopeValue) = "subdomain:".toList.map Token.lit ++
      Token.any :: ('.' :: (scopeHost scopeValue).toList).map Token.lit := by
    simp [glob, hmap]
  rw [globMatches, hglob, accepts_literal_any_literal]
  constructor
  · rintro ⟨u, hu⟩
    refine ⟨String.ofList u, String.toList_inj.1 ?_⟩
    simp [hu]
  · rintro ⟨u, rfl⟩
    exact ⟨u.toList, by simp⟩

/-- The patterns of a flush fit every host key. -/
lemma globMatches_flush (h : IsHostKey k) :
    globMatches "domain:*" k = true ∨ globMatches "subdomain:*" k = true := by
  obtain ⟨host, rfl | rfl⟩ := h
  · exact Or.inl (globMatches_append (globMatches_self "domain:") (globMatches_star host))
  · exact Or.inr (globMatches_append (globMatches_self "subdomain:") (globMatches_star host))

/-! ### The cells an operation clears -/

section Targets

variable {n : ℕ} {γ : Type}

/-- The host of a scope, as the adaptor cuts it out. -/
lemma splitWildcard_eq_scopeHost (scopeValue : String) :
    (splitWildcard scopeValue).2 = scopeHost scopeValue := by
  unfold splitWildcard scopeHost splitScope
  cases stripPrefix "*." scopeValue <;> rfl

/-- **Redis and the memories agree on a scope**: an accepted scope clears everywhere the keys the
adaptor's own matcher covers. -/
theorem targets_invalidateOverride
    (hhost : ∀ c ∈ (scopeHost scopeValue).toList, isScopeChar c = true) (p : Option (Fin n))
    (k : String) :
    (Job.ofCommands (invalidateOverride "domain" scopeValue)).Targets (dialect γ) p k ↔
      ScopeCoversKey scopeValue k := by
  rw [invalidateOverride_domain]
  cases p with
  | some a =>
    simp [Job.Targets, Job.ofCommands, Command.Announces, dialect, CacheInvalidationEvent.clears]
  | none =>
    rw [scopeCoversKey_iff, splitWildcard_eq_scopeHost, ← globMatches_scope hhost]
    simp [Job.Targets, Job.ofCommands, Command.Targets, dialect]

/-- A policy invalidation clears every host key everywhere. -/
lemma targets_invalidatePolicy (p : Option (Fin n)) (hk : IsHostKey k) :
    (Job.ofCommands invalidatePolicy).Targets (dialect γ) p k := by
  rw [invalidatePolicy_eq]
  cases p with
  | some a =>
    simp [Job.Targets, Job.ofCommands, Command.Announces, dialect, CacheInvalidationEvent.clears]
  | none =>
    simpa [Job.Targets, Job.ofCommands, Command.Targets, dialect] using globMatches_flush hk

/-- What the message of an override clears from the memories, its deletions clear from Redis. -/
lemma targets_of_clears (hk : IsHostKey k)
    (h : (CacheInvalidationEvent.override scopeType scopeValue).clears k = true)
    (p : Option (Fin n)) :
    (Job.ofCommands (invalidateOverride scopeType scopeValue)).Targets (dialect γ) p k := by
  cases p with
  | some a => exact Or.inl ⟨_, mem_append_right _ mem_cons_self, h⟩
  | none =>
    by_cases htype : scopeType = "domain"
    · subst htype
      have hcovers : ScopeCoversKey scopeValue k := by
        simpa [CacheInvalidationEvent.clears] using h
      rw [invalidateOverride_domain]
      rw [scopeCoversKey_iff, splitWildcard_eq_scopeHost] at hcovers
      rcases hcovers with hdomain | hsubdomain | ⟨u, rfl⟩
      · exact ⟨_, mem_cons_self, hdomain⟩
      · exact ⟨_, mem_cons_of_mem _ mem_cons_self, hsubdomain⟩
      · refine ⟨_, mem_cons_of_mem _ (mem_cons_of_mem _ mem_cons_self), ?_⟩
        have hfits := globMatches_append
          (globMatches_append (globMatches_self "subdomain:") (globMatches_star u))
          (globMatches_self ("." ++ scopeHost scopeValue))
        rw [String.append_assoc, String.append_assoc] at hfits
        exact hfits
    · refine Job.Targets.mono (show flushDomainEntries ⊆ _ from ?_) ?_
      · rw [invalidateOverride, deleteScope, if_neg htype]
        exact subset_append_left _ _
      · rcases globMatches_flush hk with hd | hs
        · exact ⟨_, mem_cons_self, hd⟩
        · exact ⟨_, mem_cons_of_mem _ mem_cons_self, hs⟩

variable (scopes : List (String × String))

/-- A scope clears the key. -/
def Cleared (k : String) : Prop :=
  ∃ scope ∈ scopes, (CacheInvalidationEvent.override scope.1 scope.2).clears k = true

instance (k : String) : Decidable (Cleared scopes k) :=
  inferInstanceAs (Decidable (∃ _ ∈ _, _))

lemma targets_invalidateScopes {scopes : List (String × String)} (hk : IsHostKey k) (h : Cleared scopes k)
    (p : Option (Fin n)) :
    (Job.ofCommands (invalidateScopes scopes)).Targets (dialect γ) p k := by
  obtain ⟨scope, hmem, hclears⟩ := h
  refine (targets_of_clears hk hclears p).mono fun cmd hcmd => ?_
  exact mem_flatMap.2 ⟨scope, hmem, hcmd⟩

/-- The deletion of a key clears it from Redis only, and a blank key not at all. -/
lemma targets_invalidateKey {key : String} {p : Option (Fin n)} :
    (Job.ofCommands (invalidateKey key)).Targets (dialect γ) p k ↔
      p = none ∧ k ∈ [key].filter fun k => !(trim k).isEmpty := by
  by_cases hblank : (trim key).isEmpty = true
  · cases p <;> simp [invalidateKey, deleteKey, hblank, Job.Targets, Job.ofCommands]
  · cases p <;> simp [invalidateKey, deleteKey, hblank, Job.Targets, Job.ofCommands,
      Command.Targets, Command.Announces]

lemma plain_deleteKey (key p : String) (owed : List (String × ℕ)) :
    .walking p owed ∉ deleteKey key := by
  unfold deleteKey
  split <;> simp

lemma plain_deletePattern (pattern p : String) (owed : List (String × ℕ)) :
    .walking p owed ∉ deletePattern pattern := by
  unfold deletePattern
  split <;> simp

lemma plain_invalidateOverride (scopeType scopeValue : String) :
    ∀ p owed, .walking p owed ∉ invalidateOverride scopeType scopeValue := by
  intro p owed
  unfold invalidateOverride deleteScope
  split <;> simp [deleteDomainScope, flushDomainEntries, plain_deleteKey, plain_deletePattern]

lemma plain_invalidatePolicy : ∀ p owed, .walking p owed ∉ invalidatePolicy := by
  rw [invalidatePolicy_eq]
  simp

lemma plain_invalidateScopes : ∀ p owed, .walking p owed ∉ invalidateScopes scopes := by
  intro p owed hmem
  obtain ⟨scope, _, hcmd⟩ := mem_flatMap.1 hmem
  exact plain_invalidateOverride scope.1 scope.2 p owed hcmd

end Targets

end OpenDefender.Admin
