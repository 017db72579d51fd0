import OpenDefender.Admin.Scan
import OpenDefender.Engine.Overrides

/-!
The keys an override governs and the keys its invalidation removes.

The engine compares hosts: a scope governs every key whose host is the host of the scope or a name
below it. The adaptor and the admin API compare key texts: a `domain:` key is removed if it is
spelt with the scope's own host, a `subdomain:` key also if it ends with a dot and that host.
`invalidation_removes_governed_iff` is the exact extent.

`deleteDomainScope_removes_iff` is about the server alone: the loop over its keys removes what the adaptor's own
matcher would remove from a memory.
-/

namespace OpenDefender.System

open Lib Text Run Coherence Wildcard Adaptor Engine Admin List

variable {n : ℕ} {γ : Type}

/-- The key is spelt with the host of the scope: the host itself, or as a subdomain key anything that
ends with a dot and the host. -/
def SpeltWith (scope key : String) : Prop :=
  key = "domain:" ++ scopeHost scope ∨ key = "subdomain:" ++ scopeHost scope ∨
    ∃ u, key = "subdomain:" ++ (u ++ ("." ++ scopeHost scope))

lemma scopeCoversKey_iff_speltWith (scope key : String) :
    ScopeCoversKey scope key ↔ SpeltWith scope key := by
  rw [scopeCoversKey_iff, splitWildcard_eq_scopeHost, SpeltWith]

/-- The invalidation of an override can always be run to its end. -/
theorem invalidation_completes (scope : String) (fleet : Fleet n γ) :
    ∃ es fleet', run (Job.step (dialect γ))
        (fleet, .ofCommands (invalidateOverride "domain" scope)) es =
      some (fleet', { todo := [], pending := [] }) :=
  exists_run_done fleet _ (plain_invalidateOverride "domain" scope) []

/-- **What the invalidation of an override removes.** For every accepted scope and every key the
engine considers governed by it: when the invalidation has been executed and its message delivered to
every adaptor, no memory and not Redis holds the key exactly when none of them held it before, or the
key is spelt with the host of the scope. -/
theorem invalidation_removes_governed_iff (value scope key : String) (fleet fleet' : Fleet n γ)
    (job : Invalidation n) (es : List (JobEvent n String CacheInvalidationEvent))
    (haccepted : normalizeDomainScope value = .ok scope)
    (hrun : run (Job.step (dialect γ)) (fleet, .ofCommands (invalidateOverride "domain" scope)) es =
      some (fleet', job))
    (hdone : job.Done) :
    scopeGovernsKey scope key = true →
    ((∀ p, fleet'.get p key = none) ↔ ((∀ p, fleet.get p key = none) ∨ SpeltWith scope key)) := by
  intro _
  have heffect (p : Option (Fin n)) := get_of_run (plain_invalidateOverride "domain" scope) hrun hdone p key
  simp only [targets_invalidateOverride (isScopeChar_of_accepted haccepted)] at heffect
  rw [← scopeCoversKey_iff_speltWith]
  constructor
  · intro hnone
    by_cases hcovers : ScopeCoversKey scope key
    · exact Or.inr hcovers
    · exact Or.inl fun p => ((heffect p).2 hcovers).symm.trans (hnone p)
  · rintro (hnone | hcovers) p
    · by_cases hcovers : ScopeCoversKey scope key
      · exact (heffect p).1 hcovers
      · exact ((heffect p).2 hcovers).trans (hnone p)
    · exact (heffect p).1 hcovers

/-- One adaptor and Redis, both holding an entry under the key. -/
def heldEverywhere (key : String) : Fleet 1 Unit :=
  Cluster.empty.fill 0 key
    { decision := { action := .allow, cacheHit := false, verdict := none, decisionSource := none }
      expiresAt := 300
      origin := () }
    { decision := { action := .allow, cacheHit := false, verdict := none, decisionSource := none }
      expiresAt := 300
      origin := () }

/-- The steps of an override invalidation whose walk returns one page. -/
def invalidationSteps (scope : String) (page : List String) :
    List (JobEvent 1 String CacheInvalidationEvent) :=
  [.exec, .exec, .exec, .page page, .exec, .exec, .deliver 0 (.override "domain" scope)]

/-- The override of a public suffix governs the registered domains below it, and its invalidation
leaves their cached decisions in place. -/
theorem public_suffix_key_survives :
    normalizeDomainScope "co.uk" = .ok "co.uk" ∧
      scopeGovernsKey "co.uk" "domain:foo.co.uk" = true ∧
      (run (Job.step (dialect Unit))
        (heldEverywhere "domain:foo.co.uk", .ofCommands (invalidateOverride "domain" "co.uk"))
        (invalidationSteps "co.uk" [])).map
          (fun x => ((x.1.get none "domain:foo.co.uk").isSome,
            (x.1.get (some 0) "domain:foo.co.uk").isSome, x.2)) =
        some (true, true, { todo := [], pending := [] }) :=
  ⟨by decide +kernel, by decide +kernel, by decide +kernel⟩

/-- The key of a subdomain is removed by the scope above it, wherever it is held. -/
theorem subdomain_key_removed :
    ∃ fleet' : Fleet 1 Unit, ∃ job : Invalidation 1,
      run (Job.step (dialect Unit)) (heldEverywhere "subdomain:www.example.com",
          .ofCommands (invalidateOverride "domain" "*.example.com"))
        (invalidationSteps "*.example.com" ["subdomain:www.example.com"]) = some (fleet', job) ∧
      job.Done ∧ ∀ p, fleet'.get p "subdomain:www.example.com" = none := by
  have hend : (run (Job.step (dialect Unit)) (heldEverywhere "subdomain:www.example.com",
      .ofCommands (invalidateOverride "domain" "*.example.com"))
      (invalidationSteps "*.example.com" ["subdomain:www.example.com"])).any
        (fun x => x.2.Done) = true := by decide +kernel
  obtain ⟨⟨fleet', job⟩, hrun, hdone⟩ := (Option.any_eq_true _ _).1 hend
  exact ⟨fleet', job, hrun, of_decide_eq_true hdone,
    (invalidation_removes_governed_iff " *.Example.com" "*.example.com" "subdomain:www.example.com"
      _ _ _ _ (by decide +kernel) hrun (of_decide_eq_true hdone) (by decide +kernel)).2
      (Or.inr (Or.inr (Or.inr ⟨"www", by decide +kernel⟩)))⟩

/-! ### The keys of the server -/

/-- **What `delete_domain_scope` removes from Redis.** For every accepted scope, every store and every run of `SCAN` that
returns the keys that are there throughout, the deletions come to an end, and the keys they remove are exactly those
that are there and on which the adaptor's `key_matches_domain_scope` holds; the other entries stay as they are. -/
theorem deleteDomainScope_removes_iff {ν : Type} (value scope : String)
    (haccepted : normalizeDomainScope value = .ok scope) (store : Assoc String ν) (replies : List ScanReply)
    (hscan : ScanRun ("subdomain:*." ++ scopeHost scope)
      ((store.erase ("domain:" ++ scopeHost scope)).erase ("subdomain:" ++ scopeHost scope)) replies) :
    ∃ store', runCommands store (deleteDomainScope scope) [replies] = some store' ∧
      ∀ key, ((store.get key).isSome = true ∧ store'.get key = none ↔
          (store.get key).isSome = true ∧
            keyMatchesDomainScope key (splitWildcard scope).2 (splitWildcard scope).1 = true) ∧
        (store'.get key ≠ none → store'.get key = store.get key) := by
  obtain ⟨store', hloop, hget⟩ := hscan.deletePatternLoop_eq
  refine ⟨store', ?_, fun key => ?_⟩
  · rw [deleteDomainScope_eq]
    simp only [runCommands, hloop, Option.bind_some]
  · have hglob := globMatches_scope (isScopeChar_of_accepted haccepted) (k := key)
    have hcovers : keyMatchesDomainScope key (splitWildcard scope).2 (splitWildcard scope).1 = true ↔
        SpeltWith scope key := scopeCoversKey_iff_speltWith scope key
    have hkey := hget key
    rw [Assoc.get_erase, Assoc.get_erase] at hkey
    rw [hcovers]
    by_cases hspelt : SpeltWith scope key
    · have hgone : store'.get key = none := by
        rw [hkey]
        rcases hspelt with hdomain | hsub | hbelow
        · simp [hdomain]
        · simp [hsub]
        · rw [if_pos (hglob.2 hbelow)]
      exact ⟨and_congr_right fun _ => iff_of_true hgone hspelt, fun hne => absurd hgone hne⟩
    · have hkept : store'.get key = store.get key := by
        rw [SpeltWith, ← hglob, not_or, not_or] at hspelt
        rw [hkey, if_neg hspelt.2.2, if_neg hspelt.2.1, if_neg hspelt.1]
      refine ⟨iff_of_false ?_ fun h => hspelt h.2, fun _ => hkept⟩
      rintro ⟨hthere, hnone⟩
      rw [← hkept, hnone] at hthere
      cases hthere

/-- A store with a domain, a subdomain of it and another host. -/
def threeKeys : Assoc String ℕ :=
  ((Assoc.empty.set "domain:example.com" 1).set "subdomain:www.example.com" 2).set "subdomain:www.example.org" 3

/-- A walk with an empty page that returns the one key of the pattern twice. -/
theorem scan_with_repeats :
    ∃ store', runCommands threeKeys (deleteDomainScope "*.example.com")
        [[⟨7, []⟩, ⟨9, ["subdomain:www.example.com"]⟩, ⟨0, ["subdomain:www.example.com"]⟩]] = some store' ∧
      store'.get "subdomain:www.example.com" = none ∧ store'.get "domain:example.com" = none ∧
      store'.get "subdomain:www.example.org" = some 3 := by
  have hscan : ScanRun "subdomain:*.example.com"
      ((threeKeys.erase "domain:example.com").erase "subdomain:example.com")
      [⟨7, []⟩, ⟨9, ["subdomain:www.example.com"]⟩, ⟨0, ["subdomain:www.example.com"]⟩] := by
    refine ⟨⟨[⟨7, []⟩, ⟨9, ["subdomain:www.example.com"]⟩], ⟨0, ["subdomain:www.example.com"]⟩, rfl, rfl, by decide⟩,
      by decide +kernel, fun key hfits hthere => ?_⟩
    have hmem : key ∈ ((threeKeys.erase "domain:example.com").erase "subdomain:example.com").keys :=
      (Assoc.mem_keys_iff _ _).2 (hthere 0)
    have hkeys : ((threeKeys.erase "domain:example.com").erase "subdomain:example.com").keys =
        ["subdomain:www.example.org", "subdomain:www.example.com"] := by decide +kernel
    rw [hkeys] at hmem
    have hother : globMatches "subdomain:*.example.com" "subdomain:www.example.org" = false := by decide +kernel
    simp only [mem_cons, not_mem_nil, or_false] at hmem
    rcases hmem with rfl | rfl
    · rw [hother] at hfits
      cases hfits
    · exact ⟨_, mem_cons_of_mem _ mem_cons_self, mem_cons_self⟩
  obtain ⟨store', hrun, hkeys⟩ := deleteDomainScope_removes_iff "*.Example.com" "*.example.com" (by decide +kernel)
    threeKeys _ hscan
  refine ⟨store', hrun, ?_, ?_, ?_⟩
  · exact ((hkeys "subdomain:www.example.com").1.2 (by decide +kernel)).2
  · exact ((hkeys "domain:example.com").1.2 (by decide +kernel)).2
  · have hnot : ¬((threeKeys.get "subdomain:www.example.org").isSome = true ∧
        keyMatchesDomainScope "subdomain:www.example.org" (splitWildcard "*.example.com").2
          (splitWildcard "*.example.com").1 = true) := by decide +kernel
    have hthere : (threeKeys.get "subdomain:www.example.org").isSome = true := by decide +kernel
    have hkept := (hkeys "subdomain:www.example.org").2 fun hnone =>
      hnot ((hkeys "subdomain:www.example.org").1.1 ⟨hthere, hnone⟩)
    rw [hkept]
    decide +kernel

end OpenDefender.System
