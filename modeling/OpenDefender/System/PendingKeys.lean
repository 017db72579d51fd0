import OpenDefender.Admin.PendingRequests
import OpenDefender.Common.Labels

/-!
The keys of pending rows and of jobs.

For one request the adaptor has the admin API create or clear a pending row and publishes jobs, all with the
canonical key of the host for the tenant of the request. The admin API makes the key canonical once more,
without the tenant. `pending_key_eq_job_key_iff` says for which hosts, tenants and exceptions the second pass
changes nothing.
-/

namespace OpenDefender.System

open Lib Text Lib.Outcome Adaptor Admin List

/-! ### A canonical key made canonical again -/

variable {tenant : Option String} {normalizedKey : String}

section Again

variable {libs : HostLibs} {policy : CanonicalizationPolicy}

/-- A pass keeps a domain key exactly when its host needs no more cleaning and is an exception or a registered domain. -/
lemma canonical_again_iff (hroot : libs.LawfulRoot) {host : String} (hlower : toAsciiLowercase host = host) :
    (canonicalClassificationKeyWithPolicy libs ("domain:" ++ host) policy tenant).getD ("domain:" ++ host) =
        "domain:" ++ host ↔
      cleanHost host = none ∨ (cleanHost host = some host ∧
        (policy.keepsSubdomainGranularity libs tenant host = true ∨ deriveRegisteredDomain libs host = host)) := by
  rw [canonicalClassificationKeyWithPolicy, hostOfKey_domain]
  cases hclean : cleanHost host with
  | none => exact iff_of_true rfl (Or.inl rfl)
  | some clean =>
    rw [Option.map_some, Option.getD_some]
    constructor
    · intro h
      obtain ⟨d, hd, heq⟩ : ∃ d, IsLabelSuffix d clean ∧ d = host := by
        split_ifs at h
        · exact ⟨clean, Or.inl rfl, (String.append_right_inj _).1 h⟩
        · exact ⟨_, isLabelSuffix_deriveRegisteredDomain hroot (cleanHost_lower hclean), (String.append_right_inj _).1 h⟩
      -- cleaning and cutting shorten a host or leave it as it is
      have hsame : clean = host := by
        rcases cleanHost_shrinks hclean with hsame | hshort
        · rw [hsame, hlower]
        · rcases hd.shrinks with hsame' | hshort'
          · rw [← hsame', heq]
          · rw [heq] at hshort'
            omega
      subst hsame
      refine Or.inr ⟨rfl, ?_⟩
      split_ifs at h with hkeeps
      · exact Or.inl hkeeps
      · exact Or.inr ((String.append_right_inj _).1 h)
    · rintro (h | ⟨h, hkeeps⟩)
      · cases h
      · cases h
        split_ifs with hkept
        · rfl
        · rw [hkeeps.resolve_left hkept]

/-- Canonical keys are domain keys. -/
lemma exists_domain_key {key : String}
    (h : canonicalClassificationKeyWithPolicy libs normalizedKey policy tenant = some key) :
    ∃ host, key = "domain:" ++ host := by
  obtain ⟨host, -, rfl⟩ := Option.map_eq_some_iff.1 h
  split_ifs
  · exact ⟨host, rfl⟩
  · exact ⟨_, rfl⟩

/-- The keys of the two services agree on a host: the cleaned host, or its registered domain, needs no more cleaning, and
an exception that is made for the tenant is made for all of them or is for a registered domain. -/
structure KeysAgree (libs : HostLibs) (policy : CanonicalizationPolicy) (tenant : Option String) (host : String) :
    Prop where
  kept : policy.keepsSubdomainGranularity libs tenant host = true →
    cleanHost host = none ∨ (cleanHost host = some host ∧
      (policy.keepsSubdomainGranularity libs none host = true ∨ deriveRegisteredDomain libs host = host))
  collapsed : policy.keepsSubdomainGranularity libs tenant host = false →
    cleanHost (deriveRegisteredDomain libs host) = none ∨
      cleanHost (deriveRegisteredDomain libs host) = some (deriveRegisteredDomain libs host)

/-- **A key for a tenant, made canonical again** without the tenant. -/
lemma canonical_for_tenant_again_iff (hroot : libs.LawfulRoot) (hstable : libs.StableRoot) {key : String}
    (hkey : canonicalClassificationKeyWithPolicy libs normalizedKey policy tenant = some key) :
    (canonicalClassificationKeyWithPolicy libs key policy none).getD key = key ↔
      ∀ host, hostOfKey normalizedKey = some host → KeysAgree libs policy tenant host := by
  obtain ⟨host, hhost, hkey⟩ := Option.map_eq_some_iff.1 hkey
  have hlower : toAsciiLowercase host = host := by
    obtain ⟨raw, -, hraw⟩ := Option.bind_eq_some_iff.1 hhost
    exact cleanHost_lower hraw
  have hone : (∀ other, hostOfKey normalizedKey = some other → KeysAgree libs policy tenant other) ↔
      KeysAgree libs policy tenant host := by
    constructor
    · exact fun h => h host hhost
    · intro h other hother
      rwa [← Option.some.inj (hhost.symm.trans hother)]
  rw [hone]
  split_ifs at hkey with hkept
  · subst hkey
    rw [canonical_again_iff hroot hlower]
    constructor
    · exact fun h => ⟨fun _ => h, fun hnot => absurd (hkept.symm.trans hnot) Bool.noConfusion⟩
    · exact fun h => h.kept hkept
  · subst hkey
    have hlower' := (isLabelSuffix_deriveRegisteredDomain hroot hlower).lower hlower
    rw [canonical_again_iff hroot hlower', deriveRegisteredDomain_idem hstable hlower]
    constructor
    · exact fun h => ⟨fun hnot => absurd hnot hkept, fun _ => h.imp_right And.left⟩
    · exact fun h => (h.collapsed (Bool.eq_false_iff.2 hkept)).imp_right fun hclean => ⟨hclean, Or.inr rfl⟩

end Again

/-! ### The effects of a request -/

/-- The key of a pending call. -/
def pendingCallKey : Effect → Option String
  | .clearPending normalizedKey => some normalizedKey
  | .upsertPending normalizedKey _ => some normalizedKey
  | .publishPageFetch _ => none
  | .publishClassification _ => none

/-- The key that a job carries. -/
def jobKey : Effect → Option String
  | .clearPending _ => none
  | .upsertPending _ _ => none
  | .publishPageFetch job => some job.normalizedKey
  | .publishClassification job => some job.normalizedKey

/-- The key that the adaptor derives for a request. -/
def classificationKey (cfg : IcapConfig) (libs : HostLibs) (req : IcapRequest) (target : NormalizedTarget) : String :=
  (canonicalClassificationKeyWithPolicy libs target.normalizedKey cfg.canonicalizationPolicy
    (req.headers.get "x-authenticated-tenant")).getD target.normalizedKey

variable {target : NormalizedTarget}

/-- Calls and jobs after an engine decision carry one key. -/
lemma key_of_mem_followUps (h : effect ∈ followUps cfg libs req target key decision) :
    pendingCallKey effect = some key ∨ jobKey effect = some key := by
  rw [followUps] at h
  by_cases hpending : requiresPending cfg decision = true
  · simp only [hpending, if_true, mem_append, mem_ite_nil_right, mem_singleton] at h
    obtain (⟨-, rfl⟩ | ⟨-, rfl⟩) | ⟨-, rfl⟩ := h
    · exact Or.inl rfl
    · exact Or.inr rfl
    · exact Or.inr rfl
  · simp only [hpending, Bool.false_eq_true, if_false, mem_append, mem_ite_nil_right,
      mem_singleton] at h
    obtain ⟨-, rfl⟩ | ⟨-, rfl⟩ := h
    · exact Or.inl rfl
    · exact Or.inr rfl

/-- **One key for a request**: all its calls and jobs carry the key that the adaptor derives. -/
lemma key_of_mem_effects {γ : Type}
    {evaluate : PolicyDecisionRequest → Except String (PolicyDecision × γ)} {cache : CacheClient γ}
    {outcome : Outcome γ} (hrun : handleConnection cfg libs evaluate now cache req = .ok outcome)
    (htarget : requestTarget libs req = .ok (target, httpHost)) (h : effect ∈ outcome.effects) :
    pendingCallKey effect = some (classificationKey cfg libs req target) ∨
      jobKey effect = some (classificationKey cfg libs req target) := by
  unfold handleConnection at hrun
  split at hrun
  · cases hrun
    cases h
  · obtain ⟨⟨normalized, host⟩, hnormalized, hrun⟩ := bind_ok.1 hrun
    obtain ⟨rfl, rfl⟩ := Prod.mk.inj (Except.ok.inj (htarget.symm.trans hnormalized))
    cases hcached : resolveCachedDecision cache now target with
    | some found =>
      simp only [hcached] at hrun
      cases hrun
      obtain ⟨-, h⟩ := mem_ite_nil_right.1 h
      obtain rfl := mem_singleton.1 h
      exact Or.inl rfl
    | none =>
      simp only [hcached] at hrun
      obtain ⟨⟨decision, origin⟩, -, hrun⟩ := bind_ok.1 hrun
      cases hrun
      exact key_of_mem_followUps h

lemma pendingCallKey_eq_none (h : jobKey effect = some key) : pendingCallKey effect = none := by
  cases effect with
  | clearPending _ => cases h
  | upsertPending _ _ => cases h
  | publishPageFetch _ => rfl
  | publishClassification _ => rfl

/-- The key of a host by its level. -/
lemma normalizedKey_targetOfHost (libs : HostLibs) (hostname fullUrl : String) :
    (targetOfHost libs hostname fullUrl).normalizedKey =
      (if hostname = deriveRegisteredDomain libs hostname then "domain:" else "subdomain:") ++ hostname := by
  simp only [targetOfHost]
  by_cases h : hostname = deriveRegisteredDomain libs hostname
  · rw [if_neg (not_not.2 h), if_pos h]
    rfl
  · rw [if_pos h, if_neg h]
    rfl

/-- The host of a target's key is the cleaned host name. -/
lemma hostOfKey_target (h : normalizeTarget libs host path scheme = .ok target) :
    hostOfKey target.normalizedKey = cleanHost target.hostname := by
  obtain ⟨hostname, fullUrl, rfl, -⟩ := normalizeTarget_ok h
  rw [normalizedKey_targetOfHost]
  split_ifs
  · rw [hostOfKey_domain]
    rfl
  · rw [hostOfKey_subdomain]
    rfl

/-! ### Pending rows and jobs -/

lemma applied_of_ok {services : ClassificationServices}
    (h : services.appliedKey sentKey = .ok rowKey) : rowKey = services.canonicalizeKey sentKey := by
  rw [ClassificationServices.appliedKey] at h
  split at h
  · cases h
  · exact (Except.ok.inj h).symm

/-- A canonical key is applied to its own row exactly when it is canonical without the tenant; one that is refused has
no host. -/
lemma applied_eq_iff (services : ClassificationServices) {canonical : String}
    (hcanonical : canonicalClassificationKeyWithPolicy services.libs normalizedKey services.canonicalizationPolicy
      tenant = some canonical) :
    (∀ rowKey, services.appliedKey canonical = .ok rowKey → rowKey = canonical) ↔
      services.canonicalizeKey canonical = canonical := by
  constructor
  · intro h
    cases hparse : (parseNormalizedKey canonical).isNone with
    | false =>
      refine h _ ?_
      rw [ClassificationServices.appliedKey, hparse]
      rfl
    | true =>
      obtain ⟨host, rfl⟩ := exists_domain_key hcanonical
      rw [ClassificationServices.canonicalizeKey, canonicalClassificationKeyWithPolicy, hostOfKey_domain,
        cleanHost_of_refused hparse]
      rfl
  · intro h rowKey hrow
    rw [applied_of_ok hrow, h]

/-- **The key of a pending row** that the admin API creates or clears for a request is the key of the jobs of that request
exactly when the keys of the two services agree on its host. -/
theorem pending_key_eq_job_key_iff {γ : Type} {services : ClassificationServices} (hroot : services.libs.LawfulRoot)
    (hstable : services.libs.StableRoot) {cfg : IcapConfig}
    (hshared : cfg.canonicalizationPolicy = services.canonicalizationPolicy)
    {evaluate : PolicyDecisionRequest → Except String (PolicyDecision × γ)} {now : ℕ} {cache : CacheClient γ}
    {req : IcapRequest} {outcome : Outcome γ} {target : NormalizedTarget} {httpHost : String}
    (hrun : handleConnection cfg services.libs evaluate now cache req = .ok outcome)
    (htarget : requestTarget services.libs req = .ok (target, httpHost)) {call job : Effect} {sentKey key : String}
    (hcall : call ∈ outcome.effects) (hsent : pendingCallKey call = some sentKey) (hjob : job ∈ outcome.effects)
    (hkey : jobKey job = some key) :
    (∀ rowKey, services.appliedKey sentKey = .ok rowKey → rowKey = key) ↔
      ∀ host, cleanHost target.hostname = some host →
        KeysAgree services.libs services.canonicalizationPolicy (req.headers.get "x-authenticated-tenant") host := by
  have hsentKey : sentKey = classificationKey cfg services.libs req target := by
    rcases key_of_mem_effects hrun htarget hcall with h | h
    · exact Option.some.inj (hsent.symm.trans h)
    · rw [pendingCallKey_eq_none h] at hsent
      cases hsent
  have hjobKey : key = classificationKey cfg services.libs req target := by
    rcases key_of_mem_effects hrun htarget hjob with h | h
    · rw [pendingCallKey_eq_none hkey] at h
      cases h
    · exact Option.some.inj (hkey.symm.trans h)
  obtain ⟨-, path, hnormalized⟩ := requestTarget_ok htarget
  rw [hsentKey, hjobKey, classificationKey, hshared, ← hostOfKey_target hnormalized]
  cases hcanonical : canonicalClassificationKeyWithPolicy services.libs target.normalizedKey
      services.canonicalizationPolicy (req.headers.get "x-authenticated-tenant") with
  | none =>
    -- no host is left to derive a key from, by either service
    have hnone : hostOfKey target.normalizedKey = none := Option.map_eq_none_iff.1 hcanonical
    rw [Option.getD_none, hnone]
    refine iff_of_true (fun rowKey h => ?_) fun host h => by cases h
    rw [applied_of_ok h, ClassificationServices.canonicalizeKey, canonicalClassificationKeyWithPolicy, hnone]
    rfl
  | some canonical =>
    rw [Option.getD_some, ← canonical_for_tenant_again_iff hroot hstable hcanonical]
    exact applied_eq_iff services hcanonical

/-- An admin API with an exception for one tenant: its hosts below `example.com` keep keys of their own. -/
def exceptionServices (tenant : String) : ClassificationServices where
  libs := sampleLibs
  canonicalizationPolicy := { tenantDomainExceptions := Assoc.empty.set tenant ["example.com"] }
  taxonomyStore := sampleTaxonomyStore
  evaluatePolicyDecision := fun _ => .error "not asked"

/-- An adaptor with the same exception. -/
def exceptionConfig (tenant : String) : IcapConfig where
  requireContent := true
  pendingCacheTtlSeconds := 60
  canonicalizationPolicy := (exceptionServices tenant).canonicalizationPolicy
  pendingClient := true
  pageFetchPublisher := true
  jobPublisher := true

/-- A request of a tenant for `www.example.com`. -/
def tenantRequest : IcapRequest where
  method := "REQMOD"
  traceId := none
  headers := ⟨[("x-authenticated-tenant", "Acme")]⟩
  httpHost := some "www.example.com"
  httpPath := some "/"
  httpScheme := some "http"

/-- The target of this request. -/
def tenantTarget : NormalizedTarget :=
  targetOfHost sampleLibs "www.example.com" "http://www.example.com/"

/-- What becomes of the request when the engine allows it without a verdict. -/
def tenantOutcome (tenant : String) : Except String (Outcome Unit) :=
  handleConnection (exceptionConfig tenant) sampleLibs
    (fun _ => .ok ({ action := .allow, cacheHit := false, verdict := none, decisionSource := none }, ())) 0
    (CacheClient.empty false) tenantRequest

/-- The keys that a request sends to the admin API and puts into its jobs. -/
def sentKeys (outcome : Outcome Unit) : List String × List String :=
  (outcome.effects.filterMap pendingCallKey, outcome.effects.filterMap jobKey)

/-- An exception for all tenants: the pending row has the key of the jobs. -/
theorem pending_key_eq_job_key :
    (tenantOutcome "*").toOption.map sentKeys =
        some (["domain:www.example.com"], ["domain:www.example.com", "domain:www.example.com"]) ∧
      ∀ rowKey, (exceptionServices "*").appliedKey "domain:www.example.com" = .ok rowKey →
        rowKey = "domain:www.example.com" := by
  have hkeys : (tenantOutcome "*").toOption.map sentKeys =
      some (["domain:www.example.com"], ["domain:www.example.com", "domain:www.example.com"]) := by decide +kernel
  obtain ⟨outcome, houtcome, hsent⟩ := Option.map_eq_some_iff.1 hkeys
  obtain ⟨hcalls, hjobs⟩ := Prod.mk.inj hsent
  obtain ⟨call, hcall, hcallKey⟩ := mem_filterMap.1 (hcalls ▸ mem_cons_self)
  obtain ⟨job, hjob, hjobKey⟩ := mem_filterMap.1 (hjobs ▸ mem_cons_self)
  have htarget : requestTarget sampleLibs tenantRequest = .ok (tenantTarget, "www.example.com") :=
    toOption_eq_some.1 (by decide +kernel)
  have hhost : cleanHost tenantTarget.hostname = some "www.example.com" := by decide +kernel
  have hroot : (exceptionServices "*").libs.LawfulRoot := lawfulRoot_sampleLibs
  refine ⟨hkeys, (pending_key_eq_job_key_iff hroot stableRoot_sampleLibs rfl (toOption_eq_some.1 houtcome) htarget
    hcall hcallKey hjob hjobKey).2 fun host h => ?_⟩
  obtain rfl := Option.some.inj (hhost.symm.trans h)
  exact ⟨by decide +kernel, by decide +kernel⟩

/-- An exception for the tenant alone: the jobs have the key of the host, and the pending row that of the domain. -/
theorem pending_key_ne_job_key :
    (tenantOutcome "acme").toOption.map sentKeys =
        some (["domain:www.example.com"], ["domain:www.example.com", "domain:www.example.com"]) ∧
      (upsertPending (exceptionServices "acme") 1 [] "domain:www.example.com"
        { status := some "waiting_content", baseUrl := some "https://www.example.com/" }).toOption.map requestKeys =
        some ["domain:example.com"] := by
  decide +kernel

end OpenDefender.System
