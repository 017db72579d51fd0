import OpenDefender.Common.Labels

/-!
Canonical keys under the exceptions of the tenants (`CanonicalizationPolicy` of
`crates/common-types/src/normalizer.rs`). `canonical_key_of_exceptions` says which key is the canonical one.
-/

namespace OpenDefender

open Lib Text

/-- The registered domains of the exceptions of a tenant. -/
def exceptedDomains (libs : HostLibs) (domains : List String) : List String :=
  (domains.filterMap cleanHost).map (deriveRegisteredDomain libs)

/-- The exceptions of one more tenant. -/
def addExceptions (libs : HostLibs) (exceptions : Assoc String (List String)) (entry : String × List String) :
    Assoc String (List String) :=
  let key := normalizeTenantKey entry.1
  exceptions.set key ((exceptions.get key).getD [] ++ exceptedDomains libs entry.2)

/-- `CanonicalizationPolicy::from_tenant_exceptions`, with the input in the order in which the map gives it. -/
def CanonicalizationPolicy.fromTenantExceptions (libs : HostLibs) (input : List (String × List String)) :
    CanonicalizationPolicy where
  tenantDomainExceptions := input.foldl (addExceptions libs) .empty

/-- The registered domain is excepted for the tenant, for `*` or for `default`. -/
def Excepted (libs : HostLibs) (input : List (String × List String)) (tenant : Option String) (registered : String) :
    Prop :=
  ∃ entry ∈ input, (tenant.map normalizeTenantKey = some (normalizeTenantKey entry.1) ∨
    normalizeTenantKey entry.1 = "*" ∨ normalizeTenantKey entry.1 = "default") ∧
    registered ∈ exceptedDomains libs entry.2

instance (libs : HostLibs) (input : List (String × List String)) (tenant : Option String) (registered : String) :
    Decidable (Excepted libs input tenant registered) :=
  inferInstanceAs (Decidable (∃ entry ∈ input, _))

/-- What the public suffix list does: the root of a host in lower case is a label suffix of it, has two labels or more, and
is its own root. -/
structure HostLibs.RegisteredRoot (libs : HostLibs) : Prop where
  root : ∀ h r, toAsciiLowercase h = h → libs.domainRoot h = some r →
    IsLabelSuffix r h ∧ 2 ≤ (hostLabels r).length ∧ libs.domainRoot r = some r

variable {libs : HostLibs} {input : List (String × List String)} {tenant : Option String} {key host d : String}

/-! ### The table of exceptions -/

/-- **The table.** -/
lemma mem_exceptions : (∃ set, (CanonicalizationPolicy.fromTenantExceptions libs input).tenantDomainExceptions.get key =
      some set ∧ d ∈ set) ↔
    ∃ entry ∈ input, normalizeTenantKey entry.1 = key ∧ d ∈ exceptedDomains libs entry.2 := by
  rw [CanonicalizationPolicy.fromTenantExceptions]
  induction input using List.reverseRecOn with
  | nil => simp
  | append_singleton input entry ih =>
    rw [List.foldl_append, List.foldl_cons, List.foldl_nil, addExceptions]
    set exceptions := input.foldl (addExceptions libs) .empty
    simp only [Assoc.get_set, List.mem_append, List.mem_singleton, or_and_right, exists_or, exists_eq_left, ← ih]
    split_ifs with hkey
    · subst hkey
      cases exceptions.get (normalizeTenantKey entry.1) <;> simp
    · simp [Ne.symm hkey]

/-! ### Label suffixes of a clean host -/

/-- A cleaned host is not empty and has no dot at its end. -/
lemma ends_of_cleanHost (h : cleanHost raw = some host) : host ≠ "" ∧ ∀ r, host ≠ r ++ "." := by
  obtain ⟨rfl, hne⟩ := cleanHost_eq_some.1 h
  refine ⟨hne, fun r hr => ?_⟩
  obtain ⟨a, b, hcut, -, hb⟩ := exists_of_lower_eq_append (c := '.') (b := "") (by decide) (by simpa using hr)
  obtain rfl : b = "" := by
    by_contra hne
    exact toAsciiLowercase_ne_empty hne hb
  exact trimEndMatches_ne_concat '.' _ a (by rw [hcut, String.append_empty])

/-- A label suffix of a cleaned host needs no cleaning. -/
lemma cleanHost_labelSuffix (h : cleanHost raw = some host)
    (hspace : ∀ c ∈ host.toList, isWhitespace c = false) (hd : IsLabelSuffix d host) :
    cleanHost d = some d := by
  obtain ⟨hne, hdot⟩ := ends_of_cleanHost h
  have hlower := hd.lower (cleanHost_lower h)
  obtain ⟨u, rfl, hsuffix⟩ : ∃ u, host = u ++ d ∧ (d = "" → host = "" ∨ ∃ r, host = r ++ ".") := by
    rcases hd with rfl | hd
    · exact ⟨"", String.empty_append.symm, Or.inl⟩
    · obtain ⟨u, rfl⟩ := endsWith_iff.1 hd
      refine ⟨u ++ ".", (String.append_assoc).symm, fun hempty => Or.inr ⟨u, ?_⟩⟩
      rw [hempty, String.append_empty]
  have hends : trimEndMatches '.' d = d := by
    refine trimEndMatches_eq_self fun r hr => hdot (u ++ r) ?_
    rw [String.append_assoc]
    exact congrArg (u ++ ·) hr
  refine cleanHost_eq_some.2 ⟨?_, fun hempty => ?_⟩
  · rw [trim_eq_self fun c hc => hspace c (by simp [hc]), hends, hlower]
  · rcases hsuffix hempty with hnil | ⟨r, hr⟩
    · exact hne hnil
    · exact hdot r hr

/-! ### Canonical keys -/

lemma HostLibs.RegisteredRoot.lawful (hlibs : libs.RegisteredRoot) : libs.LawfulRoot := by
  refine ⟨fun h r hlower hroot => ?_⟩
  obtain ⟨hsuffix, -⟩ := hlibs.root h r hlower hroot
  rwa [hsuffix.lower hlower]

/-- A registered domain is its own registered domain. -/
lemma registered_idem (hlibs : libs.RegisteredRoot) (hlower : toAsciiLowercase host = host) :
    deriveRegisteredDomain libs (deriveRegisteredDomain libs host) = deriveRegisteredDomain libs host := by
  refine deriveRegisteredDomain_idem_of (fun r hroot => ?_) fun r hroot => ?_
  · obtain ⟨hsuffix, -, hown⟩ := hlibs.root host r hlower hroot
    rwa [hsuffix.lower hlower]
  · have hlower' := (isLabelSuffix_lastTwoLabels host).lower hlower
    obtain ⟨hsuffix, htwo, -⟩ := hlibs.root _ r hlower' hroot
    rw [hsuffix.lower hlower']
    have hlabels := (isLabelSuffix_iff.1 hsuffix).eq_of_length_le
      ((length_hostLabels_lastTwoLabels host).trans htwo)
    rw [← join_hostLabels r, hlabels, join_hostLabels]

/-- An exception is one of the table, for one of the three keys. -/
lemma excepted_iff : Excepted libs input tenant registered ↔
    ∃ key, (tenant.map normalizeTenantKey = some key ∨ key = "*" ∨ key = "default") ∧
      ∃ set, (CanonicalizationPolicy.fromTenantExceptions libs input).tenantDomainExceptions.get key = some set ∧
        registered ∈ set := by
  simp only [mem_exceptions]
  constructor
  · rintro ⟨entry, hentry, hkey, hmem⟩
    exact ⟨_, hkey, entry, hentry, rfl, hmem⟩
  · rintro ⟨_, hkey, entry, hentry, rfl, hmem⟩
    exact ⟨entry, hentry, hkey, hmem⟩

/-- The policy keeps the subdomains of exactly the domains that are excepted. -/
lemma keepsSubdomainGranularity_iff (hclean : cleanHost (deriveRegisteredDomain libs host) =
      some (deriveRegisteredDomain libs host)) :
    (CanonicalizationPolicy.fromTenantExceptions libs input).keepsSubdomainGranularity libs tenant host = true ↔
      Excepted libs input tenant (deriveRegisteredDomain libs host) := by
  rw [excepted_iff, CanonicalizationPolicy.keepsSubdomainGranularity]
  generalize (CanonicalizationPolicy.fromTenantExceptions libs input).tenantDomainExceptions = exceptions
  obtain ⟨hregistered, hne⟩ := cleanHost_eq_some.1 hclean
  have hempty : ¬(deriveRegisteredDomain libs host).isEmpty = true := by simpa using hne
  rw [hregistered]
  dsimp only
  rw [if_neg hempty]
  split_ifs with hkeys
  · refine iff_of_false id ?_
    rintro ⟨key, -, set, hget, -⟩
    have hmem := Assoc.mem_keys_of_get hget
    rw [List.isEmpty_iff.1 hkeys] at hmem
    cases hmem
  · simp only [Bool.or_eq_true, Option.any_eq_true, or_and_right, exists_or, exists_eq_left, or_assoc]
    refine or_congr (exists_congr fun key => and_congr_right fun _ => ?_) (or_congr ?_ ?_)
    all_goals split <;> simp_all

/-- **Canonical keys with exceptions.** The key of a host without whitespace becomes that of the host itself, if its
registered domain is excepted, and that of its registered domain otherwise. This is a label suffix of the host, and
its key is not changed any more. -/
theorem canonical_key_of_exceptions (libs : HostLibs) (hlibs : libs.RegisteredRoot) (input : List (String × List String))
    (tenant : Option String) (normalizedKey host : String) (hkey : hostOfKey normalizedKey = some host)
    (hspace : ∀ c ∈ host.toList, isWhitespace c = false) :
    ∃ d, d = (if Excepted libs input tenant (deriveRegisteredDomain libs host) then host
        else deriveRegisteredDomain libs host) ∧
      IsLabelSuffix d host ∧
      canonicalClassificationKeyWithPolicy libs normalizedKey (.fromTenantExceptions libs input) tenant =
        some ("domain:" ++ d) ∧
      canonicalClassificationKeyWithPolicy libs ("domain:" ++ d) (.fromTenantExceptions libs input) tenant =
        some ("domain:" ++ d) := by
  obtain ⟨raw, -, hraw⟩ := Option.bind_eq_some_iff.1 hkey
  have hlower := cleanHost_lower hraw
  have hregistered := isLabelSuffix_deriveRegisteredDomain hlibs.lawful hlower
  have hclean {d : String} (hd : IsLabelSuffix d host) : cleanHost d = some d := cleanHost_labelSuffix hraw hspace hd
  have hkeeps : _ ↔ Excepted libs input tenant _ := keepsSubdomainGranularity_iff (hclean hregistered)
  refine ⟨_, rfl, ?_⟩
  rw [canonicalClassificationKeyWithPolicy, canonicalClassificationKeyWithPolicy, hkey, Option.map_some, hostOfKey_domain]
  by_cases hexcepted : Excepted libs input tenant (deriveRegisteredDomain libs host)
  · rw [if_pos hexcepted, if_pos (hkeeps.2 hexcepted), hclean (Or.inl rfl), Option.map_some, if_pos (hkeeps.2 hexcepted)]
    exact ⟨Or.inl rfl, rfl, rfl⟩
  · have hidem := registered_idem hlibs hlower
    have hagain : ¬(CanonicalizationPolicy.fromTenantExceptions libs input).keepsSubdomainGranularity libs tenant
        (deriveRegisteredDomain libs host) = true := by
      rw [keepsSubdomainGranularity_iff (by rw [hidem]; exact hclean hregistered), hidem]
      exact hexcepted
    rw [if_neg hexcepted, if_neg (mt hkeeps.1 hexcepted), hclean hregistered, Option.map_some, if_neg hagain, hidem]
    exact ⟨hregistered, rfl, rfl⟩

lemma registeredRoot_sampleLibs : sampleLibs.RegisteredRoot := by
  refine ⟨fun h r _ hroot => ?_⟩
  simp only [sampleLibs] at hroot
  split at hroot
  · rename_i hhost
    cases hroot
    rcases hhost with rfl | rfl <;> decide +kernel
  · cases hroot

/-- An exception of one tenant keeps the subdomain for this tenant. -/
theorem canonical_key_of_tenant :
    canonicalClassificationKeyWithPolicy sampleLibs "subdomain:WWW.example.com."
        (.fromTenantExceptions sampleLibs [(" Acme", ["example.com"])]) (some "acme") = some "domain:www.example.com" := by
  obtain ⟨d, rfl, -, hcanonical, -⟩ := canonical_key_of_exceptions sampleLibs registeredRoot_sampleLibs
    [(" Acme", ["example.com"])] (some "acme") "subdomain:WWW.example.com." "www.example.com" (by decide +kernel)
    (by simp [isWhitespace])
  rw [hcanonical]
  decide +kernel

end OpenDefender
