import OpenDefender.Common.Types
import OpenDefender.Lib.Assoc
import OpenDefender.Lib.Outcome
import OpenDefender.Lib.Text

/-!
Host normalisation (`crates/common-types/src/normalizer.rs`).

The crates `idna`, `url` and `addr` are third-party code; a `HostLibs` holds the functions
of them that are used. `LawfulRoot` is the documented behaviour of the public-suffix lookup that
some results need: the root of a host is the host itself or a label suffix of it.
-/

namespace OpenDefender

open Lib Text Lib.Outcome

/-- The functions `normalizer.rs` takes from other crates. -/
structure HostLibs where
  /-- `idna::domain_to_ascii`. -/
  domainToAscii : String → Except String String
  /-- `url::Url::parse` succeeds. -/
  urlParses : String → Bool
  /-- `addr::parse_domain_name(h)`, then `root()`: the registered domain by the public suffix
  list. -/
  domainRoot : String → Option String
  /-- `url::Url::parse`, then scheme and host: the adaptor's `derive_base_url`. -/
  baseUrl : String → Option String

/-- `h` is `d` or ends with a dot and `d`: the relation of a host to a domain above it. -/
def IsLabelSuffix (d h : String) : Prop :=
  h = d ∨ endsWith h ("." ++ d) = true

instance (d h : String) : Decidable (IsLabelSuffix d h) :=
  inferInstanceAs (Decidable (_ ∨ _))

/-- Being at or below is transitive: what lies below a domain lies below every domain above it. -/
lemma IsLabelSuffix.trans (hab : IsLabelSuffix a b) (hbc : IsLabelSuffix b c) :
    IsLabelSuffix a c := by
  rcases hbc with rfl | hbc
  · exact hab
  right
  obtain ⟨u, rfl⟩ := endsWith_iff.1 hbc
  rcases hab with rfl | hab
  · exact hbc
  · obtain ⟨v, rfl⟩ := endsWith_iff.1 hab
    exact endsWith_iff.2 ⟨u ++ "." ++ v, by simp only [String.append_assoc]⟩

lemma IsLabelSuffix.shrinks (hd : IsLabelSuffix d h) : d = h ∨ d.length < h.length := by
  rcases hd with rfl | hd
  · exact Or.inl rfl
  · right
    obtain ⟨u, rfl⟩ := endsWith_iff.1 hd
    rw [String.length_append, String.length_append]
    have hdot : ".".length = 1 := rfl
    omega

lemma IsLabelSuffix.lower (hd : IsLabelSuffix d h) (hlower : toAsciiLowercase h = h) :
    toAsciiLowercase d = d := by
  rcases hd with rfl | hd
  · exact hlower
  · obtain ⟨u, rfl⟩ := endsWith_iff.1 hd
    exact lower_of_append (lower_of_append hlower)

/-- The public suffix lookup names a domain at or above the host (in lower case). -/
structure HostLibs.LawfulRoot (libs : HostLibs) : Prop where
  labelSuffix : ∀ h r, toAsciiLowercase h = h → libs.domainRoot h = some r →
    IsLabelSuffix (toAsciiLowercase r) h

/-- `sanitize_host`: removes brackets and a port. -/
def sanitizeHost (input : String) : String :=
  let trimmed := trim input
  let withoutPort :=
    match rsplitOnce ':' trimmed with
    | some (hostPart, portPart) =>
      if portPart.toList.all (fun c => '0' ≤ c && c ≤ '9') then hostPart else trimmed
    | none => trimmed
  match stripPrefix "[" trimmed with
  | some inner =>
    match splitOnce "]" inner with
    | some (host, _) => host
    | none => withoutPort
  | none => withoutPort

/-- The branch of `derive_registered_domain` for hosts the public suffix list has no root for: the
last two labels. -/
def lastTwoLabels (hostname : String) : String :=
  let labels := split (· == '.') hostname
  if labels.length ≤ 2 then hostname else join "." (labels.drop (labels.length - 2))

/-- `derive_registered_domain` of `normalizer.rs`. -/
def deriveRegisteredDomain (libs : HostLibs) (hostname : String) : String :=
  match libs.domainRoot hostname with
  | some root => toAsciiLowercase root
  | none => lastTwoLabels hostname

/-- The last two labels are a label suffix. -/
lemma isLabelSuffix_lastTwoLabels (hostname : String) :
    IsLabelSuffix (lastTwoLabels hostname) hostname := by
  unfold lastTwoLabels
  simp only
  split
  · exact Or.inl rfl
  · rename_i hlen
    right
    set labels := split (· == '.') hostname with hlabels
    have hjoin : join "." labels = hostname := join_split '.' hostname
    have htake : labels.take (labels.length - 2) ≠ [] := by
      rw [ne_eq, List.take_eq_nil_iff, not_or]
      exact ⟨by omega, List.ne_nil_of_length_pos (by omega)⟩
    have hdrop : labels.drop (labels.length - 2) ≠ [] := by
      rw [ne_eq, List.drop_eq_nil_iff]
      omega
    have happ := join_append "." htake hdrop
    rw [List.take_append_drop, hjoin] at happ
    exact endsWith_iff.2 ⟨join "." (labels.take (labels.length - 2)),
      by rw [← String.append_assoc]; exact happ⟩

variable {libs : HostLibs}

/-- The registered domain of a host in lower case is the host or a label suffix of it. -/
lemma isLabelSuffix_deriveRegisteredDomain (hlibs : libs.LawfulRoot)
    (hlower : toAsciiLowercase hostname = hostname) :
    IsLabelSuffix (deriveRegisteredDomain libs hostname) hostname := by
  unfold deriveRegisteredDomain
  cases hroot : libs.domainRoot hostname with
  | some root => exact hlibs.labelSuffix hostname root hlower hroot
  | none => exact isLabelSuffix_lastTwoLabels hostname

/-- The last step of `normalize_target`: level and key of an ASCII host. -/
def targetOfHost (libs : HostLibs) (hostname fullUrl : String) : NormalizedTarget :=
  let registered := deriveRegisteredDomain libs hostname
  let level := if hostname ≠ registered then EntityLevel.subdomain else EntityLevel.domain
  { entityLevel := level
    normalizedKey := level.keyPrefix ++ ":" ++ hostname
    hostname := hostname
    registeredDomain := registered
    fullUrl := fullUrl }

/-- The `full_url` of `normalize_target`. -/
def normalizedUrl (scheme asciiHost path : String) : String :=
  let normalizedPath := if (stripPrefix "/" path).isSome then path else "/" ++ path
  let hostForUrl := if containsChar asciiHost ':' then "[" ++ asciiHost ++ "]" else asciiHost
  scheme ++ "://" ++ hostForUrl ++ normalizedPath

/-- `normalize_target`. -/
def normalizeTarget (libs : HostLibs) (host path : String) (scheme : Option String) :
    Except String NormalizedTarget := do
  let scheme := scheme.getD "http"
  if (trim host).isEmpty then
    throw "host required for normalization"
  -- the ASCII form has no other letters, so `to_lowercase` is the ASCII one
  let asciiHost ← match libs.domainToAscii (trim (sanitizeHost host)) with
    | .ok h => pure (toAsciiLowercase h)
    | .error err => throw ("invalid host " ++ host ++ ": " ++ err)
  if !libs.urlParses (normalizedUrl scheme asciiHost path) then
    throw "failed to parse normalized url"
  pure (targetOfHost libs asciiHost (normalizedUrl scheme asciiHost path))

variable {host : String}

/-- The host that a target is made from. -/
lemma normalizeTarget_ascii (h : normalizeTarget libs host path scheme = .ok target) :
    ∃ ascii fullUrl, libs.domainToAscii (trim (sanitizeHost host)) = .ok ascii ∧
      target = targetOfHost libs (toAsciiLowercase ascii) fullUrl := by
  simp only [normalizeTarget] at h
  split at h
  · cases h
  · cases hlib : libs.domainToAscii (trim (sanitizeHost host)) with
    | error err =>
      rw [hlib] at h
      cases h
    | ok ascii =>
      rw [hlib] at h
      obtain ⟨asciiHost, hascii, h⟩ := bind_ok.1 h
      cases hascii
      split at h
      · cases h
      · exact ⟨ascii, _, rfl, (Except.ok.inj h).symm⟩

/-- A normalised target is made from a host in lower case. -/
lemma normalizeTarget_ok (h : normalizeTarget libs host path scheme = .ok target) :
    ∃ hostname fullUrl, target = targetOfHost libs hostname fullUrl ∧
      toAsciiLowercase hostname = hostname := by
  obtain ⟨ascii, fullUrl, -, rfl⟩ := normalizeTarget_ascii h
  exact ⟨toAsciiLowercase ascii, fullUrl, rfl, toAsciiLowercase_idem ascii⟩

/-- The key of a normalised target is never empty. -/
lemma normalizeTarget_key_not_empty (h : normalizeTarget libs host path scheme = .ok target) :
    target.normalizedKey.isEmpty = false := by
  obtain ⟨hostname, fullUrl, rfl, -⟩ := normalizeTarget_ok h
  rw [Bool.eq_false_iff, ne_eq, String.isEmpty_iff, ← String.toList_inj]
  simp [targetOfHost]

/-- The host of a key or name as several services clean it: trimmed, without trailing dots, in lower
case; none if nothing is left. -/
def cleanHost (raw : String) : Option String :=
  let host := toAsciiLowercase (trimEndMatches '.' (trim raw))
  if host.isEmpty then none else some host

lemma cleanHost_eq_some :
    cleanHost raw = some host ↔ toAsciiLowercase (trimEndMatches '.' (trim raw)) = host ∧ host ≠ "" := by
  simp only [cleanHost, Option.ite_none_left_eq_some, String.isEmpty_iff, Option.some.injEq]
  constructor
  · rintro ⟨hne, rfl⟩
    exact ⟨rfl, hne⟩
  · rintro ⟨rfl, hne⟩
    exact ⟨hne, rfl⟩

/-- A cleaned host is in lower case. -/
lemma cleanHost_lower (h : cleanHost raw = some host) : toAsciiLowercase host = host := by
  obtain ⟨rfl, -⟩ := cleanHost_eq_some.1 h
  exact toAsciiLowercase_idem _

lemma cleanHost_shrinks (h : cleanHost raw = some host) :
    host = toAsciiLowercase raw ∨ host.length < raw.length := by
  obtain ⟨rfl, -⟩ := cleanHost_eq_some.1 h
  rw [length_toAsciiLowercase]
  rcases shrinks_of_isInfix ((trimEndMatches_isInfix '.' _).trans (trim_isInfix raw)) with hsame | hshort
  · exact Or.inl (by rw [hsame])
  · exact Or.inr hshort

/-- The host of a `domain:` or `subdomain:` key. -/
def hostOfKey (normalizedKey : String) : Option String :=
  ((stripPrefix "domain:" normalizedKey).or (stripPrefix "subdomain:" normalizedKey)).bind cleanHost

@[simp] lemma hostOfKey_domain (raw : String) : hostOfKey ("domain:" ++ raw) = cleanHost raw := by
  simp [hostOfKey]

lemma domain_ne_subdomain (a b : String) : "domain:" ++ a ≠ "subdomain:" ++ b := by
  intro h
  rw [← String.toList_inj] at h
  simp at h

lemma stripPrefix_domain_subdomain (raw : String) :
    stripPrefix "domain:" ("subdomain:" ++ raw) = none :=
  stripPrefix_eq_none.2 fun r => (domain_ne_subdomain r raw).symm

@[simp] lemma hostOfKey_subdomain (raw : String) :
    hostOfKey ("subdomain:" ++ raw) = cleanHost raw := by
  simp [hostOfKey, stripPrefix_domain_subdomain]

/-- `canonical_classification_key`. -/
def canonicalClassificationKey (libs : HostLibs) (normalizedKey : String) : Option String :=
  (hostOfKey normalizedKey).map fun host => "domain:" ++ deriveRegisteredDomain libs host

/-- `normalize_tenant_key`. -/
def normalizeTenantKey (raw : String) : String :=
  toAsciiLowercase (trim raw)

/-- `CanonicalizationPolicy`: for each tenant the registered domains whose subdomains keep their
own classification. -/
structure CanonicalizationPolicy where
  tenantDomainExceptions : Assoc String (List String)

/-- `CanonicalizationPolicy::keeps_subdomain_granularity`. -/
def CanonicalizationPolicy.keepsSubdomainGranularity (libs : HostLibs)
    (policy : CanonicalizationPolicy) (tenant : Option String) (host : String) : Bool :=
  let registered := toAsciiLowercase (trimEndMatches '.' (trim (deriveRegisteredDomain libs host)))
  let holds (key : String) : Bool :=
    match policy.tenantDomainExceptions.get key with
    | some set => set.contains registered
    | none => false
  if policy.tenantDomainExceptions.keys.isEmpty then false
  else if registered.isEmpty then false
  else (tenant.map normalizeTenantKey).any holds || holds "*" || holds "default"

/-- `canonical_classification_key_with_policy`. -/
def canonicalClassificationKeyWithPolicy (libs : HostLibs) (normalizedKey : String)
    (policy : CanonicalizationPolicy) (tenant : Option String) : Option String :=
  (hostOfKey normalizedKey).map fun host =>
    if policy.keepsSubdomainGranularity libs tenant host then "domain:" ++ host
    else "domain:" ++ deriveRegisteredDomain libs host

/-- **A canonical key** of a domain key is in lower case. It is shorter than the key, or it is the key in lower case. -/
lemma canonicalKey_shrinks (hlibs : libs.LawfulRoot)
    (h : canonicalClassificationKeyWithPolicy libs ("domain:" ++ raw) policy tenant = some canonical) :
    toAsciiLowercase canonical = canonical ∧ (canonical = toAsciiLowercase ("domain:" ++ raw) ∨
      canonical.length < ("domain:" ++ raw).length) := by
  obtain ⟨host, hhost, hcanonical⟩ := Option.map_eq_some_iff.1 h
  rw [hostOfKey_domain] at hhost
  have hlower := cleanHost_lower hhost
  obtain ⟨d, hd, rfl⟩ : ∃ d, IsLabelSuffix d host ∧ "domain:" ++ d = canonical := by
    split_ifs at hcanonical
    · exact ⟨host, Or.inl rfl, hcanonical⟩
    · exact ⟨_, isLabelSuffix_deriveRegisteredDomain hlibs hlower, hcanonical⟩
  have hprefix : toAsciiLowercase "domain:" = "domain:" := by decide
  refine ⟨by rw [toAsciiLowercase_append, hprefix, hd.lower hlower], ?_⟩
  rw [toAsciiLowercase_append, hprefix, String.length_append, String.length_append]
  rcases hd.shrinks with rfl | hshort
  · rcases cleanHost_shrinks hhost with hsame | hshort
    · exact Or.inl (by rw [hsame])
    · exact Or.inr (by omega)
  · right
    rcases cleanHost_shrinks hhost with hsame | hshort'
    · rw [hsame, length_toAsciiLowercase] at hshort
      omega
    · omega

/-! ### Library functions to evaluate on -/

/-- The library functions on the hosts `example.com` and `www.example.com`, for requests of the
path `/`. -/
def sampleLibs : HostLibs :=
  { domainToAscii := fun host => .ok host
    urlParses := fun _ => true
    domainRoot := fun host =>
      if host = "example.com" ∨ host = "www.example.com" then some "example.com" else none
    baseUrl := fun url => some url }

lemma lawfulRoot_sampleLibs : sampleLibs.LawfulRoot := by
  refine ⟨fun h r _ hroot => ?_⟩
  simp only [sampleLibs] at hroot
  split at hroot
  · rename_i hhost
    cases hroot
    rcases hhost with rfl | rfl <;> decide +kernel
  · cases hroot

end OpenDefender
