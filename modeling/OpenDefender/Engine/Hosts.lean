import OpenDefender.Common.Normalizer

/-!
How the policy engine reads hosts (`services/policy-engine/src/main.rs` and `store.rs`): the host
of a request key, the host of an override scope or rule pattern, and the matching of the two.

`main.rs` and `store.rs` each have a `host_from_normalized_key`; the second also reads `url:` keys.
-/

namespace OpenDefender.Engine

open Lib Text

/-- `host_from_normalized_key` of `main.rs`. -/
def hostFromNormalizedKey (normalizedKey : String) : Option String :=
  hostOfKey normalizedKey

/-- `normalize_scope_host`. -/
def normalizeScopeHost (scopeValue : String) : Option String :=
  let lowered := toAsciiLowercase (trim scopeValue)
  let core := (stripPrefix "*." lowered).getD lowered
  let host := trimEndMatches '.' core
  if host.isEmpty then none else some host

/-- `domain_scope_matches_host`. -/
def domainScopeMatchesHost (scopeValue host : String) : Bool :=
  match normalizeScopeHost scopeValue with
  | none => false
  | some scopeHost => host == scopeHost || endsWith host ("." ++ scopeHost)

/-- Whether an override of this scope is considered for a request key. -/
def scopeGovernsKey (scopeValue normalizedKey : String) : Bool :=
  (hostFromNormalizedKey normalizedKey).any (domainScopeMatchesHost scopeValue)

/-- `domain_scope_specificity`: the length in bytes of the scope's host. -/
def domainScopeSpecificity (scopeValue : String) : Nat :=
  match normalizeScopeHost scopeValue with
  | some host => host.utf8ByteSize
  | none => 0

/-- `non_empty_string`. -/
def nonEmptyString (value : String) : Option String :=
  let trimmed := trim value
  if trimmed.isEmpty then none else some trimmed

lemma nonEmptyString_eq_some (h : nonEmptyString value = some text) :
    text = trim value ∧ text ≠ "" := by
  rw [nonEmptyString] at h
  split at h
  · cases h
  · rename_i hne
    cases h
    exact ⟨rfl, fun hempty => hne (by rw [hempty]; rfl)⟩

/-- The host of a `url:` key as `store.rs` cuts it out: after the scheme, before the path, after
user information, before the port. -/
def hostOfUrlKey (rawUrl : String) : Option String :=
  let withoutScheme := ((splitOnce "://" (trim rawUrl)).map Prod.snd).getD rawUrl
  let hostPort := (split (· == '/') withoutScheme).head?.getD ""
  let host := (split (· == '@') hostPort).getLast?.getD ""
  let host := (split (· == ':') host).head?.getD ""
  let host := toAsciiLowercase (trimEndMatches '.' (trim host))
  if host.isEmpty then none else some host

/-- `host_from_normalized_key` of `store.rs`. -/
def storeHostFromNormalizedKey (normalizedKey : String) : Option String :=
  match (stripPrefix "domain:" normalizedKey).or (stripPrefix "subdomain:" normalizedKey) with
  | some _ => hostOfKey normalizedKey
  | none => (stripPrefix "url:" normalizedKey).bind hostOfUrlKey

/-- `domain_pattern_matches_host`. -/
def domainPatternMatchesHost (pattern host : String) : Bool :=
  let normalized := toAsciiLowercase (trim pattern)
  if normalized.isEmpty then false
  else
    let scope := (stripPrefix "*." normalized).getD normalized
    host == scope || endsWith host ("." ++ scope)

/-- `derive_registered_domain` of `main.rs`: always the last two labels, without the public suffix
list. -/
def deriveRegisteredDomain (hostname : String) : Option String :=
  let trimmed := toAsciiLowercase (trimEndMatches '.' (trim hostname))
  if trimmed.isEmpty then none
  else
    let labels := (split (· == '.') trimmed).filter (fun label => !label.isEmpty)
    if labels.length ≤ 2 then some trimmed
    else some (join "." (labels.drop (labels.length - 2)))

/-! ### Matching -/

/-- A scope governs a host exactly when the host of the scope is a label suffix of it. -/
lemma domainScopeMatchesHost_iff :
    domainScopeMatchesHost scope host = true ↔
      ∃ scopeHost, normalizeScopeHost scope = some scopeHost ∧ IsLabelSuffix scopeHost host := by
  unfold domainScopeMatchesHost IsLabelSuffix
  cases normalizeScopeHost scope with
  | none => simp
  | some scopeHost => simp

end OpenDefender.Engine
