import OpenDefender.Admin.PolicyRules

/-!
Override payloads as the admin API checks them (`services/admin-api/src/main.rs`): the type, value,
action and status of an override.
-/

namespace OpenDefender.Admin

open Lib Text

/-- The characters `normalize_domain_scope` lets into a host. -/
def isScopeChar (c : Char) : Bool :=
  isAsciiAlphanumeric c || c == '-' || c == '.'

/-- A scope cut into its wildcard prefix, if it has one, and its host. -/
def splitScope (scopeValue : String) : String × String :=
  match stripPrefix "*." scopeValue with
  | some rest => ("*.", rest)
  | none => ("", scopeValue)

/-- `normalize_domain_scope`. -/
def normalizeDomainScope (value : String) : Except ApiError String :=
  let lowered := toAsciiLowercase (trim value)
  let (wildcard, domainPart) := splitScope lowered
  if lowered.isEmpty then
    .error (validationError "scope_value required for domain overrides")
  else if domainPart.isEmpty || !containsChar domainPart '.' then
    .error (validationError "domain scope must include a valid hostname")
  else if domainPart.utf8ByteSize > 253 then
    .error (validationError "domain scope exceeds maximum length")
  else if !domainPart.toList.all isScopeChar then
    .error (validationError "domain scope may only include alphanumeric, '-', '.' characters")
  else .ok (wildcard ++ domainPart)

/-- `normalize_scope_type`. -/
def normalizeScopeType (value : String) : Except ApiError String :=
  match toAsciiLowercase (trim value) with
  | "" => .error (validationError "scope_type required")
  | "domain" => .ok "domain"
  | _ => .error (validationError "scope_type must be domain")

/-- `normalize_scope_value`. -/
def normalizeScopeValue (scopeType value : String) : Except ApiError String :=
  if scopeType = "domain" then normalizeDomainScope value
  else .error (validationError "unsupported scope_type")

/-- The field checks of `normalize_action` and `normalize_status`: a trimmed, lower-case value from a
list. -/
def normalizeChoice (allowed : List String) (emptyMessage otherMessage value : String) :
    Except ApiError String :=
  let normalized := toAsciiLowercase (trim value)
  if normalized.isEmpty then .error (validationError emptyMessage)
  else if normalized ∈ allowed then .ok normalized
  else .error (validationError otherMessage)

/-- `normalize_action`. -/
def normalizeAction : String → Except ApiError String :=
  normalizeChoice ["allow", "block"] "action required" "action must be one of allow|block"

/-- `normalize_status`. -/
def normalizeStatus : String → Except ApiError String :=
  normalizeChoice ["active", "inactive", "expired", "revoked"] "status cannot be empty"
    "status must be one of active|inactive|expired|revoked"

/-- `normalize_optional_field`. -/
def normalizeOptionalField (value : Option String) : Option String :=
  (value.map trim).filter fun trimmed => !trimmed.isEmpty

/-- The host of a scope: what follows `*.`, or all of it. -/
def scopeHost (scopeValue : String) : String :=
  (splitScope scopeValue).2

/-- A scope put together again has the same host. -/
lemma scopeHost_splitScope (s : String) :
    scopeHost ((splitScope s).1 ++ (splitScope s).2) = (splitScope s).2 := by
  unfold scopeHost splitScope
  cases hstrip : stripPrefix "*." s with
  | some rest => simp
  | none => simp [hstrip]

variable {value scope : String}

/-- The host of an accepted scope consists of letters, digits, hyphens and dots. -/
lemma isScopeChar_of_accepted (h : normalizeDomainScope value = .ok scope) :
    ∀ c ∈ (scopeHost scope).toList, isScopeChar c = true := by
  simp only [normalizeDomainScope] at h
  split at h
  · cases h
  split at h
  · cases h
  split at h
  · cases h
  split at h
  · cases h
  · rename_i hall
    obtain rfl := Except.ok.inj h
    rw [scopeHost_splitScope]
    exact List.all_eq_true.1 (by simpa using hall)

/-! ### Scopes as they are stored -/

lemma splitScope_append (s : String) : (splitScope s).1 ++ (splitScope s).2 = s := by
  rw [splitScope]
  cases hstrip : stripPrefix "*." s with
  | some rest => exact (stripPrefix_eq_some.1 hstrip).symm
  | none => exact String.empty_append

lemma splitScope_wildcard (s : String) : (splitScope s).1 = "*." ∨ (splitScope s).1 = "" := by
  rw [splitScope]
  cases stripPrefix "*." s with
  | some rest => exact Or.inl rfl
  | none => exact Or.inr rfl

/-- An accepted scope is the text without whitespace around it, in lower case. -/
lemma accepted_eq (h : normalizeDomainScope value = .ok scope) :
    scope = toAsciiLowercase (trim value) := by
  simp only [normalizeDomainScope] at h
  split_ifs at h
  rw [← splitScope_append (toAsciiLowercase (trim value))]
  exact (Except.ok.inj h).symm

lemma mem_of_accepted (h : normalizeDomainScope value = .ok scope) (hc : c ∈ scope.toList) :
    c = '*' ∨ isScopeChar c = true := by
  rw [← splitScope_append scope, String.toList_append, List.mem_append] at hc
  rcases hc with hc | hc
  · rcases splitScope_wildcard scope with hwild | hwild
    · rw [hwild] at hc
      have hcases : c = '*' ∨ c = '.' := by simpa using hc
      rcases hcases with rfl | rfl
      · exact Or.inl rfl
      · exact Or.inr (by decide)
    · rw [hwild] at hc
      simp at hc
  · exact Or.inr (isScopeChar_of_accepted h c hc)

lemma isWhitespace_of_isScopeChar (h : isScopeChar c = true) : isWhitespace c = false := by
  rw [isScopeChar, Bool.or_eq_true, Bool.or_eq_true, beq_iff_eq, beq_iff_eq] at h
  rcases h with (h | rfl) | rfl
  · exact isWhitespace_of_alphanumeric h
  · decide
  · decide

lemma isWhitespace_of_accepted (h : normalizeDomainScope value = .ok scope) :
    ∀ c ∈ scope.toList, isWhitespace c = false := by
  intro c hc
  rcases mem_of_accepted h hc with rfl | hc
  · decide
  · exact isWhitespace_of_isScopeChar hc

lemma lower_trim_of_accepted (h : normalizeDomainScope value = .ok scope) : toAsciiLowercase (trim scope) = scope := by
  rw [trim_eq_self (isWhitespace_of_accepted h), accepted_eq h, toAsciiLowercase_idem]

/-- What has been normalised is not changed any more. -/
lemma normalizeDomainScope_idem (h : normalizeDomainScope value = .ok scope) :
    normalizeDomainScope scope = .ok scope := by
  rw [← h, normalizeDomainScope, (lower_trim_of_accepted h).trans (accepted_eq h)]
  rfl

end OpenDefender.Admin
