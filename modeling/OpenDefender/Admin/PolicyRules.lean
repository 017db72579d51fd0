import OpenDefender.Common.Types
import OpenDefender.Taxonomy.Store

/-!
How the admin API checks the rules of a policy (`services/admin-api/src/policies.rs`): the payload
becomes rules in the order given, with distinct priorities and ids, and every category must be one
the taxonomy can place.
-/

namespace OpenDefender

/-- An error answer of the admin API: HTTP status and `ApiError`. -/
structure ApiError where
  status : Nat
  errorCode : String
  message : String
  deriving DecidableEq, Repr

namespace Admin

open Lib Text

/-- `validation_error`. -/
def validationError (message : String) : ApiError :=
  { status := 400, errorCode := "VALIDATION_ERROR", message }

/-- `PolicyRulePayload`. -/
structure PolicyRulePayload where
  id : Option String
  description : Option String
  priority : UInt32
  action : String
  conditions : Conditions
  deriving DecidableEq, Repr

/-- `parse_action`. -/
def parseAction (value : String) : Except ApiError PolicyAction :=
  match trim value with
  | "Allow" | "allow" => .ok .allow
  | "Block" | "block" => .ok .block
  | "Warn" | "warn" => .ok .warn
  | "Monitor" | "monitor" => .ok .monitor
  | "Review" | "review" => .ok .review
  | "RequireApproval" | "requireapproval" | "require-approval" => .ok .requireApproval
  | "ContentPending" | "contentpending" | "content-pending" => .ok .contentPending
  | _ => .error (validationError "unsupported action value")

/-- `is_valid_domain_label`. -/
def isValidDomainLabel (label : String) : Bool :=
  match label.toList with
  | [] => false
  | first :: rest =>
    first ≠ '-' && (first :: rest).getLast? ≠ some '-' &&
      (first :: rest).all fun ch => isAsciiAlphanumeric ch || ch == '-'

/-- The checks of `validate_domain_patterns` on one pattern. -/
def validateDomainPattern (domain : String) : Except ApiError Unit :=
  let candidate := toAsciiLowercase (trim domain)
  if candidate.isEmpty then
    .error (validationError "domain conditions must not contain empty values")
  else if contains candidate "://" || containsChar candidate '/' then
    .error (validationError "domain conditions must use host patterns only (no scheme/path)")
  else
    let labels := split (· == '.') ((stripPrefix "*." candidate).getD candidate)
    if labels.length < 2 then
      .error (validationError "domain conditions must contain a valid host with at least one dot")
    else if labels.all isValidDomainLabel then .ok ()
    else .error (validationError "domain conditions contain an invalid hostname label")

/-- `validate_domain_patterns`. -/
def validateDomainPatterns (conditions : Conditions) : Except ApiError Unit :=
  match conditions.domains with
  | none => .ok ()
  | some domains => domains.forM validateDomainPattern

/-- The loop of `normalize_rules`. The first list supplies the texts of fresh ids, one for each
rule that has none. -/
def normalizeRulesLoop (seenPriorities : List UInt32) (seenIds : List String) :
    List String → List PolicyRulePayload → Except ApiError (List PolicyRule)
  | _, [] => .ok []
  | freshIds, rule :: rest => do
    if rule.priority ∈ seenPriorities then
      throw (validationError "duplicate priorities are not allowed")
    let action ← parseAction rule.action
    validateDomainPatterns rule.conditions
    let id := trim (rule.id.getD (freshIds.headD ""))
    let freshIds := if rule.id.isSome then freshIds else freshIds.tail
    if id.isEmpty then
      throw (validationError "rule id cannot be empty")
    if id ∈ seenIds then
      throw (validationError "duplicate rule ids are not allowed")
    let normalized ← normalizeRulesLoop (rule.priority :: seenPriorities) (id :: seenIds)
      freshIds rest
    return { id, description := rule.description, priority := rule.priority, action,
             conditions := rule.conditions } :: normalized

/-- `normalize_rules`. -/
def normalizeRules (freshIds : List String) (rules : List PolicyRulePayload) :
    Except ApiError (List PolicyRule) :=
  if rules.isEmpty then .error (validationError "at least one rule required")
  else normalizeRulesLoop [] [] freshIds rules

/-- One category of `validate_rules_against_taxonomy`. -/
def validateRuleCategory (taxonomy : TaxonomyStore) (ruleId category : String) :
    Except ApiError Unit :=
  match (taxonomy.validateCategory category).fallbackReason with
  | some .missingCategory | some .unknownCategory =>
    .error (validationError
      ("rule '" ++ ruleId ++ "' references invalid category '" ++ category ++ "'"))
  | _ => .ok ()

/-- `validate_rules_against_taxonomy`. -/
def validateRulesAgainstTaxonomy (taxonomy : TaxonomyStore) (rules : List PolicyRule) :
    Except ApiError Unit :=
  rules.forM fun rule => (rule.conditions.categories.getD []).forM
    (validateRuleCategory taxonomy rule.id)

/-- The rules the admin API takes from a payload, or the error it answers with. -/
def acceptRules (taxonomy : TaxonomyStore) (freshIds : List String)
    (payload : List PolicyRulePayload) : Except ApiError (List PolicyRule) := do
  let rules ← normalizeRules freshIds payload
  validateRulesAgainstTaxonomy taxonomy rules
  return rules

end Admin

end OpenDefender
