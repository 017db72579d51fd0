import Mathlib.Tactic
import Mathlib.Data.Rat.Defs

/-!
The vocabulary the services share (`crates/common-types/src/lib.rs` and
`crates/policy-dsl/src/lib.rs`): entity levels, actions, verdicts, decisions, the request the
adaptor sends to the policy engine, and policy documents.

A confidence is an `f32` in the source; it is compared and capped but never computed with, and is
a rational here. Rule priorities are `u32` and keep that type.
-/

namespace OpenDefender

/-- `EntityLevel`. -/
inductive EntityLevel where
  | domain
  | subdomain
  | url
  | page
  deriving DecidableEq, Repr

namespace EntityLevel

/-- The prefix `normalize_target` writes in front of the host. -/
def keyPrefix : EntityLevel → String
  | domain => "domain"
  | subdomain => "subdomain"
  | url => "url"
  | page => "page"

/-- The name `serde` gives the variant on the wire. -/
def wireName : EntityLevel → String
  | domain => "Domain"
  | subdomain => "Subdomain"
  | url => "Url"
  | page => "Page"

end EntityLevel

/-- `PolicyAction`. -/
inductive PolicyAction where
  | allow
  | block
  | warn
  | monitor
  | review
  | requireApproval
  | contentPending
  deriving DecidableEq, Repr

namespace PolicyAction

/-- `impl Display for PolicyAction`. -/
def display : PolicyAction → String
  | allow => "Allow"
  | block => "Block"
  | warn => "Warn"
  | monitor => "Monitor"
  | review => "Review"
  | requireApproval => "RequireApproval"
  | contentPending => "ContentPending"

/-- The match on the `action` column in `db_row_to_rule`. -/
def ofDisplay : String → Option PolicyAction
  | "Allow" => some allow
  | "Block" => some block
  | "Warn" => some warn
  | "Monitor" => some monitor
  | "Review" => some review
  | "RequireApproval" => some requireApproval
  | "ContentPending" => some contentPending
  | _ => none

/-- Reading back the text an action is stored under. -/
@[simp] lemma ofDisplay_display (a : PolicyAction) : ofDisplay a.display = some a := by
  cases a <;> rfl

lemma display_injective : Function.Injective display := by
  intro a b h
  have hdisplay := congrArg ofDisplay h
  rw [ofDisplay_display, ofDisplay_display] at hdisplay
  exact Option.some.inj hdisplay

end PolicyAction

/-- `ClassificationVerdict`. -/
structure ClassificationVerdict where
  primaryCategory : String
  subcategory : String
  riskLevel : String
  confidence : ℚ
  recommendedAction : PolicyAction
  deriving DecidableEq, Repr

/-- `PolicyDecision`. -/
structure PolicyDecision where
  action : PolicyAction
  cacheHit : Bool
  verdict : Option ClassificationVerdict
  decisionSource : Option String
  deriving DecidableEq, Repr

/-- `NormalizedTarget`. -/
structure NormalizedTarget where
  entityLevel : EntityLevel
  normalizedKey : String
  hostname : String
  registeredDomain : String
  fullUrl : String
  deriving DecidableEq, Repr

/-- `PolicyDecisionRequest`, as the adaptor builds it. -/
structure PolicyDecisionRequest where
  normalizedKey : String
  entityLevel : EntityLevel
  sourceIp : String
  userId : Option String
  groupIds : List String
  deriving DecidableEq, Repr

/-- `PageFetchJob`. -/
structure PageFetchJob where
  normalizedKey : String
  url : String
  hostname : String
  candidateUrls : List String
  traceId : Option String
  idempotencyKey : Option String
  ttlSeconds : Option Int
  deriving DecidableEq, Repr

/-! ### Policy documents -/

/-- `Conditions`: an absent list does not constrain the request. -/
structure Conditions where
  domains : Option (List String) := none
  categories : Option (List String) := none
  users : Option (List String) := none
  groups : Option (List String) := none
  sourceIps : Option (List String) := none
  riskLevels : Option (List String) := none
  deriving DecidableEq, Repr

/-- `PolicyRule`. -/
structure PolicyRule where
  id : String
  description : Option String
  priority : UInt32
  action : PolicyAction
  conditions : Conditions
  deriving DecidableEq, Repr

/-- `PolicyDocument`. -/
structure PolicyDocument where
  version : String
  rules : List PolicyRule
  deriving DecidableEq, Repr

end OpenDefender
