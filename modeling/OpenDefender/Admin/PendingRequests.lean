import OpenDefender.Admin.Classifications
import OpenDefender.Common.Requests

/-!
The upsert of a pending request in the admin API (`upsert_pending` of
`services/admin-api/src/classification_requests.rs`).

The call takes a key, refuses one that is none of a domain or subdomain, and applies to the row of the canonical key,
which is derived without a tenant.
-/

namespace OpenDefender.Admin

open Lib Text Lib.Outcome

/-- `UpsertPendingRequest`. -/
structure UpsertPendingRequest where
  status : Option String
  baseUrl : Option String
  deriving DecidableEq, Repr

/-- The key of the row that a pending call is applied to, or the answer that refuses the call. -/
def ClassificationServices.appliedKey (services : ClassificationServices) (normalizedKey : String) :
    Except ApiError String :=
  if (parseNormalizedKey normalizedKey).isNone then .error invalidNormalizedKey
  else .ok (services.canonicalizeKey normalizedKey)

/-- `upsert_pending`. -/
def upsertPending (services : ClassificationServices) (now : ℕ) (rows : List RequestRow) (normalizedKey : String)
    (payload : UpsertPendingRequest) : Except ApiError (List RequestRow) := do
  let appliedKey ← services.appliedKey normalizedKey
  let status := ((payload.status.map trim).filter fun value => !value.isEmpty).getD "waiting_content"
  return upsertRequest rows appliedKey status payload.baseUrl none now

/-- A key that is refused has no host. -/
lemma cleanHost_of_refused (h : (parseNormalizedKey ("domain:" ++ host)).isNone = true) :
    cleanHost host = none := by
  have hblank : (trim host).isEmpty = true := by
    rw [parseNormalizedKey, stripPrefix_append] at h
    dsimp only at h
    split at h
    · assumption
    · cases h
  rw [cleanHost, String.isEmpty_iff.1 hblank]
  decide

end OpenDefender.Admin
