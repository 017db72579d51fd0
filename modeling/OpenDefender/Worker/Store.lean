import OpenDefender.Adaptor.Fleet
import OpenDefender.Common.Classifications

/-!
What the classification worker (`workers/llm-worker/src/main.rs`) leaves behind: the row it stores and
the cache invalidation it publishes.
-/

namespace OpenDefender.Worker

open Adaptor

/-- `LlmResponse`: the verdict of a provider. -/
structure LlmResponse where
  primaryCategory : String
  subcategory : String
  riskLevel : String
  confidence : ℚ
  recommendedAction : String
  deriving DecidableEq, Repr

/-- `store_classification`: the table afterwards, or the error of the database. -/
def storeClassification (table : List ClassificationRow) (normalizedKey : String)
    (verdict : LlmResponse) (finalAction : PolicyAction) (now : Nat) :
    Except String (List ClassificationRow) :=
  match upsertClassification table normalizedKey
    { primaryCategory := verdict.primaryCategory
      subcategory := verdict.subcategory
      riskLevel := verdict.riskLevel
      recommendedAction := finalAction
      confidence := verdict.confidence } now with
  | some table => .ok table
  | none => .error "failed to persist classification"

/-- `DecisionCachePublisher::publish`: the key is deleted from Redis, and the adaptors are told. -/
def publishInvalidation (key : String) : List RedisCommand :=
  [.del key, .publish (.review key)]

end OpenDefender.Worker
