import OpenDefender.Adaptor.Cache

/-!
One ICAP request at the adaptor (`handle_connection` of `services/icap-adaptor/src/main.rs`), from
the parsed request on: normalisation, identity headers, the cache lookup with the fallback to the
registered domain, the call to the policy engine, the content-pending gate, and the jobs that
follow.

The engine is an argument, `evaluate`; it returns a decision together with its origin.
-/

namespace OpenDefender.Adaptor

open Lib Text Lib.Outcome

/-- `icap::IcapRequest`, as parsed: header names are in lower case. -/
structure IcapRequest where
  method : String
  traceId : Option String
  headers : Assoc String String
  httpHost : Option String
  httpPath : Option String
  httpScheme : Option String

/-- `IdentityContext`. -/
structure IdentityContext where
  userId : Option String
  groupIds : List String
  deriving DecidableEq, Repr

/-- `sanitize_identity`. -/
def sanitizeIdentity (value : String) : Option String :=
  let trimmed := trim value
  if trimmed.isEmpty || trimmed.utf8ByteSize > 128 then none
  else if trimmed.toList.all (fun ch =>
      isAsciiAlphanumeric ch || ch == '@' || ch == '.' || ch == '-' || ch == '_' || ch == ':' ||
        ch == '/') then some trimmed
  else none

/-- The loop over the parts of `X-Group`, which stops at `MAX_GROUPS` entries. -/
def collectGroups (groups : List String) : List String → List String
  | [] => groups
  | part :: parts =>
    if groups.length ≥ 32 then groups
    else
      match sanitizeIdentity part with
      | some clean => collectGroups (groups ++ [clean]) parts
      | none => collectGroups groups parts

/-- `extract_identity`. -/
def extractIdentity (headers : Assoc String String) : IdentityContext :=
  { userId := (headers.get "x-user").bind sanitizeIdentity
    groupIds := match headers.get "x-group" with
      | some value => collectGroups [] (split (fun c => c == ',' || c == ';') value)
      | none => [] }

/-! ### The cache lookup -/

/-- `ancestor_domain_key`. -/
def ancestorDomainKey (normalized : NormalizedTarget) : Option String :=
  if normalized.entityLevel ≠ .subdomain then none
  else if normalized.registeredDomain = normalized.hostname then none
  else some ("domain:" ++ normalized.registeredDomain)

/-- `is_inheritable_ancestor_action`. -/
def isInheritableAncestorAction : PolicyAction → Bool
  | .allow | .monitor | .block => true
  | _ => false

/-- Where a cached answer came from. -/
inductive CacheSource where
  | exact
  | ancestor
  deriving DecidableEq, Repr

variable {γ : Type}

/-- `resolve_cached_decision`. -/
def resolveCachedDecision (cache : CacheClient γ) (now : Nat) (normalized : NormalizedTarget) :
    Option (PolicyDecision × CacheSource) :=
  match cache.get now normalized.normalizedKey with
  | some decision => some (decision, .exact)
  | none =>
    match (ancestorDomainKey normalized).bind (cache.get now) with
    | some decision =>
      if isInheritableAncestorAction decision.action then some (decision, .ancestor) else none
    | none => none

/-! ### After the engine has answered -/

/-- `should_require_content_pending`. -/
def shouldRequireContentPending (requireContent : Bool) (action : PolicyAction)
    (verdict : Option ClassificationVerdict) : Bool :=
  let hasUnknownFallback := verdict.any fun v =>
    eqIgnoreAsciiCase v.primaryCategory "unknown-unclassified"
  requireContent && (verdict.isNone || hasUnknownFallback) &&
    (action == .allow || action == .monitor)

/-- `action_requires_follow_up`. -/
def actionRequiresFollowUp (action : PolicyAction) (missingVerdict : Bool) : Bool :=
  missingVerdict ||
    (action == .review || action == .requireApproval || action == .warn ||
      action == .contentPending)

/-- `dedupe_preserve_order`. -/
def dedupePreserveOrder (seen : List String) : List String → List String
  | [] => []
  | value :: rest =>
    if value ∈ seen then dedupePreserveOrder seen rest
    else value :: dedupePreserveOrder (value :: seen) rest

/-- `fallback_base_url`. -/
def fallbackBaseUrl (hostname : String) : String :=
  "https://" ++ hostname ++ "/"

/-- `build_fetch_candidates`. -/
def buildFetchCandidates (libs : HostLibs) (classificationKey : String)
    (normalized : NormalizedTarget) : List String :=
  match stripPrefix "domain:" classificationKey with
  | some domain =>
    dedupePreserveOrder []
      (["https://" ++ domain ++ "/", "https://www." ++ domain ++ "/"] ++
        (libs.baseUrl normalized.fullUrl).toList)
  | none =>
    dedupePreserveOrder []
      [(libs.baseUrl normalized.fullUrl).getD (fallbackBaseUrl normalized.hostname)]

/-- `entity_level_str_from_key`. -/
def entityLevelStrFromKey (normalizedKey : String) : String :=
  if (stripPrefix "domain:" normalizedKey).isSome then "domain"
  else if (stripPrefix "subdomain:" normalizedKey).isSome then "subdomain"
  else if (stripPrefix "url:" normalizedKey).isSome then "url"
  else "page"

/-- `ClassificationJob`. -/
structure ClassificationJob where
  normalizedKey : String
  entityLevel : String
  hostname : String
  fullUrl : String
  traceId : String
  idempotencyKey : Option String
  requiresContent : Bool
  baseUrl : Option String
  contentExcerpt : Option String
  contentHash : Option String
  contentVersion : Option Int
  contentLanguage : Option String
  deriving DecidableEq, Repr

/-- What a request sends to other services. -/
inductive Effect where
  | clearPending (normalizedKey : String)
  | upsertPending (normalizedKey : String) (baseUrl : Option String)
  | publishPageFetch (job : PageFetchJob)
  | publishClassification (job : ClassificationJob)
  deriving DecidableEq, Repr

/-- The adaptor's configuration as far as a request reads it; the last three say which clients are
configured. -/
structure IcapConfig where
  requireContent : Bool
  pendingCacheTtlSeconds : Nat
  canonicalizationPolicy : CanonicalizationPolicy
  pendingClient : Bool
  pageFetchPublisher : Bool
  jobPublisher : Bool

/-- What the proxy gets back. -/
inductive Answer where
  | options
  | action (action : PolicyAction)
  deriving DecidableEq, Repr

/-- The result of a request: the answer, the cache afterwards, what was sent. -/
structure Outcome (γ : Type) where
  answer : Answer
  cache : CacheClient γ
  effects : List Effect

variable (cfg : IcapConfig) (libs : HostLibs)

/-- `requires_pending`. -/
def requiresPending (decision : PolicyDecision) : Bool :=
  shouldRequireContentPending cfg.requireContent decision.action decision.verdict ||
    decision.action == .contentPending

/-- `response_decision`: what is cached and served. -/
def responseDecision (decision : PolicyDecision) : PolicyDecision :=
  if requiresPending cfg decision then { decision with action := .contentPending, verdict := none }
  else decision

/-- The time to live of the cached response. -/
def responseTtl (decision : PolicyDecision) : Nat :=
  if requiresPending cfg decision then max cfg.pendingCacheTtlSeconds 30 else 300

/-- The jobs and pending-table calls after an engine decision, in the order they are made. -/
def followUps (req : IcapRequest)
    (normalized : NormalizedTarget) (classificationKey : String) (decision : PolicyDecision) :
    List Effect :=
  let pending := requiresPending cfg decision
  let candidates := buildFetchCandidates libs classificationKey normalized
  let baseUrl := (candidates.head?.or (libs.baseUrl normalized.fullUrl)).or
    (some (fallbackBaseUrl normalized.hostname))
  let pendingCalls :=
    if pending then
      (if cfg.pendingClient then [.upsertPending classificationKey baseUrl] else []) ++
        (if cfg.pageFetchPublisher then
          [.publishPageFetch
            { normalizedKey := classificationKey
              url := baseUrl.getD normalized.fullUrl
              hostname := normalized.hostname
              candidateUrls := candidates
              traceId := req.traceId
              idempotencyKey := req.traceId.map fun trace => "page:" ++ classificationKey ++ ":" ++ trace
              ttlSeconds := none }]
        else [])
    else if cfg.pendingClient then [.clearPending classificationKey]
    else []
  let jobs :=
    if cfg.jobPublisher &&
        (pending || actionRequiresFollowUp decision.action decision.verdict.isNone) then
      [.publishClassification
        { normalizedKey := classificationKey
          entityLevel := entityLevelStrFromKey classificationKey
          hostname := normalized.hostname
          fullUrl := normalized.fullUrl
          traceId := req.traceId.getD ""
          idempotencyKey := req.traceId.map fun trace => "cls:" ++ classificationKey ++ ":" ++ trace
          requiresContent := pending
          baseUrl := baseUrl
          contentExcerpt := none
          contentHash := none
          contentVersion := none
          contentLanguage := none }]
    else []
  pendingCalls ++ jobs

/-- The request sent to the policy engine. The source puts the HTTP host into `source_ip`. -/
def decisionRequest (normalized : NormalizedTarget) (httpHost : String)
    (identity : IdentityContext) : PolicyDecisionRequest :=
  { normalizedKey := normalized.normalizedKey
    entityLevel := normalized.entityLevel
    sourceIp := httpHost
    userId := identity.userId
    groupIds := identity.groupIds }

/-- The target and the HTTP host of a request, or the error that ends the connection. -/
def requestTarget (req : IcapRequest) : Except String (NormalizedTarget × String) := do
  let some httpHost := req.httpHost | throw "HTTP host header missing"
  let some httpPath := req.httpPath | throw "HTTP path missing"
  let normalized ← normalizeTarget libs httpHost httpPath req.httpScheme
  return (normalized, httpHost)

/-- A request with a target has a host, and the target is the normalised one. -/
lemma requestTarget_ok {libs : HostLibs} {req : IcapRequest} {target : NormalizedTarget}
    {host : String} (h : requestTarget libs req = .ok (target, host)) :
    req.httpHost = some host ∧ ∃ path, normalizeTarget libs host path req.httpScheme = .ok target := by
  unfold requestTarget at h
  cases hhost : req.httpHost with
  | none => simp [hhost] at h
  | some httpHost =>
    cases hpath : req.httpPath with
    | none => simp [hhost, hpath] at h
    | some httpPath =>
      simp only [hhost, hpath] at h
      obtain ⟨normalized, hnormalized, h⟩ := bind_ok.1 h
      cases h
      exact ⟨rfl, httpPath, hnormalized⟩

/-- `handle_connection`. -/
def handleConnection (evaluate : PolicyDecisionRequest → Except String (PolicyDecision × γ)) (now : Nat)
    (cache : CacheClient γ) (req : IcapRequest) : Except String (Outcome γ) :=
  if eqIgnoreAsciiCase req.method "OPTIONS" then
    .ok { answer := .options, cache, effects := [] }
  else do
    let (normalized, httpHost) ← requestTarget libs req
    let classificationKey := (canonicalClassificationKeyWithPolicy libs normalized.normalizedKey
        cfg.canonicalizationPolicy (req.headers.get "x-authenticated-tenant")).getD
        normalized.normalizedKey
    match resolveCachedDecision cache now normalized with
    | some (decision, _) =>
      return { answer := .action decision.action
               cache
               effects :=
                 if decision.action ≠ .contentPending && cfg.pendingClient then
                   [.clearPending classificationKey]
                 else [] }
    | none =>
      let (decision, origin) ←
        evaluate (decisionRequest normalized httpHost (extractIdentity req.headers))
      return { answer := .action (responseDecision cfg decision).action
               cache := cache.set now normalized.normalizedKey (responseDecision cfg decision)
                 (responseTtl cfg decision) origin
               effects := followUps cfg libs req normalized classificationKey decision }

/-! ### What a request can do -/

section Cases

variable (cfg : IcapConfig) {libs : HostLibs}
  (evaluate : PolicyDecisionRequest → Except String (PolicyDecision × γ)) {now : Nat}
  {cache : CacheClient γ} {req : IcapRequest} {normalized : NormalizedTarget} {httpHost : String}

/-- A cached answer is served and the cache stays as it is. -/
lemma handleConnection_hit (hmethod : eqIgnoreAsciiCase req.method "OPTIONS" = false)
    (htarget : requestTarget libs req = .ok (normalized, httpHost))
    (hcached : resolveCachedDecision cache now normalized =
      some (decision, source)) :
    ∃ effects, handleConnection cfg libs evaluate now cache req =
      .ok { answer := .action decision.action, cache, effects } := by
  simp only [handleConnection, hmethod, htarget, Bool.false_eq_true, if_false, bind, Except.bind,
    hcached]
  exact ⟨_, rfl⟩

/-- Without a cached answer the engine is asked; its decision, after the content-pending gate, is
served and cached. -/
lemma handleConnection_miss (hmethod : eqIgnoreAsciiCase req.method "OPTIONS" = false)
    (htarget : requestTarget libs req = .ok (normalized, httpHost))
    (hcached : resolveCachedDecision cache now normalized = none)
    (hengine : evaluate (decisionRequest normalized httpHost
      (extractIdentity req.headers)) = .ok (decision, origin)) :
    ∃ effects, handleConnection cfg libs evaluate now cache req =
      .ok { answer := .action (responseDecision cfg decision).action
            cache := cache.set now normalized.normalizedKey (responseDecision cfg decision)
              (responseTtl cfg decision) origin
            effects } := by
  simp only [handleConnection, hmethod, htarget, Bool.false_eq_true, if_false, bind, Except.bind,
    hcached, hengine]
  exact ⟨_, rfl⟩

variable {cfg evaluate} in
/-- The cache changes only by the decision of an engine that was asked, under the key of the
request. -/
lemma handleConnection_cache (h : handleConnection cfg libs evaluate now cache req = .ok outcome) :
    outcome.cache = cache ∨ ∃ normalized httpHost decision origin,
        requestTarget libs req = .ok (normalized, httpHost) ∧
        resolveCachedDecision cache now normalized = none ∧
        evaluate (decisionRequest normalized httpHost (extractIdentity req.headers)) =
          .ok (decision, origin) ∧
        outcome.cache = cache.set now normalized.normalizedKey (responseDecision cfg decision)
          (responseTtl cfg decision) origin := by
  unfold handleConnection at h
  split at h
  · cases h
    exact Or.inl rfl
  · obtain ⟨⟨normalized, httpHost⟩, htarget, h⟩ := bind_ok.1 h
    cases hcached : resolveCachedDecision cache now normalized with
    | some found =>
      simp only [hcached] at h
      cases h
      exact Or.inl rfl
    | none =>
      simp only [hcached] at h
      obtain ⟨⟨decision, origin⟩, hengine, h⟩ := bind_ok.1 h
      cases h
      exact Or.inr ⟨normalized, httpHost, decision, origin, htarget, hcached, hengine, rfl⟩

end Cases

/-- With the content gate off the engine's action is what is served. -/
lemma responseDecision_action {cfg : IcapConfig} (hgate : cfg.requireContent = false)
    (decision : PolicyDecision) : (responseDecision cfg decision).action = decision.action := by
  unfold responseDecision
  split
  · rename_i hpending
    simp only [requiresPending, shouldRequireContentPending, hgate, Bool.false_and, Bool.false_or,
      beq_iff_eq] at hpending
    exact hpending.symm
  · rfl

end OpenDefender.Adaptor
