import OpenDefender.System.PendingKeys

/-!
The keys of page-fetch jobs.

The event ingester asks for the page of a URL (`build_page_fetch_job` of
`services/event-ingester/src/main.rs`), and so does the adaptor when a request for it is pending. The job of
the ingester has the key of the host, the job of the adaptor the canonical one. `fetch_key_eq_iff` says for
which hosts they are the same.
-/

namespace OpenDefender.System.FetchKeys

open Lib Text Lib.Outcome Adaptor List

/-! ### Jobs of the ingester -/

/-- An event: the text that `pointer_str` gives for a pointer, and the number at `/od/page_fetch_ttl_seconds`. -/
structure Event where
  pointerStr : String → Option String
  pageFetchTtlSeconds : Option ℤ

/-- `url::Url`. -/
structure Url where
  scheme : String
  host : Option String
  path : String
  query : Option String
  text : String

/-- `URL_POINTERS`. -/
def urlPointers : List String :=
  ["/url/full", "/url/original", "/url/next", "/http/request/url", "/http/request/target", "/http/request/referrer",
    "/od/url", "/destination/url"]

/-- `extract_candidate_url`. -/
def extractCandidateUrl (event : Event) : Option String :=
  (urlPointers.findSome? event.pointerStr).or <|
    (((event.pointerStr "/destination/domain").or (event.pointerStr "/server/domain")).or
      (event.pointerStr "/od/hostname")).map fun host =>
        let path := (event.pointerStr "/url/path").getD "/"
        (event.pointerStr "/url/scheme").getD "http" ++ "://" ++ host ++
          (if (stripPrefix "/" path).isSome then path else "/" ++ path)

/-- `trim_start_matches("//")`. -/
def trimSlashes : List Char → List Char
  | '/' :: '/' :: rest => trimSlashes rest
  | l => l

/-- `ensure_scheme`. -/
def ensureScheme (url : String) : String :=
  if contains url "://" then url else "http://" ++ String.ofList (trimSlashes url.toList)

variable (parse : String → Option Url) (libs : HostLibs) (event : Event)

/-- The URL of an event. -/
def eventUrl : Option Url := (extractCandidateUrl event).bind (parse ∘ ensureScheme)

/-- `build_page_fetch_job`. -/
def buildPageFetchJob : Option PageFetchJob := do
  let parsed ← eventUrl parse event
  let host ← parsed.host
  let path := (if parsed.path.isEmpty then "/" else parsed.path) ++ ((parsed.query.map ("?" ++ ·)).getD "")
  let normalized ← (normalizeTarget libs host path (some parsed.scheme)).toOption
  let traceId := (event.pointerStr "/od/trace_id").or (event.pointerStr "/trace_id")
  return { normalizedKey := normalized.normalizedKey
           url := parsed.text
           hostname := normalized.hostname
           candidateUrls := []
           traceId
           idempotencyKey := traceId.map fun trace => "page:" ++ normalized.normalizedKey ++ ":" ++ trace
           ttlSeconds := event.pageFetchTtlSeconds.map (Int.bmod · (2 ^ 32)) }

/-! ### The two keys -/

variable {parse libs event} {job : PageFetchJob}

lemma buildPageFetchJob_target (h : buildPageFetchJob parse libs event = some job) :
    ∃ url host path scheme target, eventUrl parse event = some url ∧ url.host = some host ∧
      normalizeTarget libs host path scheme = .ok target ∧ job.normalizedKey = target.normalizedKey := by
  simp only [buildPageFetchJob, Option.bind_eq_bind, Option.bind_eq_some_iff] at h
  obtain ⟨url, hurl, host, hhost, target, htarget, hjob⟩ := h
  cases hjob
  exact ⟨url, host, _, _, target, hurl, hhost, toOption_eq_some.1 htarget, rfl⟩

/-- A request that has effects has a target. -/
lemma requestTarget_of_effect {γ : Type} {cfg : IcapConfig}
    {evaluate : PolicyDecisionRequest → Except String (PolicyDecision × γ)} {now : ℕ} {cache : CacheClient γ}
    {req : IcapRequest} {outcome : Outcome γ} {effect : Effect}
    (hrun : handleConnection cfg libs evaluate now cache req = .ok outcome) (h : effect ∈ outcome.effects) :
    ∃ target httpHost, requestTarget libs req = .ok (target, httpHost) := by
  unfold handleConnection at hrun
  split at hrun
  · cases hrun
    cases h
  · obtain ⟨⟨target, httpHost⟩, htarget, -⟩ := bind_ok.1 hrun
    exact ⟨target, httpHost, htarget⟩

/-- **The jobs for one URL.** The host of the URL has the ASCII form `name`, which is more than dots and blanks, and there is
no exception for it. The ingester and the adaptor ask for its page with one key exactly when this is a registered domain
without dots at its end. -/
theorem fetch_key_eq_iff {γ : Type} (hroot : libs.LawfulRoot) {cfg : IcapConfig}
    {evaluate : PolicyDecisionRequest → Except String (PolicyDecision × γ)} {now : ℕ} {cache : CacheClient γ}
    {req : IcapRequest} {outcome : Outcome γ} {published : PageFetchJob} {url : Url} {host name : String}
    (hjob : buildPageFetchJob parse libs event = some job) (hurl : eventUrl parse event = some url)
    (hhost : url.host = some host) (hname : libs.domainToAscii (trim (sanitizeHost host)) = .ok name)
    (hdomain : (cleanHost (toAsciiLowercase name)).isSome)
    (hexception : ∀ clean ∈ cleanHost (toAsciiLowercase name), cfg.canonicalizationPolicy.keepsSubdomainGranularity libs
      (req.headers.get "x-authenticated-tenant") clean = false)
    (hrequest : req.httpHost = some host) (hrun : handleConnection cfg libs evaluate now cache req = .ok outcome)
    (hpublished : .publishPageFetch published ∈ outcome.effects) :
    job.normalizedKey = published.normalizedKey ↔ cleanHost (toAsciiLowercase name) = some (toAsciiLowercase name) ∧
      deriveRegisteredDomain libs (toAsciiLowercase name) = toAsciiLowercase name := by
  obtain ⟨_, _, path, scheme, target, hurl', hhost', htarget, hkey⟩ := buildPageFetchJob_target hjob
  cases hurl.symm.trans hurl'
  cases hhost.symm.trans hhost'
  obtain ⟨ascii, fullUrl, hascii, rfl⟩ := normalizeTarget_ascii htarget
  cases hname.symm.trans hascii
  obtain ⟨target, httpHost, hreq⟩ := requestTarget_of_effect hrun hpublished
  obtain ⟨hhttp, path', hnormalized⟩ := requestTarget_ok hreq
  cases hrequest.symm.trans hhttp
  obtain ⟨ascii, fullUrl', hascii', rfl⟩ := normalizeTarget_ascii hnormalized
  cases hname.symm.trans hascii'
  have hpublishedKey := (key_of_mem_effects hrun hreq hpublished).resolve_left nofun
  rw [hkey, Option.some.inj hpublishedKey, classificationKey, normalizedKey_targetOfHost, normalizedKey_targetOfHost]
  have hlower := toAsciiLowercase_idem name
  revert hdomain hexception
  generalize toAsciiLowercase name = hostname at hlower
  intro hdomain hexception
  by_cases hlevel : hostname = deriveRegisteredDomain libs hostname
  · rw [if_pos hlevel, eq_comm, canonical_again_iff hroot hlower]
    constructor
    · rintro (hnone | ⟨hclean, -⟩)
      · simp [hnone] at hdomain
      · exact ⟨hclean, hlevel.symm⟩
    · exact fun h => Or.inr ⟨h.1, Or.inr h.2⟩
  · obtain ⟨clean, hclean⟩ := Option.isSome_iff_exists.1 hdomain
    refine iff_of_false (fun heq => ?_) fun h => hlevel h.2.symm
    rw [if_neg hlevel, canonicalClassificationKeyWithPolicy, hostOfKey_subdomain, hclean, Option.map_some, Option.getD_some,
      hexception clean hclean] at heq
    exact domain_ne_subdomain _ _ heq.symm

/-- An event with a URL of this host. -/
def visitOf (host : String) : Event where
  pointerStr := fun pointer => if pointer = "/url/full" then some ("http://" ++ host ++ "/") else none
  pageFetchTtlSeconds := none

/-- The URLs of such events. -/
def parseVisit (host text : String) : Option Url :=
  some { scheme := "http", host := some host, path := "/", query := none, text }

/-- A request for this host that the engine has no verdict for, at an adaptor without exceptions. -/
def pendingOutcome (host : String) : Except String (Outcome Unit) :=
  handleConnection { exceptionConfig "acme" with canonicalizationPolicy := ⟨Assoc.empty⟩, jobPublisher := false } sampleLibs
    (fun _ => .ok ({ action := .allow, cacheHit := false, verdict := none, decisionSource := none }, ())) 0
    (CacheClient.empty false) { tenantRequest with httpHost := some host }

/-- The page of a subdomain is asked for with two keys. -/
theorem subdomain_fetched_twice :
    (buildPageFetchJob (parseVisit "www.example.com") sampleLibs (visitOf "www.example.com")).map (·.normalizedKey) =
        some "subdomain:www.example.com" ∧
      (pendingOutcome "www.example.com").toOption.map (fun outcome => outcome.effects.filterMap jobKey) =
        some ["domain:example.com"] := by
  decide +kernel

/-- The job of the adaptor for `example.com`. -/
def examplePage : PageFetchJob where
  normalizedKey := "domain:example.com"
  url := "https://example.com/"
  hostname := "example.com"
  candidateUrls := ["https://example.com/", "https://www.example.com/", "http://example.com/"]
  traceId := none
  idempotencyKey := none
  ttlSeconds := none

/-- The page of a registered domain is asked for with one. -/
theorem domain_fetched_once :
    ∃ job, buildPageFetchJob (parseVisit "example.com") sampleLibs (visitOf "example.com") = some job ∧
      job.normalizedKey = examplePage.normalizedKey := by
  obtain ⟨job, hjob⟩ := Option.isSome_iff_exists.1
    (by decide +kernel : (buildPageFetchJob (parseVisit "example.com") sampleLibs (visitOf "example.com")).isSome = true)
  obtain ⟨outcome, houtcome, hpublished⟩ := (Option.any_eq_true _ _).1 (by decide +kernel :
    (pendingOutcome "example.com").toOption.any (fun outcome => .publishPageFetch examplePage ∈ outcome.effects) = true)
  refine ⟨job, hjob, (fetch_key_eq_iff lawfulRoot_sampleLibs hjob rfl rfl rfl (by decide +kernel) ?_ rfl
    (toOption_eq_some.1 houtcome) (of_decide_eq_true hpublished)).2 (by decide +kernel)⟩
  exact fun _ _ => rfl

end OpenDefender.System.FetchKeys
