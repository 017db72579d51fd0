import OpenDefender.Admin.Cache
import OpenDefender.Admin.Overrides
import OpenDefender.System.Serving

/-!
How fresh the cached decisions are: what the models of the propagation of changes share.

The origin of a cached decision is a number that says how new the data was it was computed from.
A request can only add entries of the engine's current origin under a host key it misses
(`fill_of_request`), so an invalidation that covers the older entries goes on covering them if that
origin is new enough or the invalidation has still to clear the two cells (`covers_fill`).
-/

namespace OpenDefender.System

open Lib Coherence Adaptor Engine List

/-- The configuration of the adaptors. -/
structure AdaptorSetup where
  icap : IcapConfig
  libs : HostLibs

/-- An answer of the engine that is still to be written to the caches. -/
structure Flight (n : ℕ) where
  adaptor : Fin n
  key : String
  decision : PolicyDecision
  origin : ℕ

variable {n : ℕ}

/-- Every cached key is a host key. -/
def HostKeys {γ : Type} (fleet : Fleet n γ) : Prop :=
  ∀ p key entry, fleet.get p key = some entry → IsHostKey key

lemma hostKeys_empty {γ : Type} : HostKeys (.empty : Fleet n γ) := by
  intro p key entry h
  cases p <;> cases h

lemma HostKeys.of_shrinks {γ : Type} {fleet fleet' : Fleet n γ} (h : HostKeys fleet)
    (hs : fleet.Shrinks fleet') : HostKeys fleet' :=
  fun p key entry hv => h p key entry (hs.get p key entry hv)

variable {key : String}

lemma HostKeys.fill {γ : Type} {fleet : Fleet n γ} (h : HostKeys fleet) (hkey : IsHostKey key)
    (entry entry' : CacheEntry γ) : HostKeys (fleet.fill a key entry entry') := by
  intro p key' e hv
  rcases Cluster.get_fill hv with ⟨_, rfl, _⟩ | ⟨_, rfl, _⟩ | hold
  · exact hkey
  · exact hkey
  · exact h p key' e hold

/-- A decision of an origin below the given one. -/
def ComputedBefore (stamp : ℕ) (_ : Option (Fin n)) (_ : String) (entry : CacheEntry ℕ) : Prop :=
  entry.origin < stamp

/-- The invalidation has still to clear the two cells a fill of the key at adaptor `a` writes. -/
def OwesFill (fleet : Fleet n ℕ) (job : Invalidation n) (a : Fin n) (key : String) : Prop :=
  job.Owes (dialect ℕ) fleet none key ∧ job.Owes (dialect ℕ) fleet (some a) key

instance (fleet : Fleet n ℕ) (job : Invalidation n) (a : Fin n) (key : String) :
    Decidable (OwesFill fleet job a key) :=
  inferInstanceAs (Decidable (_ ∧ _))

variable {fleet : Fleet n ℕ}

/-- **What a request adds.** -/
lemma fill_of_request (h : fleet.handleRequest a cfg libs (askEngine engine now origin) now req =
      .ok (answer, fleet')) :
    fleet' = fleet ∨
      ∃ key entry entry',
        fleet.missedKey a libs now req = some key ∧ IsHostKey key ∧
        entry.origin = origin ∧ entry'.origin = origin ∧ fleet' = fleet.fill a key entry entry' := by
  rcases Fleet.handleRequest_ok h with rfl | ⟨key, r, decision, origin', hkey, hhost, hr, rfl⟩
  · exact Or.inl rfl
  · obtain rfl := askEngine_origin hr
    exact Or.inr ⟨key, _, _, hkey, hhost, rfl, rfl, rfl⟩

/-- The answer to a miss has the engine's current origin. -/
lemma evaluateMiss_origin (h : fleet.evaluateMiss a libs (askEngine engine now stamp) now req =
      some (key, decision, origin)) : origin = stamp := by
  obtain ⟨_, hengine⟩ := Fleet.evaluateMiss_evaluate h
  exact askEngine_origin hengine

/-- A fill of an origin that is new enough, or into cells still owed, keeps the older entries
covered. -/
lemma covers_fill (h : job.Covers (dialect ℕ) (ComputedBefore stamp) fleet)
    (horigin : entry'.origin = entry.origin) (hok : stamp ≤ entry.origin ∨ OwesFill fleet job a key) :
    job.Covers (dialect ℕ) (ComputedBefore stamp) (fleet.fill a key entry entry') := by
  rcases hok with hnew | ⟨hredis, hmemory⟩
  · have hnew' : stamp ≤ entry'.origin := horigin ▸ hnew
    exact h.fill (Or.inl (Nat.not_lt.2 hnew)) (Or.inl (Nat.not_lt.2 hnew'))
  · exact h.fill (Or.inr hmemory) (Or.inr hredis)

/-- A policy invalidation that has not begun covers every entry under a host key. -/
lemma covers_invalidatePolicy (h : HostKeys fleet) (stamp : ℕ) :
    (Job.ofCommands Admin.invalidatePolicy).Covers (dialect ℕ) (ComputedBefore stamp) fleet :=
  fun p key entry hv _ => (Admin.targets_invalidatePolicy p (h p key entry hv)).owes
    Admin.plain_invalidatePolicy

/-! ### Scopes -/

/-- The engine considers an override of one of the scopes for the key. -/
def Governed (scopes : List Admin.Scope) (key : String) : Prop :=
  ∃ scope ∈ scopes, scope.1 = "domain" ∧ scopeGovernsKey scope.2 key = true

instance (scopes : List Admin.Scope) (key : String) : Decidable (Governed scopes key) :=
  inferInstanceAs (Decidable (∃ _ ∈ _, _))

lemma governed_append {scopes scopes' : List Admin.Scope} :
    Governed (scopes ++ scopes') key ↔ Governed scopes key ∨ Governed scopes' key := by
  simp only [Governed, mem_append, or_and_right, exists_or]

/-- The keys some cache holds. -/
def heldKeys {γ : Type} (fleet : Fleet n γ) : List String :=
  fleet.server.data.keys ++ (List.finRange n).flatMap fun a => (fleet.memories a).keys

lemma mem_heldKeys {γ : Type} {fleet : Fleet n γ} {entry : CacheEntry γ}
    (h : fleet.get p key = some entry) : key ∈ heldKeys fleet := by
  cases p with
  | none => exact mem_append_left _ (Assoc.mem_keys_of_get h)
  | some a =>
    refine mem_append_right _ (mem_flatMap.2 ⟨a, mem_finRange a, ?_⟩)
    exact Assoc.mem_keys_of_get h

/-- Every cached key that is governed by one of the scopes is cleared by the invalidation of the
others. -/
def GovernedAreCleared {γ : Type} (fleet : Fleet n γ) (scopes cleared : List Admin.Scope) : Prop :=
  ∀ key ∈ heldKeys fleet, Governed scopes key → Admin.Cleared cleared key

instance {γ : Type} (fleet : Fleet n γ) (scopes cleared : List Admin.Scope) :
    Decidable (GovernedAreCleared fleet scopes cleared) :=
  inferInstanceAs (Decidable (∀ _ ∈ _, _))

/-- The invalidation of scopes that has not begun covers the governed entries. -/
lemma covers_invalidateScopes {γ : Type} {fleet : Fleet n γ} (hkeys : HostKeys fleet)
    (h : GovernedAreCleared fleet scopes cleared)
    {Stale : Option (Fin n) → String → CacheEntry γ → Prop}
    (hstale : ∀ p key entry, Stale p key entry → Governed scopes key) :
    (Job.ofCommands (Admin.invalidateScopes cleared)).Covers (dialect γ) Stale fleet := by
  intro p key entry hv hs
  have hcleared := h key (mem_heldKeys hv) (hstale p key entry hs)
  exact (Admin.targets_invalidateScopes (hkeys p key entry hv) hcleared p).owes
    (Admin.plain_invalidateScopes cleared)

/-! ### A host to look at in runs -/

/-- The adaptors of the runs. -/
def sampleAdaptors : AdaptorSetup :=
  { icap := sampleConfig, libs := sampleLibs }

/-- There is one of them, the first. -/
instance oneAdaptor : NeZero (1 : ℕ) := ⟨one_ne_zero⟩

/-- The decision a cell holds for `example.com`, with its origin. -/
def heldFor (fleet : Fleet 1 ℕ) (p : Option (Fin 1)) : Option (PolicyAction × ℕ) :=
  (fleet.get p "domain:example.com").map fun entry => (entry.decision.action, entry.origin)

/-- The action the engine gives a request for `example.com`. -/
def engineAnswer (engine : AppState) : PolicyAction :=
  engine.engineAction 5 (engineRequest (decisionRequest
    (targetOfHost sampleLibs "example.com" "http://example.com/") "example.com"
    { userId := some "alice", groupIds := [] }))

end OpenDefender.System
