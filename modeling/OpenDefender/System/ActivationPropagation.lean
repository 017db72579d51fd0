import OpenDefender.Lib.Pool
import OpenDefender.System.Freshness

/-!
A change of the taxonomy activation on its way to the engine and the caches, while the adaptors serve
requests and the engine refreshes its profile in the background.

`update_taxonomy_activation` persists the profile, asks the engine to reload and only then
invalidates the caches. Calls are made one after another; any number of loads of the profile may be
under way besides. A load reads the profile row and then its entries, each at a moment of its own, and
replaces the profile in memory only by one with a later time.

A cached decision has as its origin the time of the stored profile when the entries it was computed from were
read. `at_least_as_new_after_return`: after a call has returned no cached decision is older than what it
persisted.
-/

namespace OpenDefender.System.ActivationPropagation

open Lib Run Pool Coherence Adaptor Engine Admin List

/-- A load of the profile: the row is read, then the entries. `since` is the time of the stored
profile when the entries were read. -/
inductive Load where
  | rowRead (row : ActivationRow)
  | complete (profile : ActivationProfile) (since : ℕ)

/-- How far a call has got that has persisted the profile at a time. -/
inductive Stage (n : ℕ) where
  | persisted
  | loading (load : Load)
  | invalidating (job : Invalidation n)

/-- The stored profile with its entries, the engine with the `since` of its profile, the loads under
way, the call in progress with the time it persisted, the caches, and the times persisted by the
calls that have returned. -/
structure State (n : ℕ) where
  row : ActivationRow
  entries : List ActivationEntry
  engine : AppState
  profileFrom : ℕ
  loads : List Load
  call : Option (ℕ × Stage n)
  fleet : Fleet n ℕ
  returned : List ℕ

/-- The steps: those of the call, those of other loads and of `synchronize_profile`, those of the
adaptors, Redis dropping expired keys, and new rules or tables in the engine. -/
inductive Event (n : ℕ) where
  | persist (now : ℕ) (version : String) (entries : List ActivationEntry)
  | callRow
  | callEntries
  | callReplace
  | invalidate (e : JobEvent n String CacheInvalidationEvent)
  | callReturn
  | callFail
  | loadRow
  | loadEntries (i : ℕ)
  | loadReplace (i : ℕ)
  | synchronize (version : String) (added : List ActivationEntry)
  | request (a : Fin n) (now : ℕ) (req : IcapRequest)
  | expire (keys : List String)
  | engine (store : PolicyStore) (pool : Option ClassificationTables)

variable {n : ℕ}

/-- The second query of a load: the entries of the profile whose row was read. -/
def State.readEntries (s : State n) (row : ActivationRow) : Load :=
  .complete (.ofRows row (s.entries.filter fun entry => entry.profileId = row.id)) s.row.updatedAt

/-- `replace_if_new` in the engine. -/
def State.replaceProfile (s : State n) (profile : ActivationProfile) (since : ℕ) : State n :=
  if profile.replaces s.engine.evaluator.activation then
    { s with
      engine := { s.engine with evaluator := { s.engine.evaluator with activation := profile } }
      profileFrom := since }
  else s

/-- One step of the system. -/
def next (cfg : AdaptorSetup) (s : State n) : Event n → Option (State n)
  | .persist now version entries =>
    -- calls are made one after another, and the database clock moves between them
    if s.call.isNone ∧ s.row.updatedAt < now then
      some { s with
        row := { s.row with version, updatedAt := now }
        entries := s.entries.filter (fun entry => entry.profileId ≠ s.row.id) ++ entries
        call := some (now, .persisted) }
    else none
  | .callRow =>
    match s.call with
    | some (time, .persisted) => some { s with call := some (time, .loading (.rowRead s.row)) }
    | _ => none
  | .callEntries =>
    match s.call with
    | some (time, .loading (.rowRead row)) =>
      some { s with call := some (time, .loading (s.readEntries row)) }
    | _ => none
  | .callReplace =>
    match s.call with
    | some (time, .loading (.complete profile since)) =>
      some { s.replaceProfile profile since with
        call := some (time, .invalidating (.ofCommands invalidatePolicy)) }
    | _ => none
  | .invalidate e =>
    match s.call with
    | some (time, .invalidating job) => do
      let (fleet, job) ← Job.step (dialect ℕ) (s.fleet, job) e
      return { s with fleet, call := some (time, .invalidating job) }
    | _ => none
  | .callReturn =>
    match s.call with
    | some (time, .invalidating job) =>
      if job.Done then some { s with call := none, returned := time :: s.returned } else none
    | _ => none
  | .callFail => some { s with call := none }
  | .loadRow => some { s with loads := s.loads ++ [.rowRead s.row] }
  | .loadEntries i =>
    match s.loads[i]? with
    | some (.rowRead row) => some { s with loads := s.loads.set i (s.readEntries row) }
    | _ => none
  | .loadReplace i =>
    match s.loads[i]? with
    | some (.complete profile since) =>
      some { s.replaceProfile profile since with loads := s.loads.eraseIdx i }
    | _ => none
  | .synchronize version added =>
    some { s with row := { s.row with version }, entries := s.entries ++ added }
  | .request a now req =>
    match s.fleet.handleRequest a cfg.icap cfg.libs (askEngine s.engine now s.profileFrom) now
        req with
    | .error _ => none
    | .ok (_, fleet) => some { s with fleet }
  | .expire keys => some { s with fleet := s.fleet.remove keys }
  | .engine store pool =>
    some { s with engine :=
      { s.engine with
        evaluator := { s.engine.evaluator with store }
        classificationPool := pool } }

/-! ### The invariant -/

/-- The time of the profile row a load has read. -/
def Load.time : Load → ℕ
  | .rowRead row => row.updatedAt
  | .complete profile _ => profile.updatedAt

/-- A load has read the stored profile, and its entries no earlier than its row. -/
def LoadOk (s : State n) : Load → Prop
  | .rowRead row => row.id = s.row.id ∧ row.updatedAt ≤ s.row.updatedAt
  | .complete profile since => profile.id = s.row.id ∧ profile.updatedAt ≤ since

/-- The profile in force is the stored one as of the given time or later. -/
def InForce (s : State n) (time : ℕ) : Prop :=
  s.engine.evaluator.activation.id = s.row.id ∧ time ≤ s.engine.evaluator.activation.updatedAt

/-- What holds of the call in progress. -/
def CallOk (s : State n) (time : ℕ) : Stage n → Prop
  | .persisted => time ≤ s.row.updatedAt
  | .loading load => LoadOk s load ∧ time ≤ load.time
  | .invalidating job =>
    InForce s time ∧ job.Covers (dialect ℕ) (ComputedBefore time) s.fleet

/-- The invariant: the label of the profile in force is no later than its entries were read, and
what a returned call has persisted is in force and in every cached decision. -/
structure Inv (s : State n) : Prop where
  keys : HostKeys s.fleet
  loads : ∀ load ∈ s.loads, LoadOk s load
  engine : s.engine.evaluator.activation.id = s.row.id →
    s.engine.evaluator.activation.updatedAt ≤ s.profileFrom
  call : ∀ time stage, s.call = some (time, stage) → CallOk s time stage
  returned : ∀ time ∈ s.returned, InForce s time ∧
    ∀ p key entry, s.fleet.get p key = some entry → time ≤ entry.origin

variable {s : State n}

/-- What has been persisted and is in force is in every new decision. -/
lemma Inv.le_profileFrom (h : Inv s) (hforce : InForce s time) : time ≤ s.profileFrom :=
  hforce.2.trans (h.engine hforce.1)

variable {s' : State n}

lemma LoadOk.mono (h : LoadOk s load) (hid : s'.row.id = s.row.id)
    (htime : s.row.updatedAt ≤ s'.row.updatedAt) : LoadOk s' load := by
  cases load with
  | rowRead row => exact ⟨h.1.trans hid.symm, h.2.trans htime⟩
  | complete profile since => exact ⟨h.1.trans hid.symm, h.2⟩

/-- The second query of a load keeps the row it has read. -/
lemma loadOk_readEntries (h : LoadOk s (.rowRead row)) :
    LoadOk s (s.readEntries row) ∧ (s.readEntries row).time = row.updatedAt := by
  obtain ⟨hid, htime⟩ := ActivationProfile.ofRows_id_updatedAt row
    (s.entries.filter fun entry => entry.profileId = row.id)
  exact ⟨⟨hid.trans h.1, htime.trans_le h.2⟩, htime⟩

section Replace

variable {s : State n} {profile : ActivationProfile} {since : ℕ}

/-- After `replace_if_new` the profile that was loaded is in force, or a newer one. -/
lemma inForce_replaceProfile (hload : LoadOk s (.complete profile since)) :
    InForce (s.replaceProfile profile since) profile.updatedAt := by
  unfold State.replaceProfile
  split
  · exact ⟨hload.1, le_rfl⟩
  · rename_i hnot
    simp only [ActivationProfile.replaces, not_or, not_lt, not_not] at hnot
    exact ⟨hnot.2.symm.trans hload.1, hnot.1⟩

/-- What was in force stays in force: only a later profile replaces one of the same id. -/
lemma InForce.replaceProfile (h : InForce s time) (hload : LoadOk s (.complete profile since)) :
    InForce (s.replaceProfile profile since) time := by
  unfold State.replaceProfile
  split
  · rename_i hreplaces
    have hlater : s.engine.evaluator.activation.updatedAt < profile.updatedAt :=
      hreplaces.resolve_right (not_not_intro (hload.1.trans h.1.symm))
    exact ⟨hload.1, h.2.trans hlater.le⟩
  · exact h

/-- `replace_if_new` changes nothing else. -/
lemma replaceProfile_frame (s : State n) (profile : ActivationProfile) (since : ℕ) :
    (s.replaceProfile profile since).row = s.row ∧
      (s.replaceProfile profile since).loads = s.loads ∧
      (s.replaceProfile profile since).call = s.call ∧
      (s.replaceProfile profile since).fleet = s.fleet ∧
      (s.replaceProfile profile since).returned = s.returned := by
  unfold State.replaceProfile
  split <;> exact ⟨rfl, rfl, rfl, rfl, rfl⟩

/-- A load that ends keeps the invariant. -/
lemma Inv.replaceProfile (h : Inv s) (hload : LoadOk s (.complete profile since)) :
    Inv (s.replaceProfile profile since) := by
  obtain ⟨hrow, hloads, hcall, hfleet, hreturned⟩ := replaceProfile_frame s profile since
  constructor
  · rw [hfleet]
    exact h.keys
  · intro load hmem
    rw [hloads] at hmem
    exact (h.loads load hmem).mono (by rw [hrow]) (by rw [hrow])
  · intro hid
    unfold State.replaceProfile at hid ⊢
    split at hid
    · rename_i hreplaces
      rw [if_pos hreplaces]
      exact hload.2
    · rename_i hnot
      rw [if_neg hnot]
      exact h.engine hid
  · intro time stage hstage
    rw [hcall] at hstage
    have hok := h.call time stage hstage
    cases stage with
    | persisted =>
      unfold CallOk
      rw [hrow]
      exact hok
    | loading load => exact ⟨hok.1.mono (by rw [hrow]) (by rw [hrow]), hok.2⟩
    | invalidating job =>
      refine ⟨hok.1.replaceProfile hload, ?_⟩
      rw [hfleet]
      exact hok.2
  · intro time hmem
    rw [hreturned] at hmem
    obtain ⟨hforce, hentries⟩ := h.returned time hmem
    refine ⟨hforce.replaceProfile hload, ?_⟩
    rw [hfleet]
    exact hentries

end Replace

/-! ### Each step keeps the invariant -/

/-- The call in progress stays as it is while the stored profile gets later and entries go. -/
lemma CallOk.mono (h : CallOk s time stage) (hid : s'.row.id = s.row.id)
    (htime : s.row.updatedAt ≤ s'.row.updatedAt)
    (hengine : s'.engine.evaluator.activation = s.engine.evaluator.activation)
    (hfleet : s.fleet.Shrinks s'.fleet) : CallOk s' time stage := by
  cases stage with
  | persisted => exact h.trans htime
  | loading load => exact ⟨h.1.mono hid htime, h.2⟩
  | invalidating job =>
    refine ⟨?_, h.2.of_shrinks hfleet⟩
    rw [InForce, hengine, hid]
    exact h.1

/-- A step that changes neither the profile in force nor the calls that have returned, and adds no
entry. -/
lemma Inv.mono (h : Inv s) (hid : s'.row.id = s.row.id)
    (hengine : s'.engine.evaluator.activation = s.engine.evaluator.activation)
    (hsince : s'.profileFrom = s.profileFrom) (hfleet : s.fleet.Shrinks s'.fleet)
    (hreturned : s'.returned = s.returned) (hloads : ∀ load ∈ s'.loads, LoadOk s' load)
    (hcall : ∀ time stage, s'.call = some (time, stage) → CallOk s' time stage) : Inv s' := by
  refine ⟨h.keys.of_shrinks hfleet, hloads, ?_, hcall, fun time hmem => ?_⟩
  · rw [hengine, hid, hsince]
    exact h.engine
  · rw [hreturned] at hmem
    obtain ⟨hforce, hentries⟩ := h.returned time hmem
    refine ⟨?_, fun p key entry hv => hentries p key entry (hfleet.get p key entry hv)⟩
    rw [InForce, hengine, hid]
    exact hforce

variable {cfg : AdaptorSetup}

/-- A miss adds decisions of the profile in force, which is new enough for every call. -/
lemma inv_request (h : Inv s) (hs : next cfg s (.request a now req) = some s') : Inv s' := by
  simp only [next] at hs
  split at hs
  · cases hs
  · rename_i answer fleet hrequest
    cases hs
    rcases fill_of_request hrequest with rfl | ⟨key, entry, entry', _, hhost, he, he', rfl⟩
    · exact h.mono rfl rfl rfl (.refl _) rfl h.loads h.call
    refine ⟨h.keys.fill hhost entry entry', h.loads, h.engine, fun time stage hcall => ?_,
      fun time hmem => ?_⟩
    · have hok := h.call time stage hcall
      cases stage with
      | persisted => exact hok
      | loading load => exact hok
      | invalidating job =>
        refine ⟨hok.1, covers_fill hok.2 (he'.trans he.symm) (Or.inl ?_)⟩
        rw [he]
        exact h.le_profileFrom hok.1
    · obtain ⟨hforce, hentries⟩ := h.returned time hmem
      refine ⟨hforce, fun p key' e hv => ?_⟩
      rcases Cluster.get_fill hv with ⟨_, _, rfl⟩ | ⟨_, _, rfl⟩ | hold
      · rw [he]
        exact h.le_profileFrom hforce
      · rw [he']
        exact h.le_profileFrom hforce
      · exact hentries p key' e hold

/-- The engine has reloaded for the call, so the profile the call persisted is in force when its
invalidation begins. -/
lemma inv_callReplace (h : Inv s) (hs : next cfg s .callReplace = some s') : Inv s' := by
  simp only [next] at hs
  split at hs
  · rename_i time profile since hcall
    cases hs
    obtain ⟨hload, htime⟩ := h.call time _ hcall
    have hinv := h.replaceProfile hload
    have hforce := inForce_replaceProfile hload
    refine hinv.mono rfl rfl rfl (.refl _) rfl hinv.loads fun time' stage hnew => ?_
    cases hnew
    exact ⟨⟨hforce.1, htime.trans hforce.2⟩, covers_invalidatePolicy hinv.keys _⟩
  · cases hs

/-- When the invalidation is done, no older decision is left. -/
lemma inv_callReturn (h : Inv s) (hs : next cfg s .callReturn = some s') : Inv s' := by
  simp only [next] at hs
  split at hs
  · rename_i time job hcall
    split at hs
    · rename_i hdone
      cases hs
      obtain ⟨hforce, hcovers⟩ := h.call time _ hcall
      refine ⟨h.keys, h.loads, h.engine, by simp, fun time' hmem => ?_⟩
      rcases mem_cons.1 hmem with rfl | hold
      · exact ⟨hforce, fun p key entry hv => Nat.not_lt.1 (hcovers.fresh hdone hv)⟩
      · exact h.returned time' hold
    · cases hs
  · cases hs

/-- **One step keeps the invariant.** -/
lemma inv_next (s : State n) (e : Event n) (s' : State n) (h : Inv s) (hs : next cfg s e = some s') :
    Inv s' := by
  cases e with
  | request a now req => exact inv_request h hs
  | callReplace => exact inv_callReplace h hs
  | callReturn => exact inv_callReturn h hs
  | persist now version entries =>
    simp only [next] at hs
    split at hs
    · rename_i hready
      cases hs
      refine h.mono rfl rfl rfl (.refl _) rfl
        (fun load hmem => (h.loads load hmem).mono rfl hready.2.le) fun time stage hnew => ?_
      cases hnew
      exact le_rfl
    · cases hs
  | callRow =>
    simp only [next] at hs
    split at hs
    · rename_i time hcall
      cases hs
      refine h.mono rfl rfl rfl (.refl _) rfl h.loads fun time' stage hnew => ?_
      cases hnew
      exact ⟨⟨rfl, le_rfl⟩, h.call time _ hcall⟩
    · cases hs
  | callEntries =>
    simp only [next] at hs
    split at hs
    · rename_i time row hcall
      cases hs
      refine h.mono rfl rfl rfl (.refl _) rfl h.loads fun time' stage hnew => ?_
      cases hnew
      obtain ⟨hload, htime⟩ := h.call time _ hcall
      obtain ⟨hnewload, hnewtime⟩ := loadOk_readEntries hload
      exact ⟨hnewload, htime.trans_eq hnewtime.symm⟩
    · cases hs
  | invalidate e =>
    simp only [next] at hs
    split at hs
    · rename_i time job hcall
      obtain ⟨⟨fleet, job'⟩, hjob, hs⟩ := Option.bind_eq_some_iff.1 hs
      cases hs
      refine h.mono rfl rfl rfl (Job.Step.of_step hjob).shrinks rfl h.loads
        fun time' stage hnew => ?_
      cases hnew
      obtain ⟨hforce, hcovers⟩ := h.call time _ hcall
      exact ⟨hforce, hcovers.step hjob⟩
    · cases hs
  | callFail =>
    cases hs
    exact h.mono rfl rfl rfl (.refl _) rfl h.loads (by simp)
  | loadRow =>
    cases hs
    exact h.mono rfl rfl rfl (.refl _) rfl (forall_concat ⟨rfl, le_rfl⟩ h.loads) h.call
  | loadEntries i =>
    simp only [next] at hs
    split at hs
    · rename_i row hload
      cases hs
      have hread := (loadOk_readEntries (h.loads _ (mem_of_getElem? hload))).1
      exact h.mono rfl rfl rfl (.refl _) rfl (forall_set hread (forall_eraseIdx h.loads)) h.call
    · cases hs
  | loadReplace i =>
    simp only [next] at hs
    split at hs
    · rename_i profile since hload
      cases hs
      have hinv := h.replaceProfile (h.loads _ (mem_of_getElem? hload))
      refine hinv.mono rfl rfl rfl (.refl _) rfl (fun load hmem => ?_) hinv.call
      refine hinv.loads load ?_
      rw [(replaceProfile_frame s profile since).2.1]
      exact mem_of_mem_eraseIdx hmem
    · cases hs
  | synchronize version added =>
    cases hs
    refine h.mono rfl rfl rfl (.refl _) rfl
      (fun load hmem => (h.loads load hmem).mono rfl le_rfl) fun time stage hcall => ?_
    exact (h.call time stage hcall).mono rfl le_rfl rfl (.refl _)
  | expire keys =>
    cases hs
    have hfleet := Cluster.shrinks_remove s.fleet keys
    refine h.mono rfl rfl rfl hfleet rfl h.loads fun time stage hcall => ?_
    exact (h.call time stage hcall).mono rfl le_rfl rfl hfleet
  | engine store pool =>
    cases hs
    refine h.mono rfl rfl rfl (.refl _) rfl h.loads fun time stage hcall => ?_
    exact (h.call time stage hcall).mono rfl le_rfl rfl (.refl _)

/-- The system at start: nothing is under way, the caches hold host keys only, and the engine holds
another profile than the stored one (it starts with `deny_all` if it cannot load any) or one whose
entries were read no earlier than its row. -/
structure Start (s : State n) : Prop where
  loads : s.loads = []
  call : s.call = none
  returned : s.returned = []
  keys : HostKeys s.fleet
  engine : s.engine.evaluator.activation.id = s.row.id →
    s.engine.evaluator.activation.updatedAt ≤ s.profileFrom

lemma Start.inv (h : Start s) : Inv s :=
  ⟨h.keys, by simp [h.loads], h.engine, by simp [h.call], by simp [h.returned]⟩

/-- **Freshness after an activation change.** In every run, whatever requests, loads and calls it
interleaves: after a call has returned, every decision in a memory or in Redis was computed under
entries that were stored when that call persisted its profile, or later. -/
theorem at_least_as_new_after_return (cfg : AdaptorSetup) (s t : State n) (es : List (Event n))
    (hstart : Start s) (hrun : run (next cfg) s es = some t) (time : ℕ) (htime : time ∈ t.returned)
    (p : Option (Fin n)) (key : String) (entry : CacheEntry ℕ)
    (hentry : t.fleet.get p key = some entry) : time ≤ entry.origin :=
  ((invariant_of_step Inv inv_next hstart.inv hrun).returned time htime).2 p key entry hentry

/-- One adaptor with empty caches; the engine has loaded the stored profile. -/
def sampleStart : State 1 :=
  { row := { id := 1, version := "v1", updatedAt := 1 }
    entries := [{ profileId := 1, categoryId := unknownCategoryId,
                  subcategoryId := categorySentinelId, enabled := true }]
    engine := sampleState []
    profileFrom := 1
    loads := []
    call := none
    fleet := .empty
    returned := [] }

/-- A request before the change, the change with a background load around it, a request after. -/
def sampleRun : List (Event 1) :=
  [.request 0 0 (icapRequest "example.com" "alice"), .loadRow,
    .persist 5 "v1" [{ profileId := 1, categoryId := unknownCategoryId,
                       subcategoryId := categorySentinelId, enabled := false }],
    .loadEntries 0, .callRow, .callEntries, .callReplace, .loadReplace 0,
    .invalidate .exec, .invalidate (.page ["domain:example.com"]), .invalidate .exec,
    .invalidate .exec, .invalidate .exec, .invalidate .exec, .invalidate (.deliver 0 .policy),
    .callReturn, .request 0 6 (icapRequest "example.com" "alice")]

/-- After the run above Redis holds a decision under the profile that was persisted. -/
theorem decision_after_activation_change :
    ∃ t, run (next sampleAdaptors) sampleStart sampleRun = some t ∧
      5 ∈ t.returned ∧ ∃ entry, t.fleet.get none "domain:example.com" = some entry ∧
        5 ≤ entry.origin := by
  refine exists_of_any (fun t => t.returned.contains 5 && (t.fleet.get none "domain:example.com").isSome)
    (by decide +kernel) fun t hrun hfacts => ?_
  obtain ⟨hreturned, hheld⟩ := (Bool.and_eq_true _ _).mp hfacts
  obtain ⟨entry, hentry⟩ := Option.isSome_iff_exists.1 hheld
  have hmem : 5 ∈ t.returned := by simpa using hreturned
  refine ⟨hmem, entry, hentry, ?_⟩
  exact at_least_as_new_after_return _ sampleStart t sampleRun
    ⟨rfl, rfl, rfl, hostKeys_empty, fun _ => by decide +kernel⟩ hrun 5 hmem none _ entry hentry

end OpenDefender.System.ActivationPropagation
