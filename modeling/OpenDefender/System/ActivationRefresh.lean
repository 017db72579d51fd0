import OpenDefender.Lib.Pool
import OpenDefender.Lib.Run
import OpenDefender.System.ActivationProfiles

/-!
Activation profiles in the database, written by transactions that overlap, and the profile the engine
holds.

A seed and an update carry the time at which their transaction began; a synchronization leaves the time
of the profile as it is. An update locks the row of its profile, deletes the entries it sees at that
moment and inserts its own; its effects show when it commits. The engine loads the newest profile in two
queries and replaces the one it holds only by one of a later time or another id.

`refreshed_states`: if every commit that changes the entries of a profile also moves its time forward,
the profile held after a refresh has the states of the newest stored one.
-/

namespace OpenDefender.System.ActivationRefresh

open Lib Run Pool FirstMatch List
open Admin hiding ActivationProfile

/-- A transaction under way. An update has `seen` the entries it deletes once it holds the row. -/
inductive Tx where
  | seed (profileId : Uuid) (taxonomy : CanonicalTaxonomy) (start : ℕ)
  | synchronize (profile : Admin.ActivationProfile) (taxonomy : CanonicalTaxonomy)
  | update (profileId : Uuid) (payload : ValidatedActivationPayload) (taxonomy : CanonicalTaxonomy)
      (actor : String) (start : ℕ) (seen : Option (List ActivationEntry))

/-- A load of the engine: the row is read, then the entries. -/
inductive Load where
  | rowRead (row : ActivationRow)
  | complete (profile : ActivationProfile)

/-- The tables, the time of the last beginning, the transactions and loads under way, and the profile
the engine holds. -/
structure State where
  tables : ActivationTables
  clock : ℕ
  transactions : List Tx
  loads : List Load
  held : ActivationProfile

/-- The steps of transactions and loads. A synchronization begins with the profile its queries have
read. -/
inductive Event where
  | beginSeed (profileId : Uuid) (taxonomy : CanonicalTaxonomy) (now : ℕ)
  | beginSynchronize (profile : Admin.ActivationProfile) (taxonomy : CanonicalTaxonomy)
  | beginUpdate (profileId : Uuid) (payload : ValidatedActivationPayload)
      (taxonomy : CanonicalTaxonomy) (actor : String) (now : ℕ)
  | lock (i : ℕ)
  | commit (i : ℕ)
  | abort (i : ℕ)
  | loadRow
  | loadEntries (i : ℕ)
  | loadReplace (i : ℕ)

/-- The transaction holds the row of a profile. -/
def Tx.Holds (profileId : Uuid) : Tx → Prop
  | .update id _ _ _ _ (some _) => id = profileId
  | _ => False

instance (profileId : Uuid) (tx : Tx) : Decidable (tx.Holds profileId) := by
  unfold Tx.Holds
  split <;> infer_instance

/-- New entries do not meet the primary key of a row that is there. -/
def Insertable (entries added : List ActivationEntry) : Prop :=
  ∀ new ∈ added, ∀ old ∈ entries, ¬ (new.profileId = old.profileId ∧
    new.categoryId = old.categoryId ∧ new.subcategoryId = old.subcategoryId)

instance (entries added : List ActivationEntry) : Decidable (Insertable entries added) :=
  inferInstanceAs (Decidable (∀ _ ∈ _, _))

/-- The entries left when an update has deleted those it has seen. -/
def remaining (entries seen : List ActivationEntry) (profileId : Uuid) : List ActivationEntry :=
  entries.filter fun entry => ¬ (entry.profileId = profileId ∧ entry ∈ seen)

variable (tables : ActivationTables)

/-- The tables after the commit of a transaction; `none` if it fails or is not ready. -/
def Tx.commit : Tx → Option ActivationTables
  | .seed profileId taxonomy start =>
    if profileId ≠ Uuid.nil ∧ profileId ∉ tables.profiles.map (·.id) then
      some (seedDefaultProfile tables taxonomy profileId start)
    else none
  | .synchronize profile taxonomy =>
    if Insertable tables.entries (missingEntries profile taxonomy) then
      some (synchronizeProfile tables profile taxonomy)
    else none
  | .update _ _ _ _ _ none => none
  | .update profileId payload taxonomy actor start (some seen) =>
    let kept := remaining tables.entries seen profileId
    if Insertable kept (payloadEntries profileId payload) then
      let tables := updateProfileRow tables profileId fun row =>
        { row with version := taxonomy.version, updatedBy := some actor, updatedAt := start }
      some { tables with entries := kept ++ payloadEntries profileId payload }
    else none

/-- A synchronization that sets the version waits for the row of its profile. -/
def State.blocks (s : State) : Tx → Prop
  | .synchronize profile taxonomy =>
    profile.version ≠ taxonomy.version ∧ ∃ tx ∈ s.transactions, tx.Holds profile.id
  | _ => False

instance (s : State) (tx : Tx) : Decidable (s.blocks tx) := by
  unfold State.blocks
  split <;> infer_instance

/-- One step of the system. -/
def next (s : State) : Event → Option State
  | .beginSeed profileId taxonomy now =>
    if s.clock ≤ now then
      some { s with
        clock := now, transactions := s.transactions ++ [.seed profileId taxonomy now] }
    else none
  | .beginSynchronize profile taxonomy =>
    some { s with transactions := s.transactions ++ [.synchronize profile taxonomy] }
  | .beginUpdate profileId payload taxonomy actor now =>
    if s.clock ≤ now then
      some { s with
        clock := now
        transactions := s.transactions ++ [.update profileId payload taxonomy actor now none] }
    else none
  | .lock i =>
    match s.transactions[i]? with
    | some (.update profileId payload taxonomy actor start none) =>
      if ∃ tx ∈ s.transactions, tx.Holds profileId then none
      else
        let seen := s.tables.entriesOf profileId
        some { s with transactions :=
          s.transactions.set i (.update profileId payload taxonomy actor start (some seen)) }
    | _ => none
  | .commit i =>
    match s.transactions[i]? with
    | some tx =>
      if s.blocks tx then none
      else (tx.commit s.tables).map fun tables =>
        { s with tables, transactions := s.transactions.eraseIdx i }
    | none => none
  | .abort i => some { s with transactions := s.transactions.eraseIdx i }
  | .loadRow => s.tables.newestProfile.map fun row =>
    { s with loads := s.loads ++ [.rowRead row.toActivationRow] }
  | .loadEntries i =>
    match s.loads[i]? with
    | some (.rowRead row) =>
      let profile := ActivationProfile.ofRows row (s.tables.entriesOf row.id)
      some { s with loads := s.loads.set i (.complete profile) }
    | _ => none
  | .loadReplace i =>
    match s.loads[i]? with
    | some (.complete profile) =>
      some { s with held := s.held.replaceIfNew profile, loads := s.loads.eraseIdx i }
    | _ => none

/-- A commit that changes entries moves the time of their profile: an update has begun after the time
its profile has, and a synchronization has found a state for every item. -/
def Tx.Forward : Tx → Prop
  | .update profileId _ _ _ start _ =>
    ∀ row ∈ tables.profiles, row.id = profileId → row.updatedAt < start
  | .synchronize profile taxonomy => missingEntries profile taxonomy = []
  | .seed _ _ _ => True

instance (tx : Tx) : Decidable (tx.Forward tables) := by
  unfold Tx.Forward
  split <;> infer_instance

/-- **The condition**: every commit moves forward. -/
def MovesForward (s : State) : Event → Prop
  | .commit i => ∀ tx ∈ s.transactions[i]?, tx.Forward s.tables
  | _ => True

instance (s : State) (e : Event) : Decidable (MovesForward s e) := by
  unfold MovesForward
  split <;> infer_instance

/-! ### What a commit does to a profile -/

/-- The id is that of a stored profile, or of none there will ever be. -/
def Known (profileId : Uuid) : Prop :=
  profileId = Uuid.nil ∨ profileId ∈ tables.profiles.map (·.id)

/-- The profile of an id is what it was, or has a later time. -/
def Kept (tables tables' : ActivationTables) (profileId : Uuid) : Prop :=
  ∀ row' ∈ tables'.profiles, row'.id = profileId → ∃ row ∈ tables.profiles, row.id = profileId ∧
    ((row'.updatedAt = row.updatedAt ∧ tables'.entriesOf profileId = tables.entriesOf profileId) ∨
      row.updatedAt < row'.updatedAt)

variable {tables : ActivationTables} {profileId : Uuid}

lemma mem_updateProfileRow (h : row' ∈ (updateProfileRow tables profileId change).profiles) :
    ∃ row ∈ tables.profiles, row' = if row.id = profileId then change row else row := by
  obtain ⟨row, hrow, rfl⟩ := mem_map.1 h
  exact ⟨row, hrow, rfl⟩

/-- Entries of one profile leave those of another as they are. -/
lemma filter_profile_append {entries added : List ActivationEntry}
    (hadded : ∀ entry ∈ added, entry.profileId = other) (hne : profileId ≠ other) :
    (entries ++ added).filter (fun entry => entry.profileId = profileId) =
      entries.filter fun entry => entry.profileId = profileId := by
  have hnone : added.filter (fun entry => entry.profileId = profileId) = [] := by
    rw [filter_eq_nil_iff]
    intro entry hentry hid
    exact hne ((of_decide_eq_true hid).symm.trans (hadded entry hentry))
  rw [filter_append, hnone, append_nil]

lemma kept_seed {newId : Uuid} (hfresh : newId ≠ Uuid.nil ∧ newId ∉ tables.profiles.map (·.id))
    (hknown : Known tables profileId) :
    Kept tables (seedDefaultProfile tables taxonomy newId start) profileId := by
  have hne : profileId ≠ newId := by
    rintro rfl
    exact hknown.elim hfresh.1 hfresh.2
  intro row' hrow' hid
  obtain hrow' | hrow' := mem_append.1 hrow'
  · refine ⟨row', hrow', hid, Or.inl ⟨rfl, ?_⟩⟩
    refine filter_profile_append (fun entry hentry => ?_) hne
    obtain ⟨category, -, hmem⟩ := mem_flatMap.1 hentry
    exact (ActivationProfiles.ids_of_mem_categoryEntries hmem).1
  · rw [mem_singleton] at hrow'
    subst hrow'
    exact absurd hid.symm hne

lemma kept_synchronize (hforward : missingEntries profile taxonomy = []) (profileId : Uuid) :
    Kept tables (synchronizeProfile tables profile taxonomy) profileId := by
  intro row' hrow' hid
  have hentries : (synchronizeProfile tables profile taxonomy).entries = tables.entries := by
    simp only [synchronizeProfile, hforward, append_nil]
    split <;> rfl
  have hsame : (synchronizeProfile tables profile taxonomy).entriesOf profileId =
      tables.entriesOf profileId := by
    rw [ActivationTables.entriesOf, hentries, ActivationTables.entriesOf]
  simp only [synchronizeProfile] at hrow'
  split at hrow'
  · obtain ⟨row, hrow, rfl⟩ := mem_updateProfileRow hrow'
    refine ⟨row, hrow, ?_, Or.inl ⟨?_, hsame⟩⟩
    · rw [← hid]
      split <;> rfl
    · split <;> rfl
  · exact ⟨row', hrow', hid, Or.inl ⟨rfl, hsame⟩⟩

variable {tables' : ActivationTables} {tx : Tx}

/-- **A commit that moves forward** keeps every known profile or gives it a later time. -/
lemma kept_commit (hcommit : tx.commit tables = some tables') (hforward : tx.Forward tables)
    (hknown : Known tables profileId) : Kept tables tables' profileId := by
  cases tx with
  | seed newId taxonomy start =>
    simp only [Tx.commit, Option.ite_none_right_eq_some, Option.some.injEq] at hcommit
    obtain ⟨hfresh, rfl⟩ := hcommit
    exact kept_seed hfresh hknown
  | synchronize profile taxonomy =>
    simp only [Tx.commit, Option.ite_none_right_eq_some, Option.some.injEq] at hcommit
    obtain ⟨-, rfl⟩ := hcommit
    exact kept_synchronize hforward profileId
  | update id payload taxonomy actor start seen =>
    cases seen with
    | none => cases hcommit
    | some seen =>
      simp only [Tx.commit, Option.ite_none_right_eq_some, Option.some.injEq] at hcommit
      obtain ⟨-, rfl⟩ := hcommit
      intro row' hrow' hid
      obtain ⟨row, hrow, rfl⟩ := mem_updateProfileRow hrow'
      by_cases hown : row.id = id
      · -- the profile of the update
        rw [if_pos hown] at hid ⊢
        exact ⟨row, hrow, hid, Or.inr (hforward row hrow hown)⟩
      · rw [if_neg hown] at hid ⊢
        refine ⟨row, hrow, hid, Or.inl ⟨rfl, ?_⟩⟩
        have hne : profileId ≠ id := hid ▸ hown
        have hpayload : ∀ entry ∈ payloadEntries id payload, entry.profileId = id := by
          intro entry hentry
          obtain ⟨category, -, hmem⟩ := mem_flatMap.1 hentry
          exact (ActivationProfiles.ids_of_mem_categoryEntries hmem).1
        have hremaining : (remaining tables.entries seen id).filter
            (fun entry => entry.profileId = profileId) =
              tables.entries.filter fun entry => entry.profileId = profileId := by
          rw [remaining, filter_filter]
          refine filter_congr fun entry _ => ?_
          by_cases hentry : entry.profileId = profileId
          · simp [hentry, hne]
          · simp [hentry]
        exact (filter_profile_append hpayload hne).trans hremaining

lemma ids_updateProfileRow (tables : ActivationTables) (profileId : Uuid)
    (hchange : ∀ row, (change row).id = row.id) :
    (updateProfileRow tables profileId change).profiles.map (·.id) =
      tables.profiles.map (·.id) := by
  rw [updateProfileRow, map_map]
  refine map_congr_left fun row _ => ?_
  by_cases hid : row.id = profileId
  · simp [hid, hchange]
  · simp [hid]

/-- A commit adds at most one id, which no profile has. -/
lemma ids_commit (hcommit : tx.commit tables = some tables') :
    tables'.profiles.map (·.id) = tables.profiles.map (·.id) ∨
      ∃ newId, newId ∉ tables.profiles.map (·.id) ∧
        tables'.profiles.map (·.id) = tables.profiles.map (·.id) ++ [newId] := by
  cases tx with
  | seed newId taxonomy start =>
    simp only [Tx.commit, Option.ite_none_right_eq_some, Option.some.injEq] at hcommit
    obtain ⟨hfresh, rfl⟩ := hcommit
    exact Or.inr ⟨newId, hfresh.2, by simp [seedDefaultProfile]⟩
  | synchronize profile taxonomy =>
    simp only [Tx.commit, Option.ite_none_right_eq_some, Option.some.injEq] at hcommit
    obtain ⟨-, rfl⟩ := hcommit
    refine Or.inl ?_
    simp only [synchronizeProfile]
    split
    · exact ids_updateProfileRow _ _ fun _ => rfl
    · rfl
  | update id payload taxonomy actor start seen =>
    cases seen with
    | none => cases hcommit
    | some seen =>
      simp only [Tx.commit, Option.ite_none_right_eq_some, Option.some.injEq] at hcommit
      obtain ⟨-, rfl⟩ := hcommit
      exact Or.inl (ids_updateProfileRow tables id fun _ => rfl)

lemma Known.commit (hknown : Known tables profileId) (hcommit : tx.commit tables = some tables') :
    Known tables' profileId := by
  refine hknown.imp_right fun hmem => ?_
  obtain hids | ⟨newId, -, hids⟩ := ids_commit hcommit
  · exact hids ▸ hmem
  · rw [hids]
    exact mem_append_left _ hmem

/-! ### The invariant -/

/-- The stored profile with the id of this one is no older; if it is no newer either, the states are
the same. -/
structure Current (tables : ActivationTables) (profile : ActivationProfile) : Prop where
  known : Known tables profile.id
  time : ∀ row ∈ tables.profiles, row.id = profile.id → profile.updatedAt ≤ row.updatedAt
  states : ∀ row ∈ tables.profiles, row.id = profile.id → row.updatedAt ≤ profile.updatedAt →
    profile.SameStates (.ofRows row.toActivationRow (tables.entriesOf profile.id))

/-- A load has read the stored profile at some time. -/
def LoadOk (tables : ActivationTables) : Load → Prop
  | .rowRead row => Known tables row.id ∧
      ∀ stored ∈ tables.profiles, stored.id = row.id → row.updatedAt ≤ stored.updatedAt
  | .complete profile => Current tables profile

/-- Ids are unique, and what the engine holds or is loading is current. -/
structure Inv (s : State) : Prop where
  ids : (s.tables.profiles.map (·.id)).Nodup
  held : Current s.tables s.held
  loads : ∀ load ∈ s.loads, LoadOk s.tables load

lemma Current.commit (h : Current tables profile) (hcommit : tx.commit tables = some tables')
    (hforward : tx.Forward tables) : Current tables' profile := by
  have hkept := kept_commit hcommit hforward h.known
  refine ⟨h.known.commit hcommit, fun row' hrow' hid => ?_, fun row' hrow' hid htime => ?_⟩
  · obtain ⟨row, hrow, hrowId, ⟨hsame, -⟩ | hlater⟩ := hkept row' hrow' hid
    · rw [hsame]
      exact h.time row hrow hrowId
    · exact (h.time row hrow hrowId).trans hlater.le
  · obtain ⟨row, hrow, hrowId, ⟨hsame, hentries⟩ | hlater⟩ := hkept row' hrow' hid
    · rw [hentries]
      exact (h.states row hrow hrowId (hsame ▸ htime)).trans
        (ActivationProfile.sameStates_ofRows _ _ _)
    · have hbefore := h.time row hrow hrowId
      omega

lemma LoadOk.commit (h : LoadOk tables load) (hcommit : tx.commit tables = some tables')
    (hforward : tx.Forward tables) : LoadOk tables' load := by
  cases load with
  | complete profile => exact Current.commit h hcommit hforward
  | rowRead row =>
    obtain ⟨hknown, htime⟩ := h
    refine ⟨hknown.commit hcommit, fun row' hrow' hid => ?_⟩
    obtain ⟨stored, hstored, hstoredId, ⟨hsame, -⟩ | hlater⟩ :=
      kept_commit hcommit hforward hknown row' hrow' hid
    · rw [hsame]
      exact htime stored hstored hstoredId
    · exact (htime stored hstored hstoredId).trans hlater.le

/-- What a load has read is current when it has read its entries. -/
lemma current_ofRows (h : LoadOk tables (.rowRead row)) :
    Current tables (.ofRows row (tables.entriesOf row.id)) := by
  obtain ⟨hid, htime⟩ := ActivationProfile.ofRows_id_updatedAt row (tables.entriesOf row.id)
  refine ⟨?_, fun stored hstored hstoredId => ?_, fun stored _ _ _ => ?_⟩
  · rw [hid]
    exact h.1
  · rw [htime]
    exact h.2 stored hstored (hstoredId.trans hid)
  · rw [hid]
    exact ActivationProfile.sameStates_ofRows _ _ _

lemma loadOk_newest (hids : (tables.profiles.map (·.id)).Nodup)
    (hnewest : tables.newestProfile = some row) : LoadOk tables (.rowRead row.toActivationRow) := by
  have hmem := mem_of_newest hnewest
  refine ⟨Or.inr (mem_map.2 ⟨row, hmem, rfl⟩), fun stored hstored hid => ?_⟩
  obtain rfl : stored = row := inj_on_of_nodup_map hids hstored hmem hid
  exact le_rfl

lemma Current.replaceIfNew (h : Current tables held) (h' : Current tables loaded) :
    Current tables (held.replaceIfNew loaded) := by
  rw [ActivationProfile.replaceIfNew]
  split
  · exact h'
  · exact h

/-- A commit that moves forward keeps the invariant. -/
lemma inv_commit (h : Inv s) (hcommit : tx.commit s.tables = some tables')
    (hforward : tx.Forward s.tables) : Inv { s with tables := tables', transactions } := by
  refine ⟨?_, h.held.commit hcommit hforward, fun load hload =>
    (h.loads load hload).commit hcommit hforward⟩
  show (tables'.profiles.map (·.id)).Nodup
  obtain hids | ⟨newId, hnot, hids⟩ := ids_commit hcommit
  · exact hids ▸ h.ids
  · rw [hids]
    exact nodup_append.2 ⟨h.ids, nodup_singleton _, by
      rintro id hid _ hsingle rfl
      exact hnot (mem_singleton.1 hsingle ▸ hid)⟩

/-- **Every step keeps the invariant** if its commit moves forward. -/
lemma inv_next (s : State) (e : Event) (s' : State) (h : Inv s) (hforward : MovesForward s e)
    (hnext : next s e = some s') : Inv s' := by
  cases e with
  | beginSeed profileId taxonomy now =>
    simp only [next, Option.ite_none_right_eq_some, Option.some.injEq] at hnext
    obtain ⟨-, rfl⟩ := hnext
    exact ⟨h.ids, h.held, h.loads⟩
  | beginSynchronize profile taxonomy =>
    cases hnext
    exact ⟨h.ids, h.held, h.loads⟩
  | beginUpdate profileId payload taxonomy actor now =>
    simp only [next, Option.ite_none_right_eq_some, Option.some.injEq] at hnext
    obtain ⟨-, rfl⟩ := hnext
    exact ⟨h.ids, h.held, h.loads⟩
  | lock i =>
    simp only [next] at hnext
    split at hnext
    · simp only [Option.ite_none_left_eq_some, Option.some.injEq] at hnext
      obtain ⟨-, rfl⟩ := hnext
      exact ⟨h.ids, h.held, h.loads⟩
    · cases hnext
  | commit i =>
    simp only [next] at hnext
    split at hnext
    · rename_i tx htx
      simp only [Option.ite_none_left_eq_some] at hnext
      obtain ⟨-, hnext⟩ := hnext
      obtain ⟨tables', hcommit, rfl⟩ := Option.map_eq_some_iff.1 hnext
      exact inv_commit h hcommit (hforward tx htx)
    · cases hnext
  | abort i =>
    cases hnext
    exact ⟨h.ids, h.held, h.loads⟩
  | loadRow =>
    obtain ⟨row, hnewest, rfl⟩ := Option.map_eq_some_iff.1 hnext
    exact ⟨h.ids, h.held, forall_concat (loadOk_newest h.ids hnewest) h.loads⟩
  | loadEntries i =>
    simp only [next] at hnext
    split at hnext
    · rename_i row hrow
      cases hnext
      have hread := current_ofRows (h.loads _ (mem_of_getElem? hrow))
      exact ⟨h.ids, h.held, forall_set hread (forall_eraseIdx h.loads)⟩
    · cases hnext
  | loadReplace i =>
    simp only [next] at hnext
    split at hnext
    · rename_i profile hprofile
      cases hnext
      exact ⟨h.ids, h.held.replaceIfNew (h.loads _ (mem_of_getElem? hprofile)),
        forall_eraseIdx h.loads⟩
    · cases hnext

/-! ### The result -/

/-- The engine has loaded its profile from the tables, or holds one that is in no table. -/
structure Start (tables : ActivationTables) (held : ActivationProfile) : Prop where
  ids : (tables.profiles.map (·.id)).Nodup
  notNil : Uuid.nil ∉ tables.profiles.map (·.id)
  held : held.id = Uuid.nil ∨ ActivationProfile.loadFromDb tables = .ok held

/-- The state in which nothing is under way. -/
def start (tables : ActivationTables) (held : ActivationProfile) (clock : ℕ) : State :=
  { tables, clock, transactions := [], loads := [], held }

lemma Start.inv {held : ActivationProfile} (h : Start tables held) (clock : ℕ) :
    Inv (start tables held clock) := by
  refine ⟨h.ids, ?_, by simp [start]⟩
  obtain hnil | hload := h.held
  · have hnone : ∀ row ∈ tables.profiles, row.id ≠ held.id := fun row hrow hid =>
      h.notNil (mem_map.2 ⟨row, hrow, hid.trans hnil⟩)
    exact ⟨Or.inl hnil, fun row hrow hid => absurd hid (hnone row hrow),
      fun row hrow hid => absurd hid (hnone row hrow)⟩
  · rw [ActivationProfile.loadFromDb] at hload
    split at hload
    · cases hload
    · rename_i row hnewest
      cases hload
      exact current_ofRows (loadOk_newest h.ids hnewest)

/-- **A refresh after commits that move forward** leaves the engine with the states of the newest
stored profile. -/
theorem refreshed_states (tables : ActivationTables) (held : ActivationProfile) (clock : ℕ)
    (es : List Event) (s : State) (stored : ActivationProfile) (hstart : Start tables held)
    (hforward : Guarded next MovesForward (start tables held clock) es)
    (hrun : run next (start tables held clock) es = some s)
    (hload : ActivationProfile.loadFromDb s.tables = .ok stored) :
    (s.held.replaceIfNew stored).SameStates stored := by
  have hinv : Inv s := hforward.invariant Inv inv_next (hstart.inv clock) hrun
  rw [ActivationProfile.loadFromDb] at hload
  split at hload
  · cases hload
  rename_i row hnewest
  cases hload
  obtain ⟨hid, htime⟩ :=
    ActivationProfile.ofRows_id_updatedAt row.toActivationRow (s.tables.entriesOf row.id)
  rw [ActivationProfile.replaceIfNew]
  split
  · exact .refl _
  · rename_i hnot
    simp only [ActivationProfile.replaces, not_or, not_lt, not_not, hid, htime] at hnot
    -- the profile that is held has the id and the time of the stored one
    have hstates := hinv.held.states row (mem_of_newest hnewest) hnot.2 hnot.1
    rwa [← hnot.2] at hstates

/-! ### Social networks, switched off late and added late -/

/-- A checked update that switches everything on but social networks. -/
def flagsPayload (social : Bool) : ValidatedActivationPayload :=
  { version := "v1"
    categories :=
      [{ id := unknownCategoryId, enabled := true,
         subcategories := [{ id := unknownDefaultSubcategoryId, enabled := true }] },
       { id := "social-media", enabled := true,
         subcategories := [{ id := "social-networks", enabled := social }] }] }

/-- Tables with a profile that has been seeded. -/
def seededTables : ActivationTables :=
  seedDefaultProfile { profiles := [], entries := [] } ActivationProfiles.lockedTaxonomy 1 1

/-- The profile the engine has loaded from them. -/
def seededProfile : ActivationProfile :=
  .ofRows { id := 1, version := "v1", updatedAt := 1 } (seedEntries 1 ActivationProfiles.lockedTaxonomy)

/-- The states of a subcategory of social media after a refresh: stored, and held by the engine. -/
def statesAfterRefresh (subcategoryId : String) (s : State) : Option (Option Bool × Option Bool) :=
  (ActivationProfile.loadFromDb s.tables).toOption.map fun stored =>
    (stored.subcategoryState "social-media" subcategoryId,
      (s.held.replaceIfNew stored).subcategoryState "social-media" subcategoryId)

/-- An update that begins at 2, and one that begins at 3 and commits before it. -/
def overlappingUpdates : List Event :=
  [.beginUpdate 1 (flagsPayload false) ActivationProfiles.lockedTaxonomy "admin" 2,
   .beginUpdate 1 (flagsPayload true) ActivationProfiles.lockedTaxonomy "operator" 3,
   .lock 1, .commit 1, .loadRow, .loadEntries 0, .loadReplace 0, .lock 0, .commit 0]

/-- The taxonomy of a later release, with one more subcategory. -/
def extendedTaxonomy : CanonicalTaxonomy :=
  { version := "v2"
    categories :=
      [{ id := "social-media", name := "Social Media",
         subcategories := [{ id := "social-networks", name := "Social Networks" },
           { id := "messaging", name := "Messaging" }] }] }

/-- A synchronization with that taxonomy. -/
def lateSynchronization : List Event :=
  [.beginSynchronize (.ofRows { id := 1, version := "v1", updatedAt := 1, updatedBy := some "system" }
      (seedEntries 1 ActivationProfiles.lockedTaxonomy)) extendedTaxonomy, .commit 0]

/-- The update that began first commits last, with the earlier time, and the refresh leaves the engine
with the other one. A synchronization adds a state the refresh does not bring to the engine. -/
theorem refresh_leaves_old_states :
    (run next (start seededTables seededProfile 1) overlappingUpdates).map (fun s =>
        (s.transactions.length, s.loads.length, statesAfterRefresh "social-networks" s)) =
      some (0, 0, some (some false, some true)) ∧
    (run next (start seededTables seededProfile 1) lateSynchronization).map (fun s =>
        (s.transactions.length, s.loads.length, statesAfterRefresh "messaging" s)) =
      some (0, 0, some (some true, none)) := by
  refine ⟨?_, ?_⟩ <;> decide +kernel

/-- One update after the other reaches the engine. -/
theorem refresh_after_one_update :
    ∃ s stored, run next (start seededTables seededProfile 1)
        [.beginUpdate 1 (flagsPayload false) ActivationProfiles.lockedTaxonomy "admin" 2, .lock 0,
          .commit 0] = some s ∧
      ActivationProfile.loadFromDb s.tables = .ok stored ∧
      stored.subcategoryState "social-media" "social-networks" = some false ∧
      (s.held.replaceIfNew stored).SameStates stored := by
  have hend : (run next (start seededTables seededProfile 1)
      [.beginUpdate 1 (flagsPayload false) ActivationProfiles.lockedTaxonomy "admin" 2, .lock 0,
        .commit 0]).any (fun s => (ActivationProfile.loadFromDb s.tables).toOption.any fun stored =>
          stored.subcategoryState "social-media" "social-networks" = some false) = true := by
    decide +kernel
  obtain ⟨s, hrun, hstored⟩ := (Option.any_eq_true _ _).1 hend
  obtain ⟨stored, hload, hstate⟩ := (Option.any_eq_true _ _).1 hstored
  have hload := Outcome.toOption_eq_some.1 hload
  have hstart : Start seededTables seededProfile :=
    ⟨by decide, by decide, Or.inr rfl⟩
  refine ⟨s, stored, hrun, hload, of_decide_eq_true hstate,
    refreshed_states seededTables seededProfile 1 _ s stored hstart ?_ hrun hload⟩
  decide +kernel

end OpenDefender.System.ActivationRefresh
