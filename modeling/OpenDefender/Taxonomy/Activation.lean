import OpenDefender.Lib.Assoc
import OpenDefender.Lib.FirstMatch

/-!
The activation profile (`crates/taxonomy/src/activation.rs`): which categories and subcategories
are switched on, how a profile is loaded from its two tables, and the conditional replacement of
the profile a service holds in memory.

`stateOf` reads the entries as a table: the states of a loaded profile are those of its last entries
(`categoryState_ofRows`, `subcategoryState_ofRows`).

A load is two queries, the newest profile row and then the entries of that profile; `ofRows` puts
their answers together, so that a model of concurrent loads can take the two answers at different
moments. Times and identifiers are natural numbers.
-/

namespace OpenDefender

open Lib FirstMatch List

/-- Row identifiers. -/
abbrev Uuid := Nat

/-- `Uuid::nil()`. -/
def Uuid.nil : Uuid := (0 : Nat)

/-- `CATEGORY_SENTINEL_ID`. -/
def categorySentinelId : String := "__CATEGORY__"

/-- A row of `taxonomy_activation_profiles`. -/
structure ActivationRow where
  id : Uuid
  version : String
  updatedAt : Nat
  deriving DecidableEq, Repr

/-- A row of `taxonomy_activation_entries`. -/
structure ActivationEntry where
  profileId : Uuid
  categoryId : String
  subcategoryId : String
  enabled : Bool
  deriving DecidableEq, Repr

/-- A row of `taxonomy_activation_profiles` with the column only the admin API reads. -/
structure ProfileRow extends ActivationRow where
  updatedBy : Option String
  deriving DecidableEq, Repr

/-- The two tables of activation. -/
structure ActivationTables where
  profiles : List ProfileRow
  entries : List ActivationEntry
  deriving DecidableEq, Repr

/-- The entries of a profile. -/
def ActivationTables.entriesOf (tables : ActivationTables) (profileId : Uuid) :
    List ActivationEntry :=
  tables.entries.filter fun entry => entry.profileId = profileId

/-- The row both services load (`ORDER BY updated_at DESC LIMIT 1`). -/
def ActivationTables.newestProfile (tables : ActivationTables) : Option ProfileRow :=
  newest (·.updatedAt) tables.profiles

/-- `ActivationProfile`. -/
structure ActivationProfile where
  id : Uuid
  version : String
  updatedAt : Nat
  categoryStates : Assoc String Bool
  subcategoryStates : Assoc String (Assoc String Bool)
  defaultEnabled : Bool

namespace ActivationProfile

variable (p : ActivationProfile)

/-- The effect of one entry in the loop of `load_from_db`. -/
def addEntry (entry : ActivationEntry) : ActivationProfile :=
  if entry.subcategoryId = categorySentinelId then
    { p with categoryStates := p.categoryStates.set entry.categoryId entry.enabled }
  else
    let subs := (p.subcategoryStates.get entry.categoryId).getD .empty
    { p with
      subcategoryStates :=
        p.subcategoryStates.set entry.categoryId (subs.set entry.subcategoryId entry.enabled) }

/-- `load_from_db` from the answers of its two queries. -/
def ofRows (row : ActivationRow) (entries : List ActivationEntry) : ActivationProfile :=
  entries.foldl addEntry
    { id := row.id
      version := row.version
      updatedAt := row.updatedAt
      categoryStates := .empty
      subcategoryStates := .empty
      defaultEnabled := false }

/-- `load_from_db` with both queries at one moment. -/
def loadFromDb (tables : ActivationTables) : Except String ActivationProfile :=
  match tables.newestProfile with
  | none => .error "taxonomy activation profile not found"
  | some row => .ok (ofRows row.toActivationRow (tables.entriesOf row.id))

/-- `ActivationProfile::is_enabled`. -/
def isEnabled (categoryId : String) (subcategoryId : Option String) : Bool :=
  let subState := subcategoryId.bind fun sub =>
    (p.subcategoryStates.get categoryId).bind (·.get sub)
  match subState.or (p.categoryStates.get categoryId) with
  | some state => state
  | none => p.defaultEnabled

/-- The state a profile records for a category. -/
def categoryState (categoryId : String) : Option Bool :=
  p.categoryStates.get categoryId

/-- The state a profile records for a subcategory. -/
def subcategoryState (categoryId subcategoryId : String) : Option Bool :=
  (p.subcategoryStates.get categoryId).bind (·.get subcategoryId)

/-- A category alone is as recorded, or as by default. -/
lemma isEnabled_none (categoryId : String) :
    p.isEnabled categoryId none = (p.categoryState categoryId).getD p.defaultEnabled := by
  unfold isEnabled categoryState
  cases p.categoryStates.get categoryId <;> rfl

/-- A subcategory is as recorded, or as its category. -/
lemma isEnabled_some (categoryId subcategoryId : String) : p.isEnabled categoryId (some subcategoryId) =
      (p.subcategoryState categoryId subcategoryId).getD (p.isEnabled categoryId none) := by
  unfold isEnabled subcategoryState
  rw [Option.bind_some]
  cases (p.subcategoryStates.get categoryId).bind (·.get subcategoryId) <;> rfl

/-- `ActivationProfile::allow_all` at a time. -/
def allowAll (now : Nat) : ActivationProfile :=
  { id := Uuid.nil, version := "allow-all", updatedAt := now, categoryStates := .empty,
    subcategoryStates := .empty, defaultEnabled := true }

/-- `ActivationProfile::deny_all` at a time. -/
def denyAll (now : Nat) : ActivationProfile :=
  { id := Uuid.nil, version := "deny-all", updatedAt := now, categoryStates := .empty,
    subcategoryStates := .empty, defaultEnabled := false }

/-- The test of `replace_if_new`: the loaded profile is newer or another one. -/
def replaces (loaded held : ActivationProfile) : Prop :=
  loaded.updatedAt > held.updatedAt ∨ loaded.id ≠ held.id

instance (loaded held : ActivationProfile) : Decidable (loaded.replaces held) :=
  inferInstanceAs (Decidable (_ ∨ _))

/-- `ActivationState::replace_if_new`: the profile held afterwards. -/
def replaceIfNew (held loaded : ActivationProfile) : ActivationProfile :=
  if loaded.replaces held then loaded else held

@[simp] lemma addEntry_id (e : ActivationEntry) : (p.addEntry e).id = p.id := by
  unfold addEntry
  split <;> rfl

@[simp] lemma addEntry_updatedAt (e : ActivationEntry) : (p.addEntry e).updatedAt = p.updatedAt := by
  unfold addEntry
  split <;> rfl

/-- The identity and the time of a loaded profile are those of its row, whatever the entries. -/
lemma ofRows_id_updatedAt (row : ActivationRow) (entries : List ActivationEntry) :
    (ofRows row entries).id = row.id ∧ (ofRows row entries).updatedAt = row.updatedAt := by
  have key (p : ActivationProfile) :
      (entries.foldl addEntry p).id = p.id ∧
        (entries.foldl addEntry p).updatedAt = p.updatedAt := by
    induction entries generalizing p with
    | nil => exact ⟨rfl, rfl⟩
    | cons e es ih => simpa using ih (p.addEntry e)
  exact key _

end ActivationProfile

/-! ### Entries as a table of states -/

/-- The state the entries give to a pair of ids, the last one where there are several. -/
def stateOf (entries : List ActivationEntry) (categoryId subcategoryId : String) : Option Bool :=
  (entries.reverse.find? fun entry =>
    entry.categoryId = categoryId ∧ entry.subcategoryId = subcategoryId).map (·.enabled)

@[simp] lemma stateOf_nil (categoryId subcategoryId : String) :
    stateOf [] categoryId subcategoryId = none := rfl

lemma stateOf_append (entries entries' : List ActivationEntry) (categoryId subcategoryId : String) :
    stateOf (entries ++ entries') categoryId subcategoryId =
      (stateOf entries' categoryId subcategoryId).or (stateOf entries categoryId subcategoryId) := by
  rw [stateOf, reverse_append, find?_append, Option.map_or]
  rfl

lemma stateOf_singleton (entry : ActivationEntry) (categoryId subcategoryId : String) :
    stateOf [entry] categoryId subcategoryId =
      if entry.categoryId = categoryId ∧ entry.subcategoryId = subcategoryId then some entry.enabled
      else none := by
  by_cases h : entry.categoryId = categoryId ∧ entry.subcategoryId = subcategoryId <;>
    simp [stateOf, h]

variable {subcategoryId : String}

/-- A pair has a state exactly when it has an entry. -/
lemma stateOf_isSome :
    (stateOf entries categoryId subcategoryId).isSome ↔
      ∃ entry ∈ entries, entry.categoryId = categoryId ∧ entry.subcategoryId = subcategoryId := by
  simp [stateOf]

/-- Where no pair has two entries, every entry is the state of its pair. -/
lemma stateOf_of_mem
    (hnodup : (entries.map fun entry => (entry.categoryId, entry.subcategoryId)).Nodup)
    (hmem : entry ∈ entries) :
    stateOf entries entry.categoryId entry.subcategoryId = some entry.enabled := by
  obtain ⟨state, hstate⟩ := Option.isSome_iff_exists.1
    (stateOf_isSome.2 ⟨entry, hmem, rfl, rfl⟩)
  obtain ⟨found, hfound, rfl⟩ := Option.map_eq_some_iff.1 hstate
  have hfoundMem : found ∈ entries := mem_reverse.1 (mem_of_find?_eq_some hfound)
  have hids : found.categoryId = entry.categoryId ∧ found.subcategoryId = entry.subcategoryId := by
    simpa using find?_some hfound
  have hsame : found = entry :=
    inj_on_of_nodup_map hnodup hfoundMem hmem (Prod.ext hids.1 hids.2)
  rw [hstate, hsame]

namespace ActivationProfile

lemma categoryState_addEntry (p : ActivationProfile) (entry : ActivationEntry)
    (categoryId : String) :
    (p.addEntry entry).categoryState categoryId =
      (stateOf [entry] categoryId categorySentinelId).or (p.categoryState categoryId) := by
  rw [stateOf_singleton]
  unfold addEntry categoryState
  by_cases hsub : entry.subcategoryId = categorySentinelId
  · by_cases hcat : entry.categoryId = categoryId
    · simp [hsub, hcat]
    · simp [hsub, hcat, Ne.symm hcat]
  · simp [hsub]

lemma subcategoryState_addEntry (p : ActivationProfile) (entry : ActivationEntry)
    (hne : subcategoryId ≠ categorySentinelId) :
    (p.addEntry entry).subcategoryState categoryId subcategoryId =
      (stateOf [entry] categoryId subcategoryId).or
        (p.subcategoryState categoryId subcategoryId) := by
  rw [stateOf_singleton]
  unfold addEntry subcategoryState
  by_cases hsub : entry.subcategoryId = categorySentinelId
  · simp [hsub, hne.symm]
  · by_cases hcat : entry.categoryId = categoryId
    · subst hcat
      by_cases hpair : entry.subcategoryId = subcategoryId
      · simp [hpair, hne]
      · cases hsubs : p.subcategoryStates.get entry.categoryId <;>
          simp [hsub, hpair, Ne.symm hpair]
    · simp [hsub, hcat, Ne.symm hcat]

variable (row : ActivationRow) (entries : List ActivationEntry)

lemma ofRows_concat (entry : ActivationEntry) :
    ofRows row (entries ++ [entry]) = (ofRows row entries).addEntry entry := by
  rw [ofRows, foldl_append]
  rfl

/-- The state of a category is that of its entry with the reserved id. -/
lemma categoryState_ofRows (categoryId : String) : (ofRows row entries).categoryState categoryId =
      stateOf entries categoryId categorySentinelId := by
  induction entries using List.reverseRecOn with
  | nil => rfl
  | append_singleton entries entry ih =>
    rw [stateOf_append, ← ih, ← categoryState_addEntry, ofRows_concat]

/-- The state of a subcategory is that of its entry. -/
lemma subcategoryState_ofRows (hne : subcategoryId ≠ categorySentinelId) :
    (ofRows row entries).subcategoryState categoryId subcategoryId =
      stateOf entries categoryId subcategoryId := by
  induction entries using List.reverseRecOn with
  | nil => rfl
  | append_singleton entries entry ih =>
    rw [stateOf_append, ← ih, ← subcategoryState_addEntry _ _ hne, ofRows_concat]

/-- Two profiles hold the same states. -/
structure SameStates (p q : ActivationProfile) : Prop where
  categories : ∀ categoryId, p.categoryState categoryId = q.categoryState categoryId
  subcategories : ∀ categoryId subcategoryId,
    p.subcategoryState categoryId subcategoryId = q.subcategoryState categoryId subcategoryId

lemma SameStates.refl (p : ActivationProfile) : SameStates p p :=
  ⟨fun _ => rfl, fun _ _ => rfl⟩

lemma SameStates.trans {p q r : ActivationProfile} (h : SameStates p q) (h' : SameStates q r) :
    SameStates p r :=
  ⟨fun c => (h.categories c).trans (h'.categories c),
    fun c s => (h.subcategories c s).trans (h'.subcategories c s)⟩

/-- The states of a loaded profile come from the entries alone. -/
lemma sameStates_ofRows (row row' : ActivationRow) (entries : List ActivationEntry) :
    SameStates (ofRows row entries) (ofRows row' entries) := by
  have hmaps : (ofRows row entries).categoryStates = (ofRows row' entries).categoryStates ∧
      (ofRows row entries).subcategoryStates = (ofRows row' entries).subcategoryStates := by
    induction entries using List.reverseRecOn with
    | nil => exact ⟨rfl, rfl⟩
    | append_singleton entries entry ih =>
      rw [ofRows_concat, ofRows_concat, addEntry, addEntry]
      split
      · exact ⟨by rw [ih.1], ih.2⟩
      · exact ⟨ih.1, by rw [ih.2]⟩
  refine ⟨fun categoryId => ?_, fun categoryId subcategoryId => ?_⟩
  · rw [categoryState, categoryState, hmaps.1]
  · rw [subcategoryState, subcategoryState, hmaps.2]

end ActivationProfile

end OpenDefender
