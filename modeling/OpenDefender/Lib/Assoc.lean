import Mathlib.Tactic

/-!
Finite maps as association lists, the model of a hash map and of a key-value server.

`get` returns the first value stored under a key, `set` replaces it, `erase` and `retain` drop
keys. The three equations `get_set`, `get_erase` and `get_retain` are all later modules use; with
`mem_keys_iff` the list of keys says exactly which keys hold a value. `Values P` says that all bindings
have a property; maps built up by insertions have it if every insertion does. `Distinct` says that no key is
bound twice, which insertions keep.
-/

namespace Lib

open List

/-- A finite map from `κ` to `ν`, kept as the list of its bindings. -/
structure Assoc (κ ν : Type*) where
  bindings : List (κ × ν)
  deriving DecidableEq, Repr

namespace Assoc

variable {κ ν : Type*} [DecidableEq κ]

/-- The map without bindings. -/
def empty : Assoc κ ν := ⟨[]⟩

variable (m : Assoc κ ν)

/-- The value bound to `k`. -/
def get (k : κ) : Option ν :=
  (m.bindings.find? (fun b => b.1 = k)).map Prod.snd

/-- Keeps the bindings whose key satisfies `p`. -/
def retain (p : κ → Bool) (m : Assoc κ ν) : Assoc κ ν :=
  ⟨m.bindings.filter (fun b => p b.1)⟩

/-- Drops the binding of `k`. -/
def erase (k : κ) : Assoc κ ν :=
  m.retain (fun k' => k' ≠ k)

/-- Binds `k` to `v`, replacing an earlier binding. -/
def set (k : κ) (v : ν) : Assoc κ ν :=
  ⟨(k, v) :: (m.erase k).bindings⟩

/-- Binds `k` to `v` unless it already holds a value (`entry(k).or_insert(v)`). -/
def setIfAbsent (k : κ) (v : ν) : Assoc κ ν :=
  if (m.get k).isSome then m else m.set k v

/-- Drops every key of a list. -/
def eraseAll (ks : List κ) : Assoc κ ν :=
  m.retain (fun k => k ∉ ks)

/-- The keys that hold a value. -/
def keys : List κ :=
  m.bindings.map Prod.fst

@[simp] lemma get_empty (k : κ) : (empty : Assoc κ ν).get k = none := rfl

@[simp] lemma get_retain (p : κ → Bool) (m : Assoc κ ν) (k : κ) :
    (m.retain p).get k = if p k then m.get k else none := by
  obtain ⟨bs⟩ := m
  simp only [get, retain]
  induction bs with
  | nil => simp
  | cons b bs ih =>
    by_cases hb : b.1 = k
    · subst hb
      cases hp : p b.1
      · simpa [filter_cons, hp] using ih
      · simp [hp]
    · cases hp : p b.1 <;> simpa [filter_cons, find?_cons, hp, hb] using ih

@[simp] lemma get_erase (k k' : κ) : (m.erase k).get k' = if k' = k then none else m.get k' := by
  by_cases h : k' = k <;> simp [erase, h]

@[simp] lemma get_set (k k' : κ) (v : ν) : (m.set k v).get k' = if k' = k then some v else m.get k' := by
  by_cases h : k' = k
  · subst h
    simp [set, get]
  · have he := get_erase m k k'
    rw [if_neg h] at he
    rw [if_neg h, ← he]
    simp [set, get, Ne.symm h]

@[simp] lemma get_eraseAll (ks : List κ) (k : κ) :
    (m.eraseAll ks).get k = if k ∈ ks then none else m.get k := by
  by_cases h : k ∈ ks <;> simp [eraseAll, h]

/-- A key is listed exactly when it holds a value. -/
lemma mem_keys_iff (k : κ) : k ∈ m.keys ↔ (m.get k).isSome := by
  obtain ⟨bs⟩ := m
  simp only [keys, get]
  induction bs with
  | nil => simp
  | cons b bs ih =>
    by_cases hb : b.1 = k
    · simp [hb]
    · simp [hb, Ne.symm hb]

/-- A value that is found is bound to its key. -/
lemma mem_bindings_of_get {m : Assoc κ ν} {k : κ} {v : ν} (h : m.get k = some v) :
    (k, v) ∈ m.bindings := by
  obtain ⟨b, hb, rfl⟩ := Option.map_eq_some_iff.1 h
  have hkey : b.1 = k := by simpa using find?_some hb
  rw [← hkey]
  exact mem_of_find?_eq_some hb

lemma mem_keys_of_get {m : Assoc κ ν} {k : κ} {v : ν} (h : m.get k = some v) : k ∈ m.keys := by
  rw [mem_keys_iff, h]
  rfl

/-! ### What holds of every binding -/

section Values

variable {P : κ → ν → Prop} {m : Assoc κ ν} {k : κ} {v : ν}

/-- Every key and the value it holds have the property. -/
def Values (P : κ → ν → Prop) (m : Assoc κ ν) : Prop := ∀ k v, m.get k = some v → P k v

lemma values_empty : (empty : Assoc κ ν).Values P := by
  intro k v h
  cases h

lemma Values.set (h : m.Values P) (hv : P k v) : (m.set k v).Values P := by
  intro k' v' hget
  rw [get_set] at hget
  split at hget
  · rename_i hkey
    cases hget
    exact hkey ▸ hv
  · exact h k' v' hget

lemma Values.setIfAbsent (h : m.Values P) (hv : P k v) : (m.setIfAbsent k v).Values P := by
  rw [Assoc.setIfAbsent]
  split
  · exact h
  · exact h.set hv

/-- What each entry of a list adds has the property, so all of them together have it. -/
lemma Values.foldl {α : Type*} {f : Assoc κ ν → α → Assoc κ ν} {l : List α} (h : m.Values P)
    (step : ∀ m : Assoc κ ν, m.Values P → ∀ a ∈ l, (f m a).Values P) : (l.foldl f m).Values P :=
  List.foldlRecOn l f h step

end Values

/-- A map built from entries with different keys holds the value of each. -/
lemma get_foldl_set {α : Type*} (key : α → κ) (value : α → ν) {l : List α} (hkeys : (l.map key).Nodup)
    (m : Assoc κ ν) {a : α} (ha : a ∈ l) :
    (l.foldl (fun m a => m.set (key a) (value a)) m).get (key a) = some (value a) := by
  -- the keys of the other entries are different, so the binding stays
  have hkeep : ∀ (l : List α) (m : Assoc κ ν), (∀ b ∈ l, key b ≠ key a) →
      (l.foldl (fun m a => m.set (key a) (value a)) m).get (key a) = m.get (key a) := by
    intro l
    induction l with
    | nil => exact fun m _ => rfl
    | cons b l ih =>
      intro m hne
      obtain ⟨hb, hrest⟩ := forall_mem_cons.1 hne
      rw [foldl_cons, ih _ hrest, get_set, if_neg hb.symm]
  obtain ⟨before, after, rfl⟩ := append_of_mem ha
  rw [foldl_append, foldl_cons, hkeep, get_set, if_pos rfl]
  rw [map_append, map_cons] at hkeys
  intro b hb heq
  have hafter := (nodup_cons.1 hkeys.of_append_right).1
  exact hafter (heq ▸ mem_map_of_mem hb)

/-! ### Maps with one binding for a key -/

section Distinct

variable {m : Assoc κ ν} {k : κ} {v : ν}

/-- No key has two bindings. -/
def Distinct (m : Assoc κ ν) : Prop := m.keys.Nodup

omit [DecidableEq κ] in
lemma distinct_empty : (empty : Assoc κ ν).Distinct := nodup_nil

lemma mem_bindings_set {b : κ × ν} (h : b ∈ (m.set k v).bindings) :
    b = (k, v) ∨ b ∈ m.bindings := by
  rcases mem_cons.1 h with rfl | h
  · exact Or.inl rfl
  · exact Or.inr (mem_of_mem_filter h)

lemma Distinct.set (h : m.Distinct) : (m.set k v).Distinct := by
  rw [Distinct, keys, Assoc.set, map_cons, nodup_cons]
  constructor
  · intro hmem
    obtain ⟨b, hb, hkey⟩ := mem_map.1 hmem
    exact of_decide_eq_true (mem_filter.1 hb).2 hkey
  · exact h.sublist (filter_sublist.map Prod.fst)

end Distinct

end Assoc

end Lib
