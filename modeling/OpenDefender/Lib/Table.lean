import Mathlib.Tactic

/-!
Tables of rows with a primary key: lists in which no two rows have the same key.

* `Unique key rows` is the primary key; changes that leave the keys alone, appended rows with a new key
  and deletions keep it.
* `only_one_iff` and `at_most_one_iff` say by the keys what it means that one row, or at most one,
  meets a condition.
* `overlay key written rows` puts new versions of some rows in the place of the old ones.
* `fixed_of_onto`: a map onto the keys that makes every key it moves smaller moves none.
* `mapM_some`: what comes of reading the rows, if every row can be read.
-/

namespace Lib.Table

open List

variable {ρ κ : Type*} {key : ρ → κ} {rows : List ρ}

/-- No two rows have the same key. -/
def Unique (key : ρ → κ) (rows : List ρ) : Prop := (rows.map key).Nodup

instance [DecidableEq κ] (key : ρ → κ) (rows : List ρ) : Decidable (Unique key rows) :=
  inferInstanceAs (Decidable (List.Nodup _))

/-- The row is known by its key. -/
lemma Unique.eq (h : Unique key rows) {r r' : ρ} (hr : r ∈ rows) (hr' : r' ∈ rows)
    (hkey : key r = key r') : r = r' :=
  inj_on_of_nodup_map h hr hr' hkey

/-- Looking for a key finds its row. -/
lemma Unique.find?_key [DecidableEq κ] (h : Unique key rows) {r : ρ} (hr : r ∈ rows) :
    (rows.find? fun row => key row = key r) = some r := by
  cases hfind : rows.find? fun row => key row = key r with
  | none => simpa using find?_eq_none.1 hfind r hr
  | some found =>
    have hkey : key found = key r := by simpa using find?_some hfind
    rw [h.eq (mem_of_find?_eq_some hfind) hr hkey]

/-- Only one row has its key. -/
lemma Unique.filter_key [DecidableEq κ] (h : Unique key rows) {r : ρ} (hr : r ∈ rows) :
    (rows.filter fun row => key row = key r) = [r] := by
  obtain ⟨before, after, rfl⟩ := append_of_mem hr
  rw [Unique, map_append, map_cons, nodup_middle, nodup_cons, mem_append, not_or] at h
  have hbefore : (before.filter fun row => key row = key r) = [] :=
    filter_eq_nil_iff.2 fun row hrow heq => h.1.1 (of_decide_eq_true heq ▸ mem_map_of_mem hrow)
  have hafter : (after.filter fun row => key row = key r) = [] := filter_eq_nil_iff.2 fun row hrow heq =>
      h.1.2 (of_decide_eq_true heq ▸ mem_map_of_mem hrow)
  simp [filter_append, hbefore, hafter]

lemma Unique.nodup (h : Unique key rows) : rows.Nodup := List.Nodup.of_map key h

lemma map_key_map {f : ρ → ρ} (hf : ∀ r, key (f r) = key r) (rows : List ρ) :
    (rows.map f).map key = rows.map key := by
  rw [map_map]
  exact map_congr_left fun r _ => hf r

lemma Unique.map (h : Unique key rows) {f : ρ → ρ} (hf : ∀ r, key (f r) = key r) :
    Unique key (rows.map f) := by
  rw [Unique, map_key_map hf]
  exact h

lemma Unique.filter (h : Unique key rows) (p : ρ → Bool) : Unique key (rows.filter p) :=
  h.sublist (filter_sublist.map key)

lemma Unique.concat (h : Unique key rows) {r : ρ} (hr : key r ∉ rows.map key) :
    Unique key (rows ++ [r]) := by
  rw [Unique, map_append, nodup_append]
  refine ⟨h, nodup_singleton _, ?_⟩
  intro k hk k' hk' heq
  obtain rfl := mem_singleton.1 hk'
  exact hr (heq ▸ hk)

/-- A change that takes some rows out of a selection and leaves the others alone. -/
lemma filter_map_of_take_out {f : ρ → ρ} {p q : ρ → Bool}
    (hp : ∀ r ∈ rows, p (f r) = (p r && !q r)) (hf : ∀ r ∈ rows, p (f r) = true → f r = r) :
    (rows.map f).filter p = (rows.filter p).filter fun r => !q r := by
  have hsame : ∀ r ∈ rows.filter (p ∘ f), f r = r := fun r hr =>
    hf r (mem_of_mem_filter hr) (mem_filter.1 hr).2
  calc (rows.map f).filter p
      = (rows.filter (p ∘ f)).map f := filter_map
    _ = rows.filter (p ∘ f) := (map_congr_left hsame).trans (map_id' _)
    _ = rows.filter fun r => p r && !q r := filter_congr hp
    _ = (rows.filter p).filter fun r => !q r := by
        rw [filter_filter]
        exact filter_congr fun r _ => Bool.and_comm _ _

/-! ### How many rows meet a condition -/

/-- At most one row meets the condition exactly when all that do have the same key. -/
lemma at_most_one_iff (h : Unique key rows) {p : ρ → Prop} [DecidablePred p] :
    (rows.filter fun r => p r).length ≤ 1 ↔ ∀ r ∈ rows, ∀ r' ∈ rows, p r → p r' → key r = key r' := by
  constructor
  · intro hlen r hr r' hr' hp hp'
    have hmem : r ∈ rows.filter fun r => p r := mem_filter.2 ⟨hr, decide_eq_true hp⟩
    have hmem' : r' ∈ rows.filter fun r => p r := mem_filter.2 ⟨hr', decide_eq_true hp'⟩
    obtain ⟨x, hx⟩ := length_eq_one_iff.1
      (le_antisymm hlen (length_pos_of_mem hmem))
    rw [hx, mem_singleton] at hmem hmem'
    rw [hmem, hmem']
  · intro hall
    refine le_of_not_gt fun hlt => ?_
    -- two rows of the selection would be one row twice
    obtain ⟨x, y, rest, hxy⟩ : ∃ x y rest, rows.filter (fun r => p r) = x :: y :: rest := by
      match hsel : rows.filter (fun r => p r), hlt with
      | x :: y :: rest, _ => exact ⟨x, y, rest, rfl⟩
    have hx : x ∈ rows.filter fun r => p r := by simp [hxy]
    have hy : y ∈ rows.filter fun r => p r := by simp [hxy]
    have heq : x = y := h.eq (mem_of_mem_filter hx) (mem_of_mem_filter hy)
      (hall x (mem_of_mem_filter hx) y (mem_of_mem_filter hy)
        (of_decide_eq_true (mem_filter.1 hx).2) (of_decide_eq_true (mem_filter.1 hy).2))
    have hnodup : (x :: y :: rest).Nodup := hxy ▸ h.nodup.filter _
    exact (nodup_cons.1 hnodup).1 (heq ▸ mem_cons_self)

/-- What at most one row meets is found in any order. -/
lemma find?_perm {rows' : List ρ} {p : ρ → Bool} (hperm : rows'.Perm rows)
    (h : (rows.filter p).length ≤ 1) : rows'.find? p = rows.find? p := by
  have hfilter : (rows'.filter p).Perm (rows.filter p) := hperm.filter p
  rw [← head?_filter, ← head?_filter]
  obtain hzero | hone := Nat.le_one_iff_eq_zero_or_eq_one.1 h
  · rw [length_eq_zero_iff.1 hzero] at hfilter ⊢
    rw [perm_nil.1 hfilter]
  · obtain ⟨r, hr⟩ := length_eq_one_iff.1 hone
    rw [hr] at hfilter ⊢
    rw [perm_singleton.1 hfilter]

/-- Exactly one row meets the condition exactly when there is a key whose row alone does. -/
lemma only_one_iff (h : Unique key rows) {p : ρ → Prop} [DecidablePred p] :
    (rows.filter fun r => p r).length = 1 ↔ ∃ k ∈ rows.map key, ∀ r ∈ rows, (p r ↔ key r = k) := by
  constructor
  · intro hlen
    obtain ⟨x, hx⟩ := length_eq_one_iff.1 hlen
    have hmem : x ∈ rows.filter fun r => p r := by simp [hx]
    obtain ⟨hrow, hp⟩ := mem_filter.1 hmem
    refine ⟨key x, mem_map_of_mem hrow, fun r hr => ⟨fun hpr => ?_, fun hkey => ?_⟩⟩
    · exact (at_most_one_iff h).1 hlen.le r hr x hrow hpr (of_decide_eq_true hp)
    · exact h.eq hr hrow hkey ▸ of_decide_eq_true hp
  · rintro ⟨k, hk, hiff⟩
    obtain ⟨x, hx, rfl⟩ := mem_map.1 hk
    refine le_antisymm ((at_most_one_iff h).2 fun r hr r' hr' hp hp' => ?_) ?_
    · rw [(hiff r hr).1 hp, (hiff r' hr').1 hp']
    · refine length_pos_of_mem (a := x) (mem_filter.2 ⟨hx, ?_⟩)
      exact decide_eq_true ((hiff x hx).2 rfl)

/-! ### New versions of rows -/

section Overlay

variable [DecidableEq κ] {written : List ρ}

/-- The rows, with the versions that have been written in the place of the old ones. -/
def overlay (key : ρ → κ) (written rows : List ρ) : List ρ :=
  rows.map fun r => (written.find? fun w => key w = key r).getD r

lemma key_written (written : List ρ) (r : ρ) :
    key ((written.find? fun w => key w = key r).getD r) = key r := by
  cases hfind : written.find? fun w => key w = key r with
  | none => rfl
  | some w => simpa using find?_some hfind

lemma Unique.overlay (h : Unique key rows) : Unique key (overlay key written rows) :=
  h.map (key_written written)

/-- A row of the new table is one that has been written, or an old one that has not. -/
lemma mem_overlay {r' : ρ} (h : r' ∈ overlay key written rows) :
    (r' ∈ written) ∨ r' ∈ rows ∧ ∀ w ∈ written, key w ≠ key r' := by
  obtain ⟨r, hr, rfl⟩ := mem_map.1 h
  cases hfind : written.find? fun w => key w = key r with
  | none => exact Or.inr ⟨hr, by simpa using hfind⟩
  | some w => exact Or.inl (mem_of_find?_eq_some hfind)

end Overlay

/-- A map onto the keys that makes every key it moves smaller moves none. -/
lemma fixed_of_onto {α : Type*} {keys : List α} {f : α → α} (size : α → ℕ)
    (hsmaller : ∀ a ∈ keys, f a ≠ a → size (f a) < size a) (honto : ∀ a ∈ keys, ∃ b ∈ keys, f b = a) :
    ∀ a ∈ keys, f a = a := by
  intro a ha
  by_contra hmoved
  -- a key that is moved comes from a larger one that is moved, so there are such keys of any size
  have hlarge : ∀ n, ∃ b ∈ keys, f b ≠ b ∧ n ≤ size b := by
    intro n
    induction n with
    | zero => exact ⟨a, ha, hmoved, Nat.zero_le _⟩
    | succ n ih =>
      obtain ⟨b, hb, hmoved', hn⟩ := ih
      obtain ⟨c, hc, rfl⟩ := honto b hb
      have hc' : f c ≠ c := fun hfixed => hmoved' (by rw [hfixed, hfixed])
      exact ⟨c, hc, hc', hn.trans_lt (hsmaller c hc hc')⟩
  obtain ⟨b, hb, -, hle⟩ := hlarge ((keys.map size).sum + 1)
  have hsum : size b ≤ (keys.map size).sum := single_le_sum (by simp) _ (mem_map_of_mem hb)
  omega

/-- Reading a list of which every row can be read. -/
lemma mapM_some {α β : Type} {f : α → Option β} {l : List α} (h : ∀ a ∈ l, (f a).isSome = true) :
    ∃ bs, l.mapM f = some bs ∧ ∀ b, b ∈ bs ↔ ∃ a ∈ l, f a = some b := by
  induction l with
  | nil => exact ⟨[], rfl, by simp⟩
  | cons a l ih =>
    obtain ⟨bs, hbs, hmem⟩ := ih fun a' ha' => h a' (mem_cons_of_mem _ ha')
    obtain ⟨b, hb⟩ := Option.isSome_iff_exists.1 (h a mem_cons_self)
    refine ⟨b :: bs, ?_, ?_⟩
    · rw [mapM_cons, hb, hbs]
      rfl
    · intro c
      rw [mem_cons, hmem]
      simp [hb, eq_comm]

end Lib.Table
