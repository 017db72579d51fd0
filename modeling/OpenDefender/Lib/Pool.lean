import Mathlib.Tactic

/-!
Processes under way, kept in a list and known by their position: one joins at the end, one is replaced by
its next stage (`List.set`), one leaves (`List.eraseIdx`).

The rules carry over what holds of every process (`forall_set`, `forall_concat`, `forall_eraseIdx`) and
what holds of every two of them (`pairwise_set`, `rel_of_mem_eraseIdx`). What a process is about does not
change with its stage (`map_set`, `filterMap_set`), and one that leaves takes it away (`perm_eraseIdx`).
-/

namespace Lib.Pool

open List

variable {α : Type*} {l : List α} {i : ℕ} {a b : α} {P : α → Prop} {R : α → α → Prop}

/-- After a replacement there are the new process and the others. -/
lemma mem_set_cases (h : b ∈ l.set i a) : b = a ∨ b ∈ l.eraseIdx i := by
  obtain ⟨j, hj⟩ := mem_iff_getElem?.1 h
  rw [getElem?_set] at hj
  split at hj
  · split at hj
    · exact Or.inl (Option.some.inj hj).symm
    · cases hj
  · rename_i hne
    exact Or.inr (mem_eraseIdx_iff_getElem?.2 ⟨j, Ne.symm hne, hj⟩)

lemma forall_eraseIdx (h : ∀ b ∈ l, P b) : ∀ b ∈ l.eraseIdx i, P b :=
  fun b hb => h b (mem_of_mem_eraseIdx hb)

lemma forall_set (ha : P a) (h : ∀ b ∈ l.eraseIdx i, P b) : ∀ b ∈ l.set i a, P b := by
  intro b hb
  obtain rfl | hb := mem_set_cases hb
  · exact ha
  · exact h b hb

lemma forall_concat (ha : P a) (h : ∀ b ∈ l, P b) : ∀ b ∈ l ++ [a], P b := by
  intro b hb
  obtain hb | hb := mem_append.1 hb
  · exact h b hb
  · exact mem_singleton.1 hb ▸ ha

/-- After a replacement every process was there before or is as the new one is. -/
lemma mem_set_or (ha : P a) : ∀ b ∈ l.set i a, b ∈ l ∨ P b :=
  forall_set (Or.inr ha) (forall_eraseIdx fun _ hb => Or.inl hb)

lemma mem_concat_or (ha : P a) : ∀ b ∈ l ++ [a], b ∈ l ∨ P b :=
  forall_concat (Or.inr ha) fun _ hb => Or.inl hb

/-- The one that leaves and the others. -/
lemma perm_eraseIdx (h : l[i]? = some a) : l.Perm (a :: l.eraseIdx i) := by
  obtain ⟨hi, rfl⟩ := List.getElem?_eq_some_iff.1 h
  exact (List.getElem_cons_eraseIdx_perm hi).symm

section About

variable {β : Type*} (h : l[i]? = some a)

include h

/-- The next stage of a process is about the same. -/
lemma map_set {f : α → β} (hf : f b = f a) : (l.set i b).map f = l.map f := by
  obtain ⟨hi, rfl⟩ := List.getElem?_eq_some_iff.1 h
  have hi' : i < (l.map f).length := by simpa using hi
  have hget : (l.map f)[i] = f l[i] := List.getElem_map f
  rw [map_set, hf, ← hget]
  exact set_getElem_self hi'

lemma filterMap_set {f : α → Option β} (hf : f b = f a) :
    (l.set i b).filterMap f = l.filterMap f := by
  have hmap (l : List α) : l.filterMap f = (l.map f).filterMap id := by
    rw [filterMap_map, Function.id_comp]
  rw [hmap, hmap, map_set h hf]

/-- A process that is about something from its next stage on. -/
lemma perm_filterMap_set {f : α → Option β} {c : β} (ha : f a = none) (hb : f b = some c) :
    ((l.set i b).filterMap f).Perm (c :: l.filterMap f) := by
  obtain ⟨hi, -⟩ := List.getElem?_eq_some_iff.1 h
  have hold := (perm_eraseIdx h).filterMap f
  have hnew := (perm_eraseIdx (getElem?_set_self hi (a := b))).filterMap f
  rw [filterMap_cons_none ha] at hold
  rw [eraseIdx_set_eq, filterMap_cons_some hb] at hnew
  exact hnew.trans (hold.symm.cons c)

end About

/-- A process is related to every other one. -/
lemma rel_of_mem_eraseIdx (hsymm : ∀ a b, R a b → R b a) (h : l.Pairwise R) (hi : l[i]? = some a)
    (hb : b ∈ l.eraseIdx i) : R a b := by
  obtain ⟨j, hne, hj⟩ := mem_eraseIdx_iff_getElem?.1 hb
  rw [pairwise_iff_getElem] at h
  obtain ⟨hilt, rfl⟩ := List.getElem?_eq_some_iff.1 hi
  obtain ⟨hjlt, rfl⟩ := List.getElem?_eq_some_iff.1 hj
  obtain hlt | hlt := Nat.lt_or_gt_of_ne hne
  · exact hsymm _ _ (h j i hjlt hilt hlt)
  · exact h i j hilt hjlt hlt

lemma pairwise_set (hsymm : ∀ a b, R a b → R b a) (h : l.Pairwise R)
    (ha : ∀ b ∈ l.eraseIdx i, R a b) : (l.set i a).Pairwise R := by
  induction l generalizing i with
  | nil => exact .nil
  | cons x rest ih =>
    obtain ⟨hx, hrest⟩ := pairwise_cons.1 h
    cases i with
    | zero => exact .cons ha hrest
    | succ i =>
      obtain ⟨hax, ha⟩ := forall_mem_cons.1 ha
      exact .cons (forall_set (hsymm _ _ hax) (forall_eraseIdx hx)) (ih hrest ha)

end Lib.Pool
