import OpenDefender.Lib.FirstMatch
import OpenDefender.Lib.Table

/-!
Rows with unique keys in the order of their keys, and cutting them into blocks of one size.

* Around a row of the sorted list: the rows with a greater key, sorted, are those behind it
  (`sortBy_greater`), and the rows with a smaller key, sorted downwards, are those before it, the nearest
  first (`sortBy_smaller`).
* `block n i l` is the `i`-th block of `n` elements. `exists_last_of_block` and `exists_first_of_block` find the
  element at which the list is cut behind or before the block, and `reverse_take_reverse` is the block
  that ends where another one starts.
-/

namespace Lib.Keyset

open FirstMatch Table List

/-! ### Sorted rows -/

section Sorted

variable {ρ κ : Type*} [LinearOrder κ] {key : ρ → κ} {rows l before after : List ρ} {r : ρ}

/-- The keys increase strictly. -/
def Increasing (key : ρ → κ) (l : List ρ) : Prop :=
  l.Pairwise fun a b => key a < key b

lemma sortBy_perm (key : ρ → κ) (rows : List ρ) : (sortBy key rows).Perm rows :=
  perm_insertionSort _ rows

lemma increasing_sortBy (h : Unique key rows) : Increasing key (sortBy key rows) := by
  have hunique : Unique key (sortBy key rows) := ((sortBy_perm key rows).map key).nodup_iff.2 h
  have hne : (sortBy key rows).Pairwise fun a b => key a ≠ key b := pairwise_map.1 hunique
  exact ((orderedBy_sortBy key rows).and hne).imp fun h => lt_of_le_of_ne h.1 h.2

/-- There is one way to sort rows by unique keys. -/
lemma Increasing.sortBy_eq (h : Increasing key l) (hperm : l.Perm rows) : sortBy key rows = l := by
  have hle : l.Pairwise fun a b => key a ≤ key b := h.imp le_of_lt
  have hunique : Unique key l := pairwise_map.2 (h.imp ne_of_lt)
  refine List.Perm.eq_of_pairwise (fun a b ha hb hab hba => ?_) (orderedBy_sortBy key rows) hle
    ((sortBy_perm key rows).trans hperm.symm)
  have hmem : a ∈ l := (hperm.mem_iff).2 (mem_sortBy.1 ha)
  exact hunique.eq hmem hb (le_antisymm hab hba)

/-- Sorting downwards reverses the list. -/
lemma sortBy_toDual (h : Unique key rows) :
    sortBy (OrderDual.toDual ∘ key) rows = (sortBy key rows).reverse := by
  refine Increasing.sortBy_eq ?_ ((reverse_perm _).trans (sortBy_perm key rows))
  exact pairwise_reverse.2 (increasing_sortBy h)

/-- **Behind a row** are the rows of greater keys. -/
theorem sortBy_greater (h : Unique key rows) (hsorted : sortBy key rows = before ++ r :: after) :
    sortBy key (rows.filter fun x => key r < key x) = after := by
  have hincreasing := increasing_sortBy h
  rw [hsorted, Increasing, pairwise_append, pairwise_cons] at hincreasing
  obtain ⟨-, ⟨hafter, hsuffix⟩, hbefore⟩ := hincreasing
  refine Increasing.sortBy_eq hsuffix ?_
  have hfilter := (sortBy_perm key rows).filter fun x => key r < key x
  have hnone : before.filter (fun x => key r < key x) = [] := by
    rw [filter_eq_nil_iff]
    intro x hx
    simpa using (hbefore x hx r mem_cons_self).le
  have hall : after.filter (fun x => key r < key x) = after :=
    filter_eq_self.2 fun x hx => by simpa using hafter x hx
  rw [hsorted, filter_append, hnone, filter_cons_of_neg (by simp), hall] at hfilter
  exact hfilter

/-- **Before a row** are the rows of smaller keys. -/
theorem sortBy_smaller (h : Unique key rows) (hsorted : sortBy key rows = before ++ r :: after) :
    sortBy (OrderDual.toDual ∘ key) (rows.filter fun x => key x < key r) = before.reverse := by
  have hdown : sortBy (OrderDual.toDual ∘ key) rows = after.reverse ++ r :: before.reverse := by
    rw [sortBy_toDual h, hsorted]
    simp
  have hgreater : sortBy (OrderDual.toDual ∘ key)
      (rows.filter fun x => (OrderDual.toDual ∘ key) r < (OrderDual.toDual ∘ key) x) =
        before.reverse := sortBy_greater h hdown
  exact hgreater

end Sorted

/-! ### Blocks -/

section Blocks

variable {α : Type*} {l : List α} {n i : ℕ}

/-- The `i`-th block of `n` elements. -/
def block (n i : ℕ) (l : List α) : List α := (l.drop (i * n)).take n

lemma length_block_le : (block n i l).length ≤ n := length_take_le _ _

lemma block_append_drop : block n i l ++ l.drop ((i + 1) * n) = l.drop (i * n) := by
  rw [block, Nat.add_one_mul, ← drop_drop, take_append_drop]

/-- What comes before a block, the block and what follows. -/
lemma take_append_block (n i : ℕ) (l : List α) :
    l.take (i * n) ++ block n i l ++ l.drop ((i + 1) * n) = l := by
  rw [append_assoc, block_append_drop, take_append_drop]

lemma block_ne_nil (hn : 0 < n) (h : i * n < l.length) : block n i l ≠ [] := by
  rw [block, ne_eq, take_eq_nil_iff, drop_eq_nil_iff, not_or]
  omega

/-- The last element of a block, with what follows behind it. -/
lemma exists_last_of_block (hn : 0 < n) (h : i * n < l.length) :
    ∃ before r, (block n i l).getLast? = some r ∧ l = before ++ r :: l.drop ((i + 1) * n) := by
  obtain ⟨init, r, hblock⟩ : ∃ init r, block n i l = init ++ [r] := by
    rcases eq_nil_or_concat (block n i l) with hnil | ⟨init, r, hconcat⟩
    · exact absurd hnil (block_ne_nil hn h)
    · exact ⟨init, r, by rw [hconcat, concat_eq_append]⟩
  refine ⟨l.take (i * n) ++ init, r, by rw [hblock]; simp, ?_⟩
  have hl := take_append_block n i l
  rw [hblock] at hl
  simpa using hl.symm

/-- The first element of a block, with what comes before it. -/
lemma exists_first_of_block (hn : 0 < n) (h : i * n < l.length) :
    ∃ r after, (block n i l).head? = some r ∧ l = l.take (i * n) ++ r :: after := by
  obtain ⟨r, rest, hblock⟩ := exists_cons_of_ne_nil (block_ne_nil hn h)
  refine ⟨r, rest ++ l.drop ((i + 1) * n), by rw [hblock]; rfl, ?_⟩
  have hl := take_append_block n i l
  rw [hblock] at hl
  simpa using hl.symm

/-- The block that ends where the next one starts. -/
lemma reverse_take_reverse (h : (i + 1) * n ≤ l.length) :
    ((l.take ((i + 1) * n)).reverse.take n).reverse = block n i l := by
  have hlength : (l.take ((i + 1) * n)).length = i * n + n := by
    rw [length_take, Nat.add_one_mul] at *
    omega
  rw [take_reverse, reverse_reverse, hlength, Nat.add_sub_cancel, block, drop_take]
  congr 1
  rw [Nat.add_one_mul]
  omega

end Blocks

end Lib.Keyset
