import Mathlib.Data.List.Sort
import Mathlib.Tactic

/-!
Rows ranked by a key, the largest first, and cut off at a limit. The order of rows with the same key is
left open: a `Ranking` is any function that could have made the order.

* `drop_ranked`: of one row more than the limit, one with the smallest key falls off.
* `falls_off_iff`: the same row falls off in every ranking exactly when its key is smaller than all
  others; `preferring` is the ranking that shows it.
* `perm_take_ranked`, `lt_of_mem_drop`: of rows with distinct keys those with the largest stay.
* `replaced_iff`: a new row joins, what comes after the limit goes, and then an old row goes: when this
  amounts to putting the new row in the place of the old one.
-/

namespace Lib

open List

variable {ρ κ : Type*} [LinearOrder κ] {key : ρ → κ}

/-- An order of rows by a key, the largest first. -/
structure Ranking (key : ρ → κ) where
  ranked : List ρ → List ρ
  perm : ∀ l, (ranked l).Perm l
  sorted : ∀ l, (ranked l).Pairwise fun a b => key b ≤ key a

namespace Ranking

/-- Of two rows with the same key the one that is preferred comes first. -/
def Before (key : ρ → κ) (p : ρ → Bool) (a b : ρ) : Prop :=
  key b < key a ∨ key b = key a ∧ (p a = true ∨ p b = false)

instance (key : ρ → κ) (p : ρ → Bool) : DecidableRel (Before key p) :=
  fun _ _ => inferInstanceAs (Decidable (_ ∨ _))

instance (key : ρ → κ) (p : ρ → Bool) : Std.Total (Before key p) where
  total a b := by
    obtain hlt | heq | hlt := lt_trichotomy (key a) (key b)
    · exact Or.inr (Or.inl hlt)
    · cases hp : p a with
      | true => exact Or.inl (Or.inr ⟨heq.symm, Or.inl hp⟩)
      | false => exact Or.inr (Or.inr ⟨heq, Or.inr hp⟩)
    · exact Or.inl (Or.inl hlt)

instance (key : ρ → κ) (p : ρ → Bool) : IsTrans ρ (Before key p) where
  trans a b c := by
    rintro (hab | ⟨hab, hp⟩) (hbc | ⟨hbc, hp'⟩)
    · exact Or.inl (hbc.trans hab)
    · exact Or.inl (hbc ▸ hab)
    · exact Or.inl (hab ▸ hbc)
    · refine Or.inr ⟨hbc.trans hab, ?_⟩
      obtain hp | hp := hp
      · exact Or.inl hp
      · exact Or.inr (hp'.resolve_left (by simp [hp]))

/-- The ranking in which some rows are preferred among those with the same key. -/
def preferring (key : ρ → κ) (p : ρ → Bool) : Ranking key where
  ranked l := l.insertionSort (Before key p)
  perm l := perm_insertionSort _ l
  sorted l := (pairwise_insertionSort (Before key p) l).imp fun h => by
    obtain hlt | ⟨heq, -⟩ := h
    · exact hlt.le
    · exact heq.le

variable (R : Ranking key) {l : List ρ} {n : ℕ}

lemma drop_ranked_of_le (h : l.length ≤ n) : (R.ranked l).drop n = [] :=
  drop_eq_nil_of_le ((R.perm l).length_eq.trans_le h)

/-- One row falls off. -/
lemma exists_drop_ranked (h : l.length = n + 1) :
    ∃ d, R.ranked l = (R.ranked l).take n ++ [d] ∧ (R.ranked l).drop n = [d] := by
  have hlen : ((R.ranked l).drop n).length = 1 := by
    rw [length_drop, (R.perm l).length_eq, h]
    omega
  obtain ⟨d, hd⟩ := length_eq_one_iff.1 hlen
  refine ⟨d, ?_, hd⟩
  conv_lhs => rw [← take_append_drop n (R.ranked l), hd]

/-- It is one with the smallest key. -/
lemma drop_ranked (h : l.length = n + 1) :
    ∃ d ∈ l, (R.ranked l).drop n = [d] ∧ ∀ x ∈ l, key d ≤ key x := by
  obtain ⟨d, hsplit, hd⟩ := R.exists_drop_ranked h
  have hmem : d ∈ R.ranked l := hsplit ▸ mem_append_right _ mem_cons_self
  refine ⟨d, (R.perm l).mem_iff.1 hmem, hd, fun x hx => ?_⟩
  have hsorted := R.sorted l
  rw [hsplit, pairwise_append] at hsorted
  have hx' : x ∈ (R.ranked l).take n ++ [d] := hsplit ▸ (R.perm l).mem_iff.2 hx
  obtain hx' | hx' := mem_append.1 hx'
  · exact hsorted.2.2 x hx' d mem_cons_self
  · rw [mem_singleton.1 hx']

/-- The preferred row does not fall off if another one has no larger key. -/
lemma drop_preferring_ne {r x : ρ} {p : ρ → Bool} (hr : p r = true) (hx : p x = false) (hmem : x ∈ l)
    (hle : key x ≤ key r) (h : l.length = n + 1) :
    ((preferring key p).ranked l).drop n ≠ [r] := by
  intro hdrop
  obtain ⟨d, hsplit, hd⟩ := (preferring key p).exists_drop_ranked h
  obtain rfl : d = r := by simpa using hd.symm.trans hdrop
  have hsorted : ((preferring key p).ranked l).Pairwise (Before key p) :=
    pairwise_insertionSort (Before key p) l
  rw [hsplit, pairwise_append] at hsorted
  have hx' : x ∈ ((preferring key p).ranked l).take n ++ [d] :=
    hsplit ▸ ((preferring key p).perm l).mem_iff.2 hmem
  obtain hx' | hx' := mem_append.1 hx'
  · obtain hlt | ⟨-, hp | hp⟩ := hsorted.2.2 x hx' d mem_cons_self
    · exact absurd hle (not_le.2 hlt)
    · simp [hx] at hp
    · simp [hr] at hp
  · rw [mem_singleton.1 hx', hr] at hx
    cases hx

/-- **Which row falls off**, of one row more than the limit: the same in every ranking exactly when its
key is the smallest. -/
theorem falls_off_iff [DecidableEq ρ] {r : ρ} (hr : r ∈ l) (h : l.length = n + 1) :
    (∀ R : Ranking key, (R.ranked l).drop n = [r]) ↔ ∀ x ∈ l, x ≠ r → key r < key x := by
  constructor
  · intro hall x hx hne
    by_contra hle
    have hdrop := hall (preferring key fun y => y = r)
    exact drop_preferring_ne (by simp) (by simpa using hne) hx (not_lt.1 hle) h hdrop
  · intro hmin R
    obtain ⟨d, hd, hdrop, hle⟩ := R.drop_ranked h
    by_cases hdr : d = r
    · rw [hdrop, hdr]
    · exact absurd (hle r hr) (not_le.2 (hmin d hd hdr))

/-! ### What a limit keeps -/

/-- What does not fall off comes before the limit. -/
lemma perm_take_ranked [DecidableEq ρ] (h : l.Nodup) :
    (l.filter (· ∉ (R.ranked l).drop n)).Perm ((R.ranked l).take n) := by
  have hnodup := (R.perm l).nodup_iff.2 h
  rw [← take_append_drop n (R.ranked l)] at hnodup
  have htake : ∀ a ∈ (R.ranked l).take n, a ∉ (R.ranked l).drop n :=
    fun a ha hdrop => disjoint_of_nodup_append hnodup ha hdrop
  have hfilter : (R.ranked l).filter (· ∉ (R.ranked l).drop n) = (R.ranked l).take n := by
    conv_lhs => rw [← take_append_drop n (R.ranked l), filter_append]
    rw [filter_eq_self.2 (by simpa using htake), filter_eq_nil_iff.2 (by simp), append_nil]
  exact hfilter ▸ (R.perm l).symm.filter _

/-- Of distinct keys those that fall off are smaller than those that stay. -/
lemma lt_of_mem_drop {a b : ρ} (h : (l.map key).Nodup) (ha : a ∈ (R.ranked l).take n)
    (hb : b ∈ (R.ranked l).drop n) : key b < key a := by
  have hsorted := R.sorted l
  have hne := ((R.perm l).map key).nodup_iff.2 h
  rw [← take_append_drop n (R.ranked l), pairwise_append] at hsorted
  rw [Nodup, pairwise_map, ← take_append_drop n (R.ranked l), pairwise_append] at hne
  exact lt_of_le_of_ne (hsorted.2.2 a ha b hb) (hne.2.2 a ha b hb).symm

/-! ### Putting a row in the place of another -/

section Replace

variable [DecidableEq ρ] {S excess : List ρ} {row new : ρ}

/-- What is left when a new row has joined, and the excess and the old row have gone. -/
def remaining (S excess : List ρ) (row new : ρ) : List ρ :=
  (S ++ [new]).filter fun x => x ∉ excess ∧ x ≠ row

/-- The others stay, and so does the number of rows. -/
def Replaced (S excess : List ρ) (row new : ρ) : Prop :=
  (∀ x ∈ S, x ≠ row → x ∈ remaining S excess row new) ∧
    (remaining S excess row new).length = S.length

/-- If nothing else is in the excess, the new row takes the place of the old one. -/
lemma replaced_of_excess (hnodup : (S ++ [new]).Nodup) (hrow : row ∈ S)
    (h : ∀ d ∈ excess, d = row) : Replaced S excess row new := by
  have hne : new ≠ row := by
    rintro rfl
    exact disjoint_of_nodup_append hnodup hrow mem_cons_self
  have hremaining : remaining S excess row new = S.erase row ++ [new] := by
    have hfilter : remaining S excess row new = (S ++ [new]).filter fun x => x ≠ row := by
      refine filter_congr fun x _ => decide_eq_decide.2 ?_
      exact ⟨fun hx => hx.2, fun hx => ⟨fun hmem => hx (h x hmem), hx⟩⟩
    rw [hfilter, filter_append, List.Nodup.erase_eq_filter hnodup.of_append_left,
      filter_singleton, decide_eq_true hne, cond_true]
    exact congrArg (· ++ [new]) (filter_congr fun x _ => Bool.eq_iff_iff.2 (by simp))
  refine ⟨fun x hx hxrow => ?_, ?_⟩
  · rw [hremaining]
    exact mem_append_left _ ((mem_erase_of_ne hxrow).2 hx)
  · have hpos : 0 < S.length := length_pos_of_mem hrow
    rw [hremaining, length_append, length_erase_of_mem hrow, length_singleton]
    omega

/-- If it does, nothing else was in the excess: another row would be missing, and without the new one
there would be a row less. -/
lemma excess_of_replaced (hrow : row ∈ S) (hexcess : ∀ d ∈ excess, d ∈ S ++ [new])
    (h : Replaced S excess row new) : ∀ d ∈ excess, d = row := by
  intro d hd
  by_contra hne
  obtain hdS | hnew := mem_append.1 (hexcess d hd)
  · have hstays : d ∉ excess := by
      have hmem := (mem_filter.1 (h.1 d hdS hne)).2
      exact (of_decide_eq_true hmem).1
    exact hstays hd
  · obtain rfl := mem_singleton.1 hnew
    have hlt : (remaining S excess row d).length < S.length := by
      rw [remaining, filter_append, filter_singleton, decide_eq_false (by simp [hd])]
      have hdrop : ∃ x ∈ S, ¬ decide (x ∉ excess ∧ x ≠ row) = true := ⟨row, hrow, by simp⟩
      simpa using length_filter_lt_length_iff_exists.2 hdrop
    exact hlt.ne h.2

/-- **Replacing a row under a limit.** Whatever the ranking, a new row takes the place of an old one,
exactly when there is room for both or the old one has the smallest key of all. -/
theorem replaced_iff (hnodup : (S ++ [new]).Nodup) (hrow : row ∈ S) (hlen : S.length ≤ n) :
    (∀ R : Ranking key, Replaced S ((R.ranked (S ++ [new])).drop n) row new) ↔
      S.length < n ∨ ∀ x ∈ S ++ [new], x ≠ row → key row < key x := by
  have hsub (R : Ranking key) : ∀ d ∈ (R.ranked (S ++ [new])).drop n, d ∈ S ++ [new] :=
    fun d hd => (R.perm _).mem_iff.1 (mem_of_mem_drop hd)
  have hexcess (R : Ranking key) : Replaced S ((R.ranked (S ++ [new])).drop n) row new ↔
      ∀ d ∈ (R.ranked (S ++ [new])).drop n, d = row :=
    ⟨excess_of_replaced hrow (hsub R), replaced_of_excess hnodup hrow⟩
  simp only [hexcess]
  obtain hlt | heq := hlen.lt_or_eq
  · have hroom : (S ++ [new]).length ≤ n := by simpa using hlt
    refine iff_of_true (fun R => ?_) (Or.inl hlt)
    rw [R.drop_ranked_of_le hroom]
    simp
  · have hfull : (S ++ [new]).length = n + 1 := by simp [heq]
    rw [← falls_off_iff (mem_append_left _ hrow) hfull]
    simp only [heq, lt_irrefl, false_or]
    refine forall_congr' fun R => ?_
    obtain ⟨d, -, hd⟩ := R.exists_drop_ranked hfull
    rw [hd]
    simp

end Replace

end Ranking

end Lib
