import Mathlib.Tactic
import Mathlib.Data.List.MinMax
import Mathlib.Data.List.Sort

/-!
The first match of a list in order of a key.

`find?` returns the first element that satisfies a test; in a list ordered by a key `f` that
element has the least key among all that satisfy it (`least_of_find?`). `orderedBy_sortBy` says
that the stable sort by the key produces such a list. `newest` is the first element of a list of rows
ordered by a time. The last section is about the first of the greatest elements, `List.argmax`.
-/

namespace Lib.FirstMatch

open List

variable {α β : Type*} [LinearOrder β]

/-- The keys of the list ascend. -/
def OrderedBy (f : α → β) (l : List α) : Prop :=
  l.Pairwise fun a b => f a ≤ f b

instance (f : α → β) (l : List α) : Decidable (OrderedBy f l) :=
  inferInstanceAs (Decidable (List.Pairwise _ _))

/-- A stable sort by the key (`sort_by_key`). -/
def sortBy (f : α → β) (l : List α) : List α :=
  l.insertionSort fun a b => f a ≤ f b

/-- Sorting by the key makes the keys ascend. -/
lemma orderedBy_sortBy (f : α → β) (l : List α) : OrderedBy f (sortBy f l) := by
  have htotal : Std.Total fun a b : α => f a ≤ f b := ⟨fun a b => le_total (f a) (f b)⟩
  have htrans : IsTrans α fun a b => f a ≤ f b := ⟨fun a b c => le_trans⟩
  exact pairwise_insertionSort (fun a b => f a ≤ f b) l

lemma mem_sortBy {f : α → β} {l : List α} {a : α} : a ∈ sortBy f l ↔ a ∈ l :=
  mem_insertionSort _

/-- **First match in an ordered list.** The element `find?` returns satisfies the test and has the
least key among the elements that do. -/
theorem least_of_find? {f : α → β} {p : α → Bool} {l : List α} {a : α} (hl : OrderedBy f l)
    (h : l.find? p = some a) : a ∈ l ∧ p a = true ∧ ∀ b ∈ l, p b = true → f a ≤ f b := by
  refine ⟨mem_of_find?_eq_some h, find?_some h, ?_⟩
  induction l with
  | nil => simp at h
  | cons c l ih =>
    have hc := pairwise_cons.1 hl
    intro b hb hpb
    by_cases hpc : p c = true
    · -- the head is the answer, and the keys behind it are not smaller
      obtain rfl : c = a := by simpa [hpc] using h
      rcases mem_cons.1 hb with rfl | hb
      · exact le_refl (f b)
      · exact hc.1 b hb
    · have hne : b ≠ c := by
        rintro rfl
        exact hpc hpb
      have hrest : l.find? p = some a := by simpa [hpc] using h
      exact ih hc.2 hrest b ((mem_cons.1 hb).resolve_left hne) hpb

/-! ### The first element of a sorted list -/

section Head

variable {r : α → α → Prop} [DecidableRel r]

lemma head?_insertionSort_cons (a : α) (l : List α) :
    ((a :: l).insertionSort r).head? =
      some (((l.insertionSort r).head?).elim a fun b => if r a b then a else b) := by
  rw [insertionSort_cons]
  cases l.insertionSort r with
  | nil => rfl
  | cons b rest =>
    rw [orderedInsert_cons]
    split <;> simp_all

variable [Std.Total r] [IsTrans α r]

/-- Sorting and selecting commute. -/
lemma filter_insertionSort (q : α → Bool) (l : List α) :
    (l.insertionSort r).filter q = (l.filter q).insertionSort r := by
  have hinsert : ∀ (a : α) (l : List α), l.Pairwise r → (l.orderedInsert r a).filter q =
      if q a then (l.filter q).orderedInsert r a else l.filter q := by
    intro a l hl
    induction l with
    | nil => simp [filter_cons]
    | cons b l ih =>
      obtain ⟨hb, hl⟩ := pairwise_cons.1 hl
      rw [orderedInsert_cons]
      by_cases hab : r a b
      · -- the element goes in front of all that are left
        have hall : ∀ c ∈ (b :: l).filter q, r a c := fun c hc => by
          rcases mem_cons.1 (mem_of_mem_filter hc) with rfl | hc
          · exact hab
          · exact IsTrans.trans _ _ _ hab (hb c hc)
        rw [if_pos hab, filter_cons]
        split_ifs
        · cases hrest : (b :: l).filter q with
          | nil => rfl
          | cons c rest =>
            rw [hrest] at hall
            rw [orderedInsert_cons, if_pos (hall c mem_cons_self)]
        · rfl
      · rw [if_neg hab, filter_cons, ih hl]
        by_cases hqb : q b = true
        · rw [if_pos hqb, filter_cons_of_pos hqb, orderedInsert_cons, if_neg hab]
          split_ifs <;> rfl
        · rw [if_neg hqb, filter_cons_of_neg hqb]
  induction l with
  | nil => rfl
  | cons a l ih =>
    rw [insertionSort_cons, hinsert a _ (pairwise_insertionSort r l), ih, filter_cons]
    split_ifs
    · rw [insertionSort_cons]
    · rfl

end Head

/-! ### The newest of a list of rows -/

section Newest

variable {α : Type*} {f : α → ℕ} {rows : List α} {r : α}

/-- The newest of a list of rows (`ORDER BY created_at DESC LIMIT 1`). -/
def newest (createdAt : α → ℕ) (rows : List α) : Option α :=
  (rows.insertionSort fun a b => createdAt b ≤ createdAt a).head?

lemma newest_cons (f : α → ℕ) (a : α) (rows : List α) :
    newest f (a :: rows) =
      some ((newest f rows).elim a fun b => if f b ≤ f a then a else b) :=
  head?_insertionSort_cons a rows

/-- The newest row is the first of those with the latest time. -/
lemma newest_eq_argmax (f : α → ℕ) (rows : List α) : newest f rows = rows.argmax f := by
  induction rows with
  | nil => rfl
  | cons a rows ih =>
    rw [newest_cons, argmax_cons, ih]
    cases rows.argmax f with
    | none => rfl
    | some c =>
      by_cases hlt : f a < f c
      · simp [hlt, Nat.not_le.2 hlt]
      · simp [hlt, Nat.not_lt.1 hlt]

lemma newest_eq_none : newest f rows = none ↔ rows = [] := by
  rw [newest_eq_argmax, argmax_eq_none]

lemma mem_of_newest (h : newest f rows = some r) : r ∈ rows := by
  rw [newest_eq_argmax] at h
  exact argmax_mem h

/-- One more row at the end is the newest, or the newest row is what it was. -/
lemma eq_or_newest_of_concat {a : α} (h : newest f (rows ++ [a]) = some r) :
    r = a ∨ newest f rows = some r := by
  rw [newest_eq_argmax, argmax_concat] at h
  rw [newest_eq_argmax]
  cases hrows : rows.argmax f with
  | none => exact Or.inl (by simpa [hrows] using h.symm)
  | some c =>
    rw [hrows] at h
    by_cases hlt : f c < f a
    · exact Or.inl (by simpa [hlt] using h.symm)
    · exact Or.inr (by simpa [hlt] using h)

/-- A row later than all others is the newest. -/
lemma newest_concat_of_lt {a : α} (h : ∀ r ∈ rows, f r < f a) : newest f (rows ++ [a]) = some a := by
  rw [newest_eq_argmax, argmax_concat]
  cases hrows : rows.argmax f with
  | none => rfl
  | some c => simp [h c (argmax_mem hrows)]

/-- The newest row is still the newest when it becomes newer and no other row changes. -/
lemma newest_map {g : α → α} (h : newest f rows = some r) (hg : ∀ a ∈ rows, f a ≠ f r → g a = a)
    (hr : f r ≤ f (g r)) (hmax : ∀ a ∈ rows, f (g a) ≤ f (g r)) : newest f (rows.map g) = some (g r) := by
  induction rows with
  | nil => cases h
  | cons a rows ih =>
    obtain ⟨ha, hrest⟩ := forall_mem_cons.1 hg
    obtain ⟨-, hmax⟩ := forall_mem_cons.1 hmax
    rw [newest_cons, Option.some.injEq] at h
    rw [map_cons, newest_cons, Option.some.injEq]
    cases hrows : newest f rows with
    | none =>
      obtain rfl : a = r := by simpa [hrows] using h
      rw [newest_eq_none.1 hrows]
      rfl
    | some b =>
      rw [hrows, Option.elim_some] at h
      by_cases hle : f b ≤ f a
      · obtain rfl : a = r := by simpa [hle] using h
        cases hnew : newest f (rows.map g) with
        | none => rfl
        | some b' =>
          obtain ⟨x, hx, rfl⟩ := mem_map.1 (mem_of_newest hnew)
          exact if_pos (hmax x hx)
      · obtain rfl : b = r := by simpa [hle] using h
        rw [ih hrows hrest hmax, ha (by omega), Option.elim_some]
        exact if_neg (by omega)

end Newest

/-! ### The first of the greatest elements -/

section ArgMax

variable {α β γ : Type*} [LinearOrder β] [LinearOrder γ] {l : List α}

lemma argmax_congr {f : α → β} {g : α → γ} (h : ∀ a ∈ l, ∀ b ∈ l, f a < f b ↔ g a < g b) :
    l.argmax f = l.argmax g := by
  induction l with
  | nil => rfl
  | cons a l ih =>
    have hrest := ih fun b hb c hc => h b (mem_cons_of_mem _ hb) c (mem_cons_of_mem _ hc)
    rw [argmax_cons, argmax_cons, hrest]
    cases hmax : l.argmax g with
    | none => rfl
    | some c => simp only [h a mem_cons_self c (mem_cons_of_mem _ (argmax_mem hmax))]

/-- If the first of the greatest passes a test, it is the first of the greatest of those that pass. -/
lemma argmax_filter {f : α → β} {q : α → Bool} {m : α} (h : l.argmax f = some m) (hm : q m = true) :
    (l.filter q).argmax f = some m := by
  induction l with
  | nil => cases h
  | cons a l ih =>
    rw [argmax_cons] at h
    cases hl : l.argmax f with
    | none =>
      obtain rfl := argmax_eq_none.1 hl
      obtain rfl : a = m := by simpa using h
      simp [hm]
    | some c =>
      rw [hl] at h
      by_cases hac : f a < f c
      · obtain rfl : c = m := by simpa [hac] using h
        have hrest := ih hl
        by_cases hqa : q a = true
        · rw [filter_cons_of_pos hqa, argmax_cons, hrest]
          simp [hac]
        · rw [filter_cons_of_neg hqa]
          exact hrest
      · obtain rfl : a = m := by simpa [hac] using h
        rw [filter_cons_of_pos hm, argmax_cons]
        cases hrest : (l.filter q).argmax f with
        | none => rfl
        | some d =>
          have hd : f d ≤ f c :=
            le_of_mem_argmax (mem_of_mem_filter (argmax_mem hrest)) hl
          have had : ¬f a < f d := fun hlt => hac (hlt.trans_le hd)
          simp [had]

/-- Of two kinds the elements of the one with the higher rank are led by the first of the greatest, and if there are
none the others are. -/
lemma argmax_of_two {κ : Type*} [DecidableEq κ] {kind : α → κ} {rank : κ → β} {low high : κ}
    (hlt : rank low < rank high) (h : ∀ a ∈ l, kind a = low ∨ kind a = high) :
    (l.argmax fun a => rank (kind a)) =
      ((l.filter fun a => kind a = high).head?).or (l.filter fun a => kind a = low).head? := by
  have hne : low ≠ high := fun heq => hlt.ne (congrArg rank heq)
  induction l with
  | nil => rfl
  | cons a l ih =>
    obtain ⟨ha, hl⟩ := forall_mem_cons.1 h
    rw [argmax_cons, ih hl]
    have hhead {k : κ} {c : α} (hc : (l.filter fun a => kind a = k).head? = some c) : kind c = k :=
      of_decide_eq_true (mem_filter.1 (mem_of_head? hc)).2
    cases hhigh : (l.filter fun a => kind a = high).head? with
    | some c => rcases ha with ha | ha <;> simp [ha, hne, hhigh, hhead hhigh, hlt]
    | none =>
      cases hlow : (l.filter fun a => kind a = low).head? with
      | some c => rcases ha with ha | ha <;> simp [ha, hne, hhigh, hhead hlow, hlt.le]
      | none => rcases ha with ha | ha <;> simp [ha, hne, hhigh]

end ArgMax

end Lib.FirstMatch
