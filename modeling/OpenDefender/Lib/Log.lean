import Mathlib.Tactic

/-!
Logs in which an entry has to be justified by what comes before it: an answer by a question, a receipt by
a delivery.

`Justified needs log` says that every entry has what it needs among the earlier ones. It is kept by
`Justified.concat`, one entry at a time, and by `Justified.append`, for several that justify one another.
-/

namespace Lib.Log

open List

variable {α : Type*} {needs : α → List α → Prop} {log more : List α}

/-- Every entry finds what it needs before it. -/
def Justified (needs : α → List α → Prop) (log : List α) : Prop :=
  ∀ before x after, log = before ++ x :: after → needs x before

/-- Another entry, with what it needs in the log. -/
lemma Justified.concat (h : Justified needs log) {x : α} (hx : needs x log) :
    Justified needs (log ++ [x]) := by
  intro before y after heq
  obtain ⟨mid, rfl, hmid⟩ | ⟨mid, rfl, hmid⟩ := append_eq_append_iff.1 heq
  · -- the entry is the new one
    obtain ⟨rfl, hy⟩ | ⟨-, hnil⟩ := singleton_eq_append_iff.1 hmid
    · obtain ⟨rfl, -⟩ := List.cons.inj hy
      rwa [append_nil]
    · cases hnil
  · cases mid with
    | nil =>
      rw [nil_append] at hmid
      obtain ⟨rfl, -⟩ := List.cons.inj hmid
      rwa [append_nil] at hx
    | cons z rest =>
      obtain ⟨rfl, -⟩ := List.cons.inj hmid
      exact h before y rest rfl

/-- Several entries, each with what it needs in the log or among those that come with it. -/
lemma Justified.append (h : Justified needs log)
    (hmore : ∀ before x after, more = before ++ x :: after → needs x (log ++ before)) :
    Justified needs (log ++ more) := by
  induction more using List.reverseRecOn with
  | nil => rwa [append_nil]
  | append_singleton more x ih =>
    rw [← append_assoc]
    refine (ih fun before y after heq => ?_).concat (hmore more x [] rfl)
    exact hmore before y (after ++ [x]) (by rw [heq, append_assoc]; rfl)

end Lib.Log
