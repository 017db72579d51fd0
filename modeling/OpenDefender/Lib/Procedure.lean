import Mathlib.Tactic

/-!
Procedures with a state and failure, `StateT σ (Except ε)`, and what they return.

`Returns m Q` says that `Q` holds of every value the procedure `m` can return, from any state; nothing is said
about a procedure that fails. The rules follow the way procedures are written: `Returns.pure`, `Returns.fail`
and `Returns.bind`. `Ends` says that a run ends, and how. `bind_ok` takes a run apart where the states in
between matter.
-/

namespace Lib.Procedure

variable {σ ε α β : Type}

/-- The procedure that fails. -/
def fail (e : ε) : StateT σ (Except ε) α := fun _ => .error e

/-- `Q` holds of everything the procedure can return. -/
def Returns (m : StateT σ (Except ε) α) (Q : α → Prop) : Prop :=
  ∀ s a s', m s = .ok (a, s') → Q a

/-- A sequence ends well exactly when its first part does, and the rest does from there. -/
lemma bind_ok {m : StateT σ (Except ε) α} {f : α → StateT σ (Except ε) β} {s s' : σ} {b : β} :
    (m >>= f) s = .ok (b, s') ↔ ∃ a t, m s = .ok (a, t) ∧ f a t = .ok (b, s') := by
  show (m s >>= fun x => f x.1 x.2) = _ ↔ _
  cases m s with
  | error e => simp [bind, Except.bind]
  | ok x =>
    obtain ⟨a, t⟩ := x
    simp [bind, Except.bind]

namespace Returns

variable {m : StateT σ (Except ε) α} {Q : α → Prop}

lemma trivial (m : StateT σ (Except ε) α) : Returns m fun _ => True :=
  fun _ _ _ _ => True.intro

lemma pure {a : α} (h : Q a) : Returns (Pure.pure a : StateT σ (Except ε) α) Q := by
  intro s b s' hrun
  cases hrun
  exact h

lemma fail (e : ε) : Returns (Procedure.fail e : StateT σ (Except ε) α) Q := by
  intro s a s' hrun
  cases hrun

/-- **The rule for sequences.** -/
lemma bind {f : α → StateT σ (Except ε) β} {T : β → Prop} (h : Returns m Q)
    (hf : ∀ a, Q a → Returns (f a) T) : Returns (m >>= f) T := by
  intro s b s' hrun
  obtain ⟨a, t, hm, hrest⟩ := bind_ok.1 hrun
  exact hf a (h s a t hm) t b s' hrest

end Returns

/-- The procedure returns from every state, with a value that `Q` holds of. -/
def Ends (m : StateT σ (Except ε) α) (Q : α → Prop) : Prop := ∀ s, ∃ a s', m s = .ok (a, s') ∧ Q a

lemma Ends.pure {Q : α → Prop} {a : α} (h : Q a) : Ends (Pure.pure a : StateT σ (Except ε) α) Q :=
  fun s => ⟨a, s, rfl, h⟩

lemma Ends.bind {m : StateT σ (Except ε) α} {f : α → StateT σ (Except ε) β} {Q : α → Prop} {T : β → Prop}
    (h : Ends m Q) (hf : ∀ a, Q a → Ends (f a) T) : Ends (m >>= f) T := by
  intro s
  obtain ⟨a, t, hm, ha⟩ := h s
  obtain ⟨b, u, hrest, hb⟩ := hf a ha t
  exact ⟨b, u, bind_ok.2 ⟨a, t, hm, hrest⟩, hb⟩

end Lib.Procedure
