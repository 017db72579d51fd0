import Mathlib.Tactic

/-!
Inversion of computations in `Except`: what is known of the parts of a computation that ended
well. `bind_ok` takes a sequence apart, `throw_if_ok` a check, `mapM_ok` and `forM_ok` a traversal,
element by element, and `map_eq_of_mapM_ok` follows one attribute through it.
-/

namespace Lib.Outcome

open List

universe u

variable {ε : Type*} {α β : Type u}

variable {x : Except ε α} {f : α → Except ε β}

/-- A sequence ends well exactly when its first part does and the rest does on its value. -/
lemma bind_ok {b : β} : (x >>= f) = .ok b ↔ ∃ a, x = .ok a ∧ f a = .ok b := by
  cases x with
  | error e => simp [bind, Except.bind]
  | ok a => simp [bind, Except.bind]

/-- What comes after a check that throws is reached when it does not. -/
lemma throw_if_ok {p : Prop} [Decidable p] {e : ε} {γ : Type} {f : Unit → Except ε γ} {c : γ} :
    (if p then (throw e >>= f) else f ()) = .ok c ↔ ¬ p ∧ f () = .ok c := by
  by_cases hp : p
  · rw [if_pos hp]
    refine ⟨fun h => ?_, fun h => absurd hp h.1⟩
    cases h
  · rw [if_neg hp]
    exact ⟨fun h => ⟨hp, h⟩, fun h => h.2⟩

lemma map_ok {f : α → β} {b : β} : x.map f = .ok b ↔ ∃ a, x = .ok a ∧ f a = b := by
  cases x <;> simp [Except.map]

/-- Errors can be renamed without a change to what ends well. -/
lemma mapError_ok {ε' : Type*} {x : Except ε α} {f : ε → ε'} {a : α} :
    x.mapError f = .ok a ↔ x = .ok a := by
  cases x <;> simp [Except.mapError]

lemma toOption_eq_some {a : α} : x.toOption = some a ↔ x = .ok a := by
  cases x <;> simp [Except.toOption]

/-- A traversal ends well exactly when it does on every element, with the results in order. -/
lemma mapM_ok {l : List α} {r : List β} : l.mapM f = .ok r ↔ List.Forall₂ (fun a b => f a = .ok b) l r := by
  induction l generalizing r with
  | nil =>
    rw [mapM_nil, forall₂_nil_left_iff]
    exact ⟨fun h => (Except.ok.inj h).symm, fun h => h ▸ rfl⟩
  | cons a l ih =>
    rw [mapM_cons, bind_ok, forall₂_cons_left_iff]
    constructor
    · rintro ⟨b, hb, h⟩
      obtain ⟨bs, hbs, h⟩ := bind_ok.1 h
      exact ⟨b, bs, hb, ih.1 hbs, (Except.ok.inj h).symm⟩
    · rintro ⟨b, bs, hb, hbs, rfl⟩
      exact ⟨b, hb, bind_ok.2 ⟨bs, ih.2 hbs, rfl⟩⟩

/-- Each result of a traversal comes from an element. -/
lemma exists_of_mem_mapM {l : List α} {r : List β} (h : l.mapM f = .ok r) {b : β}
    (hb : b ∈ r) : ∃ a ∈ l, f a = .ok b := by
  have hall := mapM_ok.1 h
  clear h
  induction hall with
  | nil => cases hb
  | @cons a b' l r hab _ ih =>
    obtain rfl | hb := mem_cons.1 hb
    · exact ⟨a, mem_cons_self, hab⟩
    · obtain ⟨a', ha', hab'⟩ := ih hb
      exact ⟨a', mem_cons_of_mem _ ha', hab'⟩

/-- A check of every element passes exactly when each one does. -/
lemma forM_ok {γ : Type*} {f : γ → Except ε Unit} {l : List γ} :
    l.forM f = .ok () ↔ ∀ a ∈ l, f a = .ok () := by
  induction l with
  | nil => exact ⟨fun _ => by simp, fun _ => rfl⟩
  | cons a l ih =>
    have hstep : (a :: l).forM f = (f a >>= fun _ => l.forM f) := rfl
    rw [hstep, bind_ok, forall_mem_cons]
    exact ⟨fun ⟨_, ha, hl⟩ => ⟨ha, ih.1 hl⟩, fun ⟨ha, hl⟩ => ⟨(), ha, ih.2 hl⟩⟩

/-- A traversal that ends well on every element ends well. -/
lemma exists_mapM_ok {l : List α} (h : ∀ a ∈ l, ∃ b, f a = .ok b) : ∃ r, l.mapM f = .ok r := by
  induction l with
  | nil => exact ⟨[], rfl⟩
  | cons a l ih =>
    obtain ⟨⟨b, hb⟩, hl⟩ := forall_mem_cons.1 h
    obtain ⟨r, hr⟩ := ih hl
    exact ⟨b :: r, mapM_ok.2 (.cons hb (mapM_ok.1 hr))⟩

/-- What the results show of the elements, they show of the whole list. -/
lemma map_eq_of_mapM_ok {γ : Type*} {f : α → Except ε β} {g : β → γ} {k : α → γ}
    (hf : ∀ a b, f a = .ok b → g b = k a) {l : List α} {r : List β} (h : l.mapM f = .ok r) :
    r.map g = l.map k := by
  have hall := mapM_ok.1 h
  clear h
  induction hall with
  | nil => rfl
  | cons hab _ ih => rw [map_cons, map_cons, hf _ _ hab, ih]

end Lib.Outcome
