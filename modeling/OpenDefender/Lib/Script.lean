import Mathlib.Tactic

/-!
Scripts: procedures over a store whose statements take effect one after the other. A script that
fails stops there, and what it has written stays written, unless a `transaction` is around it.

`Script σ ε` is a monad, so that a script is written as the program is.

* `foldlM_cases` is the rule for a loop whose body may fail: the loop either runs to its end or stops
  at the first element that fails, after everything the elements before it have done.
* `Ensures m s Q E` says what holds when the script `m` has run from the store `s`: `Q` of what it returns
  and leaves, or `E` of its failure. `Ensures.bind` and `Ensures.transaction` are the rules for sequences and
  transactions.
* `Follows fails effect m s l` says that `m`, run from `s`, is the list of statements `l`: they take effect one
  after the other up to the first that fails. A sequence follows the lists of its parts (`Follows.bind`), a loop
  the lists of its rounds (`Follows.foldlM`).
* `SparedIff m s c` says that a failure of `m`, run from `s`, leaves `s` as it was exactly if `c`. A step that fails
  spares the store, one that changes nothing hands the question on, and one whose change is kept by all that follows
  (`Keeps`) answers it.
-/

namespace Lib

open List

/-- A procedure that returns or fails, with the store it leaves in either case. -/
def Script (σ ε α : Type) : Type := σ → Except ε α × σ

namespace Script

variable {σ ε α β : Type}

instance : Monad (Script σ ε) where
  pure a := fun s => (.ok a, s)
  bind m f := fun s =>
    match m s with
    | (.ok a, t) => f a t
    | (.error e, t) => (.error e, t)

/-- The script that fails. -/
def fail (e : ε) : Script σ ε α := fun s => (.error e, s)

/-- A statement that only reads. -/
def read (f : σ → α) : Script σ ε α := fun s => (.ok (f s), s)

/-- A statement that writes. -/
def write (f : σ → σ) : Script σ ε Unit := fun s => (.ok (), f s)

/-- A statement that fails, with nothing written, if there is a failure. -/
def attempt (failure : Option ε) (m : Script σ ε α) : Script σ ε α :=
  match failure with
  | some e => fail e
  | none => m

/-- An answer that needs no statement. -/
def ofExcept (answer : Except ε α) : Script σ ε α := fun s => (answer, s)

/-- A script in a transaction: if it fails, nothing is written. -/
def transaction (m : Script σ ε α) : Script σ ε α := fun s =>
  match m s with
  | (.ok a, t) => (.ok a, t)
  | (.error e, _) => (.error e, s)

/-- A script whose failure is ignored. -/
def ignoring (m : Script σ ε α) : Script σ ε Unit := fun s => (.ok (), (m s).2)

lemma bind_apply (m : Script σ ε α) (f : α → Script σ ε β) (s : σ) :
    (m >>= f) s =
      match m s with
      | (.ok a, t) => f a t
      | (.error e, t) => (.error e, t) := rfl

lemma bind_of_ok {m : Script σ ε α} {f : α → Script σ ε β} {s t : σ} {a : α}
    (h : m s = (.ok a, t)) : (m >>= f) s = f a t := by
  rw [bind_apply, h]

lemma bind_of_error {m : Script σ ε α} {f : α → Script σ ε β} {s t : σ} {e : ε}
    (h : m s = (.error e, t)) : (m >>= f) s = (.error e, t) := by
  rw [bind_apply, h]

lemma bind_assoc {γ : Type} (m : Script σ ε α) (f : α → Script σ ε β) (g : β → Script σ ε γ) :
    (m >>= f) >>= g = m >>= fun a => f a >>= g := by
  funext s
  simp only [bind_apply]
  rcases m s with ⟨e | a, t⟩ <;> rfl

@[simp] lemma read_apply (f : σ → α) (s : σ) : (read f : Script σ ε α) s = (.ok (f s), s) := rfl

@[simp] lemma write_apply (f : σ → σ) (s : σ) : (write f : Script σ ε Unit) s = (.ok (), f s) := rfl

@[simp] lemma attempt_none (m : Script σ ε α) : attempt none m = m := rfl

/-- **The rule for loops.** The body succeeds on the elements that satisfy `ok`, with the effect
`done`, and fails on the others, with the effect `stopped`. -/
theorem foldlM_cases (body : β → α → Script σ ε β) (ok : α → Prop) (done stopped : α → σ → σ)
    (hok : ∀ b a s, ok a → ∃ b', body b a s = (.ok b', done a s))
    (hfail : ∀ b a s, ¬ok a → ∃ e, body b a s = (.error e, stopped a s)) (l : List α) (b : β)
    (s : σ) :
    ((∀ a ∈ l, ok a) ∧ ∃ b', l.foldlM body b s = (.ok b', l.foldl (fun s a => done a s) s)) ∨
      ∃ before a after e, l = before ++ a :: after ∧ (∀ c ∈ before, ok c) ∧ ¬ok a ∧
        l.foldlM body b s = (.error e, stopped a (before.foldl (fun s c => done c s) s)) := by
  induction l generalizing b s with
  | nil => exact Or.inl ⟨by simp, b, rfl⟩
  | cons a l ih =>
    rw [foldlM_cons]
    by_cases ha : ok a
    · obtain ⟨b', hbody⟩ := hok b a s ha
      rw [bind_of_ok hbody]
      rcases ih b' (done a s) with ⟨hall, b'', hrun⟩ | ⟨before, c, after, e, rfl, hbefore, hc, hrun⟩
      · exact Or.inl ⟨forall_mem_cons.2 ⟨ha, hall⟩, b'', hrun⟩
      · exact Or.inr ⟨a :: before, c, after, e, rfl, forall_mem_cons.2 ⟨ha, hbefore⟩, hc, hrun⟩
    · obtain ⟨e, hbody⟩ := hfail b a s ha
      rw [bind_of_error hbody]
      exact Or.inr ⟨[], a, l, e, rfl, by simp, ha, rfl⟩

/-! ### Pre- and postconditions -/

/-- What holds when the script has run from a store: `Q` of the value and the store it leaves, or `E` of
its failure and the store. -/
structure Ensures (m : Script σ ε α) (s : σ) (Q : α → σ → Prop) (E : ε → σ → Prop) : Prop where
  ok : ∀ a t, m s = (.ok a, t) → Q a t
  error : ∀ e t, m s = (.error e, t) → E e t

namespace Ensures

variable {m : Script σ ε α} {s t : σ} {Q Q' : α → σ → Prop} {E E' : ε → σ → Prop} {a : α} {e : ε}

lemma of_ok (h : m s = (.ok a, t)) (hQ : Q a t) : Ensures m s Q E := by
  constructor
  · intro a' t' h'
    obtain ⟨⟨⟩, rfl⟩ := Prod.mk.inj (h.symm.trans h')
    exact hQ
  · intro e' t' h'
    cases (Prod.mk.inj (h.symm.trans h')).1

lemma of_error (h : m s = (.error e, t)) (hE : E e t) : Ensures m s Q E := by
  constructor
  · intro a' t' h'
    cases (Prod.mk.inj (h.symm.trans h')).1
  · intro e' t' h'
    obtain ⟨⟨⟩, rfl⟩ := Prod.mk.inj (h.symm.trans h')
    exact hE

/-- A script that cannot fail returns. -/
lemma exists_ok (h : Ensures m s Q E) (hE : ∀ e t, ¬E e t) : ∃ a t, m s = (.ok a, t) ∧ Q a t := by
  match hrun : m s with
  | (.ok a, t) => exact ⟨a, t, rfl, h.ok a t hrun⟩
  | (.error e, t) => exact absurd (h.error e t hrun) (hE e t)

lemma pure (h : Q a s) : Ensures (Pure.pure a : Script σ ε α) s Q E := of_ok rfl h

lemma fail (h : E e s) : Ensures (Script.fail e : Script σ ε α) s Q E := of_error rfl h

lemma mono (h : Ensures m s Q E) (hQ : ∀ a t, Q a t → Q' a t) (hE : ∀ e t, E e t → E' e t) :
    Ensures m s Q' E' :=
  ⟨fun a t hrun => hQ a t (h.ok a t hrun), fun e t hrun => hE e t (h.error e t hrun)⟩

/-- A first step that returns. -/
lemma bind_ok {f : α → Script σ ε β} {R : β → σ → Prop} (hrun : m s = (.ok a, t))
    (h : Ensures (f a) t R E) : Ensures (m >>= f) s R E := by
  have hbind : (m >>= f) s = f a t := bind_of_ok hrun
  exact ⟨fun b u hb => h.ok b u (hbind ▸ hb), fun e u he => h.error e u (hbind ▸ he)⟩

/-- **The rule for sequences.** -/
lemma bind {f : α → Script σ ε β} {R : β → σ → Prop} (h : Ensures m s Q E)
    (hf : ∀ a t, Q a t → Ensures (f a) t R E) : Ensures (m >>= f) s R E := by
  match hrun : m s with
  | (.ok a, t) => exact bind_ok hrun (hf a t (h.ok a t hrun))
  | (.error e, t) => exact of_error (bind_of_error hrun) (h.error e t hrun)

/-- A transaction that fails leaves the store as it was. -/
lemma transaction (h : Ensures m s Q fun e _ => E e s) : Ensures (Script.transaction m) s Q E := by
  match hrun : m s with
  | (.ok a, t) =>
    refine of_ok (a := a) (t := t) ?_ (h.ok a t hrun)
    rw [Script.transaction, hrun]
  | (.error e, t) =>
    refine of_error (e := e) (t := s) ?_ (h.error e t hrun)
    rw [Script.transaction, hrun]

end Ensures

/-! ### What failures spare -/

section Spared

variable {P : σ → Prop} {m : Script σ ε α} {f : α → Script σ ε β} {s t : σ} {a : α} {e : ε} {c : Prop}

/-- What holds of a store holds of the one that the script leaves, also where it fails. -/
def Keeps (P : σ → Prop) (m : Script σ ε α) : Prop := ∀ s, P s → P (m s).2

lemma Keeps.attempt (h : Keeps P m) (failure : Option ε) : Keeps P (attempt failure m) := by
  cases failure with
  | some e => exact fun s hs => hs
  | none => exact h

lemma Keeps.bind (h : Keeps P m) (hf : ∀ a, Keeps P (f a)) : Keeps P (m >>= f) := by
  intro s hs
  have hm := h s hs
  rw [bind_apply]
  generalize m s = run at hm ⊢
  rcases run with ⟨e | a, t⟩
  · exact hm
  · exact hf a t hm

lemma Keeps.forM {body : β → Script σ ε PUnit} (h : ∀ b, Keeps P (body b)) (bs : List β) : Keeps P (bs.forM body) := by
  induction bs with
  | nil => exact fun s hs => hs
  | cons b bs ih => exact (h b).bind fun _ => ih

/-- A failure of the script leaves the store as it was exactly if `c`. -/
def SparedIff (m : Script σ ε α) (s : σ) (c : Prop) : Prop := ∀ e t, m s = (.error e, t) → (t = s ↔ c)

lemma SparedIff.congr {c' : Prop} (h : SparedIff m s c) (hc : c ↔ c') : SparedIff m s c' :=
  fun e t hrun => (h e t hrun).trans hc

lemma SparedIff.of_error (h : m s = (.error e, s)) : SparedIff (m >>= f) s True := by
  intro e' t' hrun
  rw [bind_of_error h] at hrun
  exact iff_of_true (Prod.mk.inj hrun).2.symm trivial

/-- A step that changes nothing. -/
lemma SparedIff.of_same (h : m s = (.ok a, s)) (hf : SparedIff (f a) s c) : SparedIff (m >>= f) s c := by
  intro e t hrun
  rw [bind_of_ok h] at hrun
  exact hf e t hrun

/-- A step whose change is never undone. -/
lemma SparedIff.of_change (h : m s = (.ok a, t)) (ht : P t) (hs : ¬P s) (hf : Keeps P (f a)) :
    SparedIff (m >>= f) s False := by
  intro e t' hrun
  rw [bind_of_ok h] at hrun
  have hkept := hf t ht
  rw [hrun] at hkept
  refine iff_of_false (fun hsame => hs ?_) id
  rwa [hsame] at hkept

end Spared

/-! ### Lists of statements -/

section Statements

variable {ι : Type} {fails : ι → Bool} {effect : ι → σ → σ} {l l' : List ι} {s : σ}

/-- What statements do, one after the other. -/
def effects (effect : ι → σ → σ) (l : List ι) (s : σ) : σ := l.foldl (fun s i => effect i s) s

/-- The statements before the first one that fails. -/
def completed (fails : ι → Bool) (l : List ι) : List ι := l.takeWhile fun i => !fails i

@[simp] lemma effects_singleton (i : ι) : effects effect [i] s = effect i s := rfl

lemma effects_append : effects effect (l ++ l') s = effects effect l' (effects effect l s) := by
  rw [effects, foldl_append]
  rfl

/-- What every statement keeps holds in the end. -/
lemma effects_invariant {P : σ → Prop} (hs : P s) (hkept : ∀ i ∈ l, ∀ s, P s → P (effect i s)) :
    P (effects effect l s) :=
  List.foldlRecOn l _ hs fun t ht i hi => hkept i hi t ht

/-- What one statement brings about and the others keep holds in the end. -/
lemma effects_of_mem {P : σ → Prop} {i : ι} (hi : i ∈ l) (hdone : ∀ s, P (effect i s))
    (hkept : ∀ j ∈ l, ∀ s, P s → P (effect j s)) : P (effects effect l s) := by
  obtain ⟨before, after, rfl⟩ := append_of_mem hi
  rw [← singleton_append, effects_append, effects_append, effects_singleton]
  refine effects_invariant (hdone _) fun j hj => hkept j ?_
  exact mem_append_right _ (mem_cons_of_mem _ hj)

lemma mem_of_mem_completed {i : ι} (h : i ∈ completed fails l) : i ∈ l :=
  (takeWhile_sublist _).subset h

/-- After statements that do not fail come those completed of the rest. -/
lemma completed_append (h : ∀ i ∈ l, fails i = false) :
    completed fails (l ++ l') = l ++ completed fails l' := by
  rw [completed, takeWhile_append_of_pos]
  · rfl
  · intro i hi
    rw [h i hi]
    rfl

/-- After a statement that fails nothing is completed. -/
lemma completed_append_of_fails (h : ∃ i ∈ l, fails i = true) :
    completed fails (l ++ l') = completed fails l := by
  obtain ⟨i, hi, hfails⟩ := h
  induction l with
  | nil => cases hi
  | cons j l ih =>
    rw [cons_append, completed, completed, takeWhile_cons, takeWhile_cons]
    cases hj : fails j with
    | true => rfl
    | false =>
      have hmem : i ∈ l := by
        rcases mem_cons.1 hi with rfl | hmem
        · rw [hj] at hfails
          cases hfails
        · exact hmem
      exact congrArg (j :: ·) (ih hmem)

/-- The script runs these statements, up to the first one that fails. -/
structure Follows (fails : ι → Bool) (effect : ι → σ → σ) (m : Script σ ε α) (s : σ) (l : List ι) :
    Prop where
  ok : (∀ i ∈ l, fails i = false) → ∃ a, m s = (.ok a, effects effect l s)
  error : (∃ i ∈ l, fails i = true) → ∃ e, m s = (.error e, effects effect (completed fails l) s)

namespace Follows

variable {m : Script σ ε α}

lemma pure (a : α) : Follows fails effect (Pure.pure a : Script σ ε α) s [] :=
  ⟨fun _ => ⟨a, rfl⟩, fun ⟨_, hi, _⟩ => absurd hi not_mem_nil⟩

/-- One statement. -/
lemma single {i : ι} (hok : fails i = false → ∃ a, m s = (.ok a, effect i s))
    (herror : fails i = true → ∃ e, m s = (.error e, s)) : Follows fails effect m s [i] := by
  constructor
  · intro h
    exact hok (h i (mem_singleton_self i))
  · rintro ⟨j, hj, hfails⟩
    obtain rfl := mem_singleton.1 hj
    obtain ⟨e, hrun⟩ := herror hfails
    refine ⟨e, ?_⟩
    rw [hrun, completed, takeWhile_cons, hfails]
    rfl

/-- A script that returns has run all its statements. -/
lemma of_ok {t : σ} {a : α} (h : Follows fails effect m s l) (hrun : m s = (.ok a, t)) :
    (∀ i ∈ l, fails i = false) ∧ t = effects effect l s := by
  by_cases hfails : ∃ i ∈ l, fails i = true
  · obtain ⟨e, herror⟩ := h.error hfails
    cases (Prod.mk.inj (hrun.symm.trans herror)).1
  · have hnone : ∀ i ∈ l, fails i = false := fun i hi => Bool.eq_false_iff.2 fun hi' => hfails ⟨i, hi, hi'⟩
    obtain ⟨b, hok⟩ := h.ok hnone
    exact ⟨hnone, (Prod.mk.inj (hrun.symm.trans hok)).2⟩

/-- **The rule for sequences.** -/
lemma bind {f : α → Script σ ε β} (h : Follows fails effect m s l)
    (hf : ∀ a, m s = (.ok a, effects effect l s) →
      Follows fails effect (f a) (effects effect l s) l') :
    Follows fails effect (m >>= f) s (l ++ l') := by
  by_cases hfails : ∃ i ∈ l, fails i = true
  · obtain ⟨e, hrun⟩ := h.error hfails
    obtain ⟨i, hi, hi'⟩ := hfails
    refine ⟨fun hnone => ?_, fun _ => ⟨e, ?_⟩⟩
    · rw [hnone i (mem_append_left _ hi)] at hi'
      cases hi'
    · rw [bind_of_error hrun, completed_append_of_fails ⟨i, hi, hi'⟩]
  · have hnone : ∀ i ∈ l, fails i = false := by
      intro i hi
      exact Bool.eq_false_iff.2 fun hi' => hfails ⟨i, hi, hi'⟩
    obtain ⟨a, hrun⟩ := h.ok hnone
    have hrest := hf a hrun
    constructor
    · intro hall
      obtain ⟨b, hb⟩ := hrest.ok fun i hi => hall i (mem_append_right _ hi)
      exact ⟨b, by rw [bind_of_ok hrun, hb, effects_append]⟩
    · rintro ⟨i, hi, hi'⟩
      have hmem : i ∈ l' := by
        rcases mem_append.1 hi with hmem | hmem
        · rw [hnone i hmem] at hi'
          cases hi'
        · exact hmem
      obtain ⟨e, he⟩ := hrest.error ⟨i, hmem, hi'⟩
      exact ⟨e, by rw [bind_of_ok hrun, he, completed_append hnone, effects_append]⟩

/-- **The rule for loops.** -/
lemma foldlM {body : β → α → Script σ ε β} {plan : α → List ι}
    (h : ∀ b a s, Follows fails effect (body b a) s (plan a)) (as : List α) (b : β) (s : σ) :
    Follows fails effect (as.foldlM body b) s (as.flatMap plan) := by
  induction as generalizing b s with
  | nil => exact pure b
  | cons a as ih =>
    rw [foldlM_cons, flatMap_cons]
    exact (h b a s).bind fun b' _ => ih b' _

end Follows

end Statements

end Script

end Lib
