import Mathlib.Tactic

/-!
Runs of a system given by a partial transition function `next : σ → ε → Option σ`: an event either
is impossible in a state (`none`) or leads to the next state.

* `run next s es` replays a list of events; `run_append` cuts a run in two, `run_map` carries it to
  another system.
* `Guarded next ok s es` says that every event of the run meets the condition `ok` in the state it
  happens in.
* `Guarded.invariant` is the induction every safety proof uses: what each guarded step keeps, a
  whole guarded run keeps. `invariant_of_step` is the unguarded case, `measure_of_step` that of a number.
-/

namespace Lib.Run

open List

variable {σ ε : Type*} (next : σ → ε → Option σ)

/-- Replays the events from a state; `none` as soon as one of them is impossible. -/
def run : σ → List ε → Option σ
  | s, [] => some s
  | s, e :: es => (next s e).bind fun s' => run s' es

/-- Every event of the run meets `ok` in the state it happens in. -/
def Guarded (ok : σ → ε → Prop) : σ → List ε → Prop
  | _, [] => True
  | s, e :: es => ok s e ∧ ∀ s', next s e = some s' → Guarded ok s' es

variable {next}

instance decidableGuarded (ok : σ → ε → Prop) [∀ s e, Decidable (ok s e)] :
    ∀ s es, Decidable (Guarded next ok s es)
  | _, [] => isTrue trivial
  | s, e :: es =>
    have : Decidable (∀ s', next s e = some s' → Guarded next ok s' es) :=
      match h : next s e with
      | none => isTrue (by simp)
      | some s' =>
        have := decidableGuarded ok s' es
        decidable_of_iff (Guarded next ok s' es) (by simp)
    inferInstanceAs (Decidable (_ ∧ _))

/-- What a value is tested for is known of it. -/
lemma exists_of_any {o : Option σ} {Q : σ → Prop} (p : σ → Bool) (h : o.any p = true)
    (hq : ∀ t, o = some t → p t = true → Q t) : ∃ t, o = some t ∧ Q t := by
  obtain ⟨t, ht, hp⟩ := (Option.any_eq_true _ _).1 h
  exact ⟨t, ht, hq t ht hp⟩

/-- A run that can be evaluated ends in a state of which `P` is decided and `Q` follows. -/
lemma exists_of_run {o : Option σ} {P Q : σ → Prop} [DecidablePred P] (h : o.any (fun t => P t) = true)
    (hq : ∀ t, o = some t → P t → Q t) : ∃ t, o = some t ∧ P t ∧ Q t :=
  exists_of_any _ h fun t ht hp => ⟨of_decide_eq_true hp, hq t ht (of_decide_eq_true hp)⟩

@[simp] lemma run_nil (s : σ) : run next s [] = some s := rfl

lemma run_cons {s t : σ} {e : ε} {es : List ε} :
    run next s (e :: es) = some t ↔ ∃ s', next s e = some s' ∧ run next s' es = some t := by
  simp [run, Option.bind_eq_some_iff]

/-- A run of two consecutive event lists passes through a state between them. -/
lemma run_append {s t : σ} {es fs : List ε} :
    run next s (es ++ fs) = some t ↔
      ∃ m, run next s es = some m ∧ run next m fs = some t := by
  induction es generalizing s with
  | nil => simp
  | cons e es ih =>
    rw [cons_append, run_cons]
    constructor
    · rintro ⟨s', he, hr⟩
      obtain ⟨m, hm, ht⟩ := ih.1 hr
      exact ⟨m, run_cons.2 ⟨s', he, hm⟩, ht⟩
    · rintro ⟨m, hm, ht⟩
      obtain ⟨s', he, hr⟩ := run_cons.1 hm
      exact ⟨s', he, ih.2 ⟨m, hr, ht⟩⟩

/-- A system in which every event is possible completes every run. -/
lemma run_total (total : ∀ s e, ∃ s', next s e = some s') (s : σ) (es : List ε) :
    ∃ t, run next s es = some t := by
  induction es generalizing s with
  | nil => exact ⟨s, rfl⟩
  | cons e es ih =>
    obtain ⟨s', he⟩ := total s e
    obtain ⟨t, ht⟩ := ih s'
    exact ⟨t, run_cons.2 ⟨s', he, ht⟩⟩

/-- Where each step of one system is a step of another, its runs are runs of the other. -/
lemma run_map {σ' ε' : Type*} {next' : σ' → ε' → Option σ'} (f : σ → σ') (g : ε → ε')
    (step : ∀ s e s', next s e = some s' → next' (f s) (g e) = some (f s'))
    {s t : σ} {es : List ε} (h : run next s es = some t) :
    run next' (f s) (es.map g) = some (f t) := by
  induction es generalizing s with
  | nil =>
    cases h
    rfl
  | cons e es ih =>
    obtain ⟨s', he, hr⟩ := run_cons.1 h
    exact run_cons.2 ⟨f s', step s e s' he, ih hr⟩

/-- What each event adds to a log, the events of a run add in order. -/
lemma run_log {α : Type*} (log : σ → List α) (entry : ε → α)
    (step : ∀ s e s', next s e = some s' → log s' = log s ++ [entry e])
    {s t : σ} {es : List ε} (h : run next s es = some t) : log t = log s ++ es.map entry := by
  induction es generalizing s with
  | nil =>
    cases h
    exact (append_nil _).symm
  | cons e es ih =>
    obtain ⟨s', he, hr⟩ := run_cons.1 h
    rw [ih hr, step s e s' he, append_assoc]
    rfl

/-- A condition on the events alone is one on the steps. -/
lemma guarded_of_forall {p : ε → Prop} {s : σ} {es : List ε} (hp : ∀ e ∈ es, p e) :
    Guarded next (fun _ e => p e) s es := by
  induction es generalizing s with
  | nil => trivial
  | cons e es ih =>
    obtain ⟨he, hes⟩ := forall_mem_cons.1 hp
    exact ⟨he, fun _ _ => ih hes⟩

/-- A condition on the events alone may be added to the one on the steps. -/
lemma Guarded.and_forall {ok : σ → ε → Prop} {p : ε → Prop} {s : σ} {es : List ε}
    (hg : Guarded next ok s es) (hp : ∀ e ∈ es, p e) :
    Guarded next (fun s e => p e ∧ ok s e) s es := by
  induction es generalizing s with
  | nil => trivial
  | cons e es ih =>
    obtain ⟨he, hes⟩ := forall_mem_cons.1 hp
    exact ⟨⟨he, hg.1⟩, fun s' h => ih (hg.2 s' h) hes⟩

/-- A run that does not meet the condition breaks it at one of its events. -/
lemma exists_of_not_guarded {ok : σ → ε → Prop} {s t : σ} {es : List ε}
    (hg : ¬Guarded next ok s es) (hr : run next s es = some t) :
    ∃ before e after m, es = before ++ e :: after ∧ run next s before = some m ∧ ¬ok m e ∧
      run next m (e :: after) = some t := by
  induction es generalizing s with
  | nil => exact absurd trivial hg
  | cons e es ih =>
    obtain ⟨s', he, hr'⟩ := run_cons.1 hr
    by_cases hok : ok s e
    · have hrest : ¬Guarded next ok s' es := fun hrest =>
        hg ⟨hok, fun s'' he' => Option.some.inj (he.symm.trans he') ▸ hrest⟩
      obtain ⟨before, e', after, m, rfl, hbefore, hbad, hafter⟩ := ih hrest hr'
      exact ⟨e :: before, e', after, m, rfl, run_cons.2 ⟨s', he, hbefore⟩, hbad, hafter⟩
    · exact ⟨[], e, es, s, rfl, rfl, hok, hr⟩

/-- **The invariant rule.** A predicate that every guarded step keeps holds at the end of every
guarded run that starts in it. -/
theorem Guarded.invariant {ok : σ → ε → Prop} (Inv : σ → Prop)
    (step : ∀ s e s', Inv s → ok s e → next s e = some s' → Inv s')
    {s t : σ} {es : List ε} (hs : Inv s) (hg : Guarded next ok s es)
    (hr : run next s es = some t) : Inv t := by
  induction es generalizing s with
  | nil =>
    cases hr
    exact hs
  | cons e es ih =>
    obtain ⟨s', he, hr'⟩ := run_cons.1 hr
    exact ih (step s e s' hs hg.1 he) (hg.2 s' he) hr'

/-- A measure that only some of the events increase, each by one at most. -/
theorem measure_of_step (Inv : σ → Prop) (measure : σ → ℕ) (counts : ε → Bool)
    (step : ∀ s e s', Inv s → next s e = some s' →
      Inv s' ∧ measure s' ≤ measure s + [e].countP counts)
    {s t : σ} {es : List ε} (hs : Inv s) (hr : run next s es = some t) :
    measure t ≤ measure s + es.countP counts := by
  induction es generalizing s with
  | nil =>
    cases hr
    exact le_rfl
  | cons e es ih =>
    obtain ⟨s', he, hr'⟩ := run_cons.1 hr
    obtain ⟨hs', hstep⟩ := step s e s' hs he
    rw [← singleton_append, countP_append, ← Nat.add_assoc]
    exact (ih hs' hr').trans (Nat.add_le_add_right hstep _)

/-- The invariant rule without a condition on the events. -/
theorem invariant_of_step (Inv : σ → Prop)
    (step : ∀ s e s', Inv s → next s e = some s' → Inv s')
    {s t : σ} {es : List ε} (hs : Inv s) (hr : run next s es = some t) : Inv t :=
  (guarded_of_forall fun _ _ => trivial).invariant Inv (fun s e s' hinv _ => step s e s' hinv) hs hr

end Lib.Run
