import OpenDefender.Lib.Pool

/-!
Work that is to be done once for a key: a process looks for the mark of the key, works, and sets the mark
when it has finished.

The check and the mark are two steps, so this is only safe as long as two processes are not at work for
one key. `Step` has this as the condition of its first step, and `Inv.step` carries the invariant along;
`Inv.nodup` is that no key is done twice.
-/

namespace Lib.CheckMark

open List

variable {κ : Type*}

/-- Where a process is: it has nothing to do, it works, or it has finished and not set the mark yet. -/
inductive Phase (κ : Type*) where
  | idle
  | working (key : κ)
  | finished (key : κ)

/-- The key a process is at work for. -/
def Phase.key? : Phase κ → Option κ
  | .idle => none
  | .working key => some key
  | .finished key => some key

/-- The processes, the marks, and the keys that have been done, in order. -/
structure State (κ : Type*) where
  phases : List (Phase κ)
  marked : List κ
  done : List κ

/-- The steps. A process that fails gives up its key. -/
inductive Step (s : State κ) : State κ → Prop
  | stay : Step s s
  | start (i : ℕ) (key : κ) (hi : s.phases[i]? = some .idle) (hnew : key ∉ s.marked)
      (halone : ∀ phase ∈ s.phases, phase.key? ≠ some key) :
      Step s { s with phases := s.phases.set i (.working key) }
  | finish (i : ℕ) (key : κ) (hi : s.phases[i]? = some (.working key)) :
      Step s { s with phases := s.phases.set i (.finished key), done := s.done ++ [key] }
  | fail (i : ℕ) (key : κ) (hi : s.phases[i]? = some (.working key)) :
      Step s { s with phases := s.phases.set i .idle }
  | mark (i : ℕ) (key : κ) (hi : s.phases[i]? = some (.finished key)) :
      Step s { s with phases := s.phases.set i .idle, marked := s.marked ++ [key] }

/-- The two processes are not at work for one key. -/
def Apart (p q : Phase κ) : Prop :=
  ∀ key, p.key? = some key → q.key? ≠ some key

lemma Apart.symm (p q : Phase κ) (h : Apart p q) : Apart q p :=
  fun key hq hp => h key hp hq

lemma apart_idle (q : Phase κ) : Apart .idle q :=
  fun _ h => nomatch h

structure Inv (s : State κ) : Prop where
  apart : s.phases.Pairwise Apart
  /-- What is done is marked, or its process is about to mark it. -/
  marked : ∀ key ∈ s.done, key ∈ s.marked ∨ .finished key ∈ s.phases
  fresh : ∀ key, .working key ∈ s.phases → key ∉ s.done
  nodup : s.done.Nodup

variable {s s' : State κ} {i : ℕ} {key : κ} {phase : Phase κ}

lemma inv_idle (hidle : ∀ phase ∈ s.phases, phase = .idle) (hdone : s.done = []) : Inv s where
  apart := by
    refine pairwise_of_forall_mem_list fun p hp q _ => ?_
    rw [hidle p hp]
    exact apart_idle q
  marked key hkey := by
    rw [hdone] at hkey
    cases hkey
  fresh key hkey := nomatch hidle _ hkey
  nodup := hdone ▸ nodup_nil

/-- Everyone else is not at work for the key of a process. -/
lemma Inv.others (h : Inv s) (hi : s.phases[i]? = some phase) (hkey : phase.key? = some key) :
    ∀ other ∈ s.phases.eraseIdx i, other.key? ≠ some key :=
  fun _ hother => Pool.rel_of_mem_eraseIdx Apart.symm h.apart hi hother key hkey

/-- A process goes on with its key, or gives it up. -/
lemma Inv.apart_set (h : Inv s) (hi : s.phases[i]? = some phase) {phase' : Phase κ}
    (hkey : ∀ key, phase'.key? = some key → phase.key? = some key) :
    (s.phases.set i phase').Pairwise Apart := by
  refine Pool.pairwise_set Apart.symm h.apart fun other hother key hphase => ?_
  exact h.others hi (hkey key hphase) other hother

/-- One that has finished stays, unless it is the one that is replaced. -/
lemma finished_mem_set (hi : s.phases[i]? = some phase) (hmem : .finished key ∈ s.phases)
    (hne : phase ≠ .finished key) (phase' : Phase κ) : .finished key ∈ s.phases.set i phase' := by
  obtain ⟨j, hj⟩ := mem_iff_getElem?.1 hmem
  have hij : i ≠ j := by
    rintro rfl
    exact hne (Option.some.inj (hi.symm.trans hj))
  exact mem_iff_getElem?.2 ⟨j, by rw [getElem?_set_ne hij, hj]⟩

/-- Whoever works was at work before. -/
lemma Inv.fresh_of_mem_set (h : Inv s) (phase' : Phase κ) (hphase : ∀ key, phase' ≠ .working key)
    (hmem : .working key ∈ s.phases.set i phase') : key ∉ s.done := by
  rcases Pool.mem_set_cases hmem with heq | hmem
  · exact absurd heq.symm (hphase key)
  · exact h.fresh key (mem_of_mem_eraseIdx hmem)

/-- One step. -/
theorem Inv.step (h : Inv s) (hstep : Step s s') : Inv s' := by
  cases hstep with
  | stay => exact h
  | start i key hi hnew halone =>
    -- nobody has done this key: it is not marked, and nobody is about to mark it
    have hdone : key ∉ s.done := fun hkey =>
      (h.marked key hkey).elim hnew fun hmem => halone _ hmem rfl
    refine ⟨?_, ?_, ?_, h.nodup⟩
    · refine Pool.pairwise_set Apart.symm h.apart fun other hother key' hkey' => ?_
      cases hkey'
      exact halone other (mem_of_mem_eraseIdx hother)
    · refine fun key' hkey' => (h.marked key' hkey').imp_right fun hmem => ?_
      exact finished_mem_set hi hmem nofun _
    · intro key' hkey'
      rcases Pool.mem_set_cases hkey' with heq | hmem
      · cases heq
        exact hdone
      · exact h.fresh key' (mem_of_mem_eraseIdx hmem)
  | finish i key hi =>
    have hdone : key ∉ s.done := h.fresh key (mem_of_getElem? hi)
    refine ⟨h.apart_set hi fun _ hkey => hkey, ?_, ?_, ?_⟩
    · intro key' hkey'
      rcases List.mem_append.1 hkey' with hkey' | hkey'
      · exact (h.marked key' hkey').imp_right fun hmem =>
          finished_mem_set hi hmem nofun _
      · rw [mem_singleton.1 hkey']
        exact Or.inr (List.mem_set (List.getElem?_eq_some_iff.1 hi).1 _)
    · intro key' hkey' hmem
      rcases List.mem_append.1 hmem with hmem | hmem
      · exact h.fresh_of_mem_set (.finished key) nofun hkey' hmem
      · rw [mem_singleton.1 hmem] at hkey'
        rcases Pool.mem_set_cases hkey' with heq | hother
        · cases heq
        · exact h.others hi rfl _ hother rfl
    · exact h.nodup.append (nodup_singleton key) (by simpa using hdone)
  | fail i key hi =>
    refine ⟨h.apart_set hi (fun _ hkey => nomatch hkey), ?_, fun _ => h.fresh_of_mem_set .idle nofun,
      h.nodup⟩
    intro key' hkey'
    refine (h.marked key' hkey').imp_right fun hmem => ?_
    exact finished_mem_set hi hmem nofun .idle
  | mark i key hi =>
    refine ⟨h.apart_set hi (fun _ hkey => nomatch hkey), ?_, fun _ => h.fresh_of_mem_set .idle nofun,
      h.nodup⟩
    intro key' hkey'
    rcases h.marked key' hkey' with hmarked | hmem
    · exact Or.inl (mem_append_left _ hmarked)
    · by_cases heq : key = key'
      · exact Or.inl (mem_append_right _ (heq ▸ mem_singleton_self _))
      · exact Or.inr (finished_mem_set hi hmem (fun h => heq (Phase.finished.inj h)) _)

end Lib.CheckMark
