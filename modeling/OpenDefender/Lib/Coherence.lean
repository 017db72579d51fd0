import OpenDefender.Lib.Assoc
import OpenDefender.Lib.Run

/-!
Keeping copies coherent. `n` clients keep entries in memories of their own and in one server they
share. A job removes entries: from the server by deleting keys and by cursor walks, from the
memories by messages that reach each client at a time of their own.

A cursor walk gives no snapshot. It returns every key that is on the server from its beginning to its
end; other keys it may return or not. The model counts how often each key has been removed, so that
a walk ends exactly when every key it has seen at its beginning has been removed since.

* `Job.step` is one step of a job, `Job.Owes` the cells it has still to clear.
* `Job.Covers` says that every stale entry lies in a cell that is still owed, for any notion of
  staleness. It is kept by the job's own steps (`Covers.step`), by every other removal
  (`Covers.of_shrinks`), and by a new entry that is not stale or lies in cells still owed
  (`Covers.fill`). A finished job owes nothing, so nothing stale is left (`Covers.fresh`).
* `get_of_run` is the effect of a job nobody disturbs, `exists_run_done` that it can be finished.
-/

namespace Lib.Coherence

open Run List

/-- The language of a family of caches: which keys a pattern fits, and which keys a message clears
from a memory. -/
structure Dialect (κ ν π μ : Type*) [DecidableEq κ] where
  fits : π → κ → Bool
  clears : μ → κ → Bool
  apply : Assoc κ ν → μ → Assoc κ ν
  get_apply : ∀ memory m k, (apply memory m).get k = if clears m k then none else memory.get k

/-- The shared server: its entries, and how often each key has been removed. -/
structure Server (κ ν : Type*) where
  data : Assoc κ ν
  removals : κ → ℕ

/-- The memories of the clients and the server. -/
structure Cluster (n : ℕ) (κ ν : Type*) where
  memories : Fin n → Assoc κ ν
  server : Server κ ν

/-- The commands of a job. A walk in progress carries the keys it found at its beginning, each with
its count of removals at that time. -/
inductive Command (κ π μ : Type*) where
  | del (k : κ)
  | walk (p : π)
  | walking (p : π) (owed : List (κ × ℕ))
  | publish (m : μ)
  deriving DecidableEq

/-- A job: the commands still to be executed and the messages still to be delivered. -/
structure Job (n : ℕ) (κ π μ : Type*) where
  todo : List (Command κ π μ)
  pending : List (Fin n × μ)
  deriving DecidableEq

/-- The job of a list of commands. -/
def Job.ofCommands {n : ℕ} {κ π μ : Type*} (todo : List (Command κ π μ)) : Job n κ π μ :=
  { todo, pending := [] }

/-- Nothing is left to be executed or delivered. -/
def Job.Done {n : ℕ} {κ π μ : Type*} (job : Job n κ π μ) : Prop :=
  job.todo = [] ∧ job.pending = []

instance {n : ℕ} {κ π μ : Type*} [DecidableEq κ] [DecidableEq π] [DecidableEq μ]
    (job : Job n κ π μ) : Decidable job.Done :=
  inferInstanceAs (Decidable (_ ∧ _))

/-- A step of a job: the next command is executed, a walk returns a page, or a client gets a
message. -/
inductive JobEvent (n : ℕ) (κ μ : Type*) where
  | exec
  | page (ks : List κ)
  | deliver (a : Fin n) (m : μ)
  deriving DecidableEq

variable {n : ℕ} {κ ν π μ : Type*} [DecidableEq κ]

namespace Cluster

/-- No entries, no removals. -/
def empty : Cluster n κ ν :=
  { memories := fun _ => .empty, server := { data := .empty, removals := fun _ => 0 } }

/-- The entry of a cell: of the server (`none`) or of a client's memory. -/
def get (s : Cluster n κ ν) : Option (Fin n) → κ → Option ν
  | none, k => s.server.data.get k
  | some a, k => (s.memories a).get k

variable (D : Dialect κ ν π μ) (s : Cluster n κ ν)

/-- Removes keys from the server. -/
def remove (ks : List κ) : Cluster n κ ν :=
  { s with server :=
      { data := s.server.data.eraseAll ks
        removals := fun k => if k ∈ ks then s.server.removals k + 1 else s.server.removals k } }

/-- A client applies a message. -/
def tell (a : Fin n) (m : μ) : Cluster n κ ν :=
  { s with memories := Function.update s.memories a (D.apply (s.memories a) m) }

/-- A client writes an entry to its memory and to the server. -/
def fill (a : Fin n) (k : κ) (v v' : ν) : Cluster n κ ν :=
  { memories := Function.update s.memories a ((s.memories a).set k v)
    server := { s.server with data := s.server.data.set k v' } }

/-- The keys a walk finds at its beginning, each with its count of removals. -/
def found (fits : κ → Bool) : List (κ × ℕ) :=
  (s.server.data.keys.filter fits).map fun k => (k, s.server.removals k)

lemma get_remove_none (ks : List κ) (k : κ) :
    (s.remove ks).get none k = if k ∈ ks then none else s.get none k :=
  Assoc.get_eraseAll _ _ _

lemma get_tell_some (a b : Fin n) (m : μ) (k : κ) : (s.tell D a m).get (some b) k =
      if b = a ∧ D.clears m k = true then none else s.get (some b) k := by
  by_cases hb : b = a
  · subst hb
    simp [get, tell, D.get_apply]
  · simp [get, tell, hb]

/-- After a fill, an entry is the new one in one of its two cells, or was there before. -/
lemma get_fill {s : Cluster n κ ν} {a : Fin n} {k k' : κ} {v v' w : ν} {p : Option (Fin n)}
    (h : (s.fill a k v v').get p k' = some w) :
    (p = some a ∧ k' = k ∧ w = v) ∨ (p = none ∧ k' = k ∧ w = v') ∨ s.get p k' = some w := by
  cases p with
  | none =>
    simp only [get, fill, Assoc.get_set] at h
    split at h
    · rename_i hk
      exact Or.inr (Or.inl ⟨rfl, hk, (Option.some.inj h).symm⟩)
    · exact Or.inr (Or.inr h)
  | some b =>
    by_cases hb : b = a
    · subst hb
      simp only [get, fill, Function.update_self, Assoc.get_set] at h
      split at h
      · rename_i hk
        exact Or.inl ⟨rfl, hk, (Option.some.inj h).symm⟩
      · exact Or.inr (Or.inr h)
    · simp only [get, fill, Function.update_of_ne hb] at h
      exact Or.inr (Or.inr h)

@[simp] lemma get_fill_server (a : Fin n) (k : κ) (v v' : ν) : (s.fill a k v v').get none k = some v' := by
  simp [get, fill]

/-- Every entry of `s'` was in `s`, and what is still on the server has not been removed between. -/
structure Shrinks (s s' : Cluster n κ ν) : Prop where
  get : ∀ p k v, s'.get p k = some v → s.get p k = some v
  removals : ∀ k v, s'.get none k = some v → s'.server.removals k = s.server.removals k

lemma Shrinks.refl : Shrinks s s :=
  ⟨fun _ _ _ h => h, fun _ _ _ => rfl⟩

lemma shrinks_remove (ks : List κ) : Shrinks s (s.remove ks) := by
  refine ⟨fun p k v h => ?_, fun k v h => ?_⟩
  · cases p with
    | none =>
      rw [get_remove_none] at h
      split at h
      · cases h
      · exact h
    | some a => exact h
  · rw [get_remove_none] at h
    split at h
    · cases h
    · rename_i hk
      simp [remove, hk]

lemma shrinks_tell (a : Fin n) (m : μ) : Shrinks s (s.tell D a m) := by
  refine ⟨fun p k v h => ?_, fun _ _ _ => rfl⟩
  cases p with
  | none => exact h
  | some b =>
    rw [get_tell_some] at h
    split at h
    · cases h
    · exact h

end Cluster

/-! ### Steps of a job -/

section Steps

variable [DecidableEq μ] (D : Dialect κ ν π μ)

/-- Executes the next command. A walk is executed twice: at its beginning it takes down the keys it
finds, and it ends once each of them has been removed. -/
def Job.exec (s : Cluster n κ ν) (job : Job n κ π μ) : Option (Cluster n κ ν × Job n κ π μ) :=
  match job.todo with
  | [] => none
  | .del k :: rest => some (s.remove [k], { job with todo := rest })
  | .walk p :: rest => some (s, { job with todo := .walking p (s.found (D.fits p)) :: rest })
  | .walking _ owed :: rest =>
    if ∀ b ∈ owed, s.server.removals b.1 ≠ b.2 then some (s, { job with todo := rest }) else none
  | .publish m :: rest =>
    some (s, { todo := rest, pending := job.pending ++ (List.finRange n).map fun a => (a, m) })

/-- A walk in progress returns a page, and its keys are removed. -/
def Job.page (s : Cluster n κ ν) (job : Job n κ π μ) (ks : List κ) :
    Option (Cluster n κ ν × Job n κ π μ) :=
  match job.todo with
  | .walking p _ :: _ => if ∀ k ∈ ks, D.fits p k = true then some (s.remove ks, job) else none
  | _ => none

/-- One step of a job. -/
def Job.step : Cluster n κ ν × Job n κ π μ → JobEvent n κ μ → Option (Cluster n κ ν × Job n κ π μ)
  | (s, job), .exec => job.exec D s
  | (s, job), .page ks => job.page D s ks
  | (s, job), .deliver a m =>
    if (a, m) ∈ job.pending then
      some (s.tell D a m, { job with pending := job.pending.erase (a, m) })
    else none

/-- What a step can be. -/
inductive Job.Step : Cluster n κ ν × Job n κ π μ → Cluster n κ ν × Job n κ π μ → Prop where
  | del {s k rest pending} : Step (s, ⟨.del k :: rest, pending⟩) (s.remove [k], ⟨rest, pending⟩)
  | openWalk {s p rest pending} :
      Step (s, ⟨.walk p :: rest, pending⟩)
        (s, ⟨.walking p (s.found (D.fits p)) :: rest, pending⟩)
  | closeWalk {s p owed rest pending} (hend : ∀ b ∈ owed, s.server.removals b.1 ≠ b.2) :
      Step (s, ⟨.walking p owed :: rest, pending⟩) (s, ⟨rest, pending⟩)
  | publish {s m rest pending} :
      Step (s, ⟨.publish m :: rest, pending⟩)
        (s, ⟨rest, pending ++ (List.finRange n).map fun a => (a, m)⟩)
  | page {s p owed rest pending ks} (hfits : ∀ k ∈ ks, D.fits p k = true) :
      Step (s, ⟨.walking p owed :: rest, pending⟩)
        (s.remove ks, ⟨.walking p owed :: rest, pending⟩)
  | deliver {s todo pending a m} (hmem : (a, m) ∈ pending) :
      Step (s, ⟨todo, pending⟩) (s.tell D a m, ⟨todo, pending.erase (a, m)⟩)

variable {D} in
lemma Job.Step.of_step {x y : Cluster n κ ν × Job n κ π μ} {e : JobEvent n κ μ}
    (h : Job.step D x e = some y) : Job.Step D x y := by
  obtain ⟨s, todo, pending⟩ := x
  cases e with
  | exec =>
    simp only [Job.step, Job.exec] at h
    split at h
    · cases h
    · cases h
      exact .del
    · cases h
      exact .openWalk
    · split at h
      · rename_i hend
        cases h
        exact .closeWalk hend
      · cases h
    · cases h
      exact .publish
  | page ks =>
    simp only [Job.step, Job.page] at h
    split at h
    · split at h
      · rename_i hfits
        cases h
        exact .page hfits
      · cases h
    · cases h
  | deliver a m =>
    simp only [Job.step] at h
    split at h
    · rename_i hmem
      cases h
      exact .deliver hmem
    · cases h

/-- What a command will still remove from the server. -/
def Command.Removes (s : Cluster n κ ν) : Command κ π μ → κ → Prop
  | .del k', k => k = k'
  | .walk p, k => D.fits p k = true
  | .walking _ owed, k => (k, s.server.removals k) ∈ owed
  | .publish _, _ => False

/-- What a command will announce to the clients. -/
def Command.Announces : Command κ π μ → κ → Prop
  | .publish m, k => D.clears m k = true
  | _, _ => False

/-- The cells a job has still to clear. -/
def Job.Owes (s : Cluster n κ ν) (job : Job n κ π μ) : Option (Fin n) → κ → Prop
  | none, k => ∃ cmd ∈ job.todo, cmd.Removes D s k
  | some a, k =>
    (∃ cmd ∈ job.todo, cmd.Announces D k) ∨ ∃ am ∈ job.pending, am.1 = a ∧ D.clears am.2 k = true

instance (s : Cluster n κ ν) (cmd : Command κ π μ) (k : κ) : Decidable (cmd.Removes D s k) := by
  cases cmd <;> unfold Command.Removes <;> infer_instance

instance (cmd : Command κ π μ) (k : κ) : Decidable (cmd.Announces D k) := by
  cases cmd <;> unfold Command.Announces <;> infer_instance

instance (s : Cluster n κ ν) (job : Job n κ π μ) (p : Option (Fin n)) (k : κ) :
    Decidable (job.Owes D s p k) := by
  cases p <;> unfold Job.Owes <;> infer_instance

/-- Every stale entry lies in a cell the job has still to clear. -/
def Job.Covers (Stale : Option (Fin n) → κ → ν → Prop) (s : Cluster n κ ν) (job : Job n κ π μ) :
    Prop :=
  ∀ p k v, s.get p k = some v → Stale p k v → job.Owes D s p k

end Steps

/-! ### The rules for stale entries -/

section Rules

variable {D : Dialect κ ν π μ} {s s' : Cluster n κ ν} {job job' : Job n κ π μ}
  {Stale : Option (Fin n) → κ → ν → Prop}

/-- What is still on the server is still to be removed. -/
lemma Command.Removes.of_shrinks {cmd : Command κ π μ} {k : κ} {v : ν} (hs : s.Shrinks s')
    (hv : s'.get none k = some v) (h : cmd.Removes D s k) : cmd.Removes D s' k := by
  cases cmd with
  | walking p owed =>
    show (k, s'.server.removals k) ∈ owed
    rw [hs.removals k v hv]
    exact h
  | del k' => exact h
  | walk p => exact h
  | publish m => exact h

lemma Job.Owes.of_shrinks {p : Option (Fin n)} {k : κ} {v : ν} (hs : s.Shrinks s')
    (hv : s'.get p k = some v) (h : job.Owes D s p k) : job.Owes D s' p k := by
  cases p with
  | none =>
    obtain ⟨cmd, hcmd, hk⟩ := h
    exact ⟨cmd, hcmd, hk.of_shrinks hs hv⟩
  | some a => exact h

/-- Removals by others keep the stale entries covered. -/
theorem Job.Covers.of_shrinks (h : job.Covers D Stale s) (hs : s.Shrinks s') :
    job.Covers D Stale s' :=
  fun p k v hv hstale => (h p k v (hs.get p k v hv) hstale).of_shrinks hs hv

/-- An entry written by a client keeps the stale entries covered if it is not stale itself, or goes
to cells that are still owed. -/
theorem Job.Covers.fill {a : Fin n} {k : κ} {v v' : ν} (h : job.Covers D Stale s)
    (hm : ¬ Stale (some a) k v ∨ job.Owes D s (some a) k)
    (hr : ¬ Stale none k v' ∨ job.Owes D s none k) :
    job.Covers D Stale (s.fill a k v v') := by
  -- what is owed does not depend on the entries
  have howes (p : Option (Fin n)) (k' : κ) :
      job.Owes D s p k' → job.Owes D (s.fill a k v v') p k' := by
    cases p <;> exact id
  intro p k' w hw hstale
  rcases Cluster.get_fill hw with ⟨rfl, rfl, rfl⟩ | ⟨rfl, rfl, rfl⟩ | hold
  · exact howes _ _ (hm.resolve_left (not_not_intro hstale))
  · exact howes _ _ (hr.resolve_left (not_not_intro hstale))
  · exact howes p k' (h p k' w hold hstale)

/-- When a job is done, nothing stale is left. -/
theorem Job.Covers.fresh (h : job.Covers D Stale s) (hdone : job.Done) {p : Option (Fin n)} {k : κ}
    {v : ν} (hv : s.get p k = some v) : ¬ Stale p k v := by
  intro hstale
  have howes := h p k v hv hstale
  cases p with
  | none => simp [Owes, hdone.1] at howes
  | some a => simp [Owes, hdone.1, hdone.2] at howes

variable [DecidableEq μ]

/-- A job that is done takes no step. -/
lemma Job.Done.not_step {x : Cluster n κ ν × Job n κ π μ} (h : job.Done) :
    ¬ Job.Step D (s, job) x := by
  obtain ⟨todo, pending⟩ := job
  obtain ⟨rfl, rfl⟩ := h
  rintro (_ | _ | _ | _ | _ | hmem)
  exact absurd hmem not_mem_nil

/-- A job only removes. -/
lemma Job.Step.shrinks (h : Job.Step D (s, job) (s', job')) : s.Shrinks s' := by
  cases h with
  | del => exact Cluster.shrinks_remove s _
  | openWalk => exact .refl s
  | closeWalk => exact .refl s
  | publish => exact .refl s
  | page => exact Cluster.shrinks_remove s _
  | deliver => exact Cluster.shrinks_tell D s _ _

/-- A cell that is owed before a step of the job and still holds an entry is owed afterwards. -/
lemma Job.Owes.step (h : Job.Step D (s, job) (s', job')) {p : Option (Fin n)} {k : κ} {v : ν}
    (hv : s'.get p k = some v) (howes : job.Owes D s p k) : job'.Owes D s' p k := by
  replace howes := howes.of_shrinks h.shrinks hv
  cases p with
  | none =>
    obtain ⟨cmd, hcmd, hk⟩ := howes
    cases h with
    | del =>
      rcases mem_cons.1 hcmd with rfl | hrest
      · rw [Cluster.get_remove_none, if_pos (mem_singleton.2 hk)] at hv
        cases hv
      · exact ⟨cmd, hrest, hk⟩
    | openWalk =>
      rcases mem_cons.1 hcmd with rfl | hrest
      · -- the key is on the server, so the walk has taken it down
        refine ⟨_, mem_cons_self, mem_map.2 ⟨k, mem_filter.2 ⟨?_, hk⟩, rfl⟩⟩
        exact Assoc.mem_keys_of_get hv
      · exact ⟨cmd, mem_cons_of_mem _ hrest, hk⟩
    | closeWalk hend =>
      rcases mem_cons.1 hcmd with rfl | hrest
      · exact absurd rfl (hend _ hk)
      · exact ⟨cmd, hrest, hk⟩
    | publish =>
      rcases mem_cons.1 hcmd with rfl | hrest
      · exact hk.elim
      · exact ⟨cmd, hrest, hk⟩
    | page => exact ⟨cmd, hcmd, hk⟩
    | deliver => exact ⟨cmd, hcmd, hk⟩
  | some a =>
    cases h with
    | del => simpa [Owes, Command.Announces] using howes
    | openWalk => simpa [Owes, Command.Announces] using howes
    | closeWalk => simpa [Owes, Command.Announces] using howes
    | publish =>
      rename_i m rest pending
      simp only [Owes, exists_mem_cons_iff] at howes ⊢
      rcases howes with (hm | hrest) | ⟨am, hmem, ham⟩
      · refine Or.inr ⟨(a, m), mem_append_right _ ?_, rfl, hm⟩
        exact mem_map.2 ⟨a, mem_finRange a, rfl⟩
      · exact Or.inl hrest
      · exact Or.inr ⟨am, mem_append_left _ hmem, ham⟩
    | page => exact howes
    | deliver =>
      refine howes.imp_right fun ⟨am, hmem, ha, hclears⟩ => ⟨am, ?_, ha, hclears⟩
      -- the message just delivered has cleared its keys
      refine (mem_erase_of_ne ?_).2 hmem
      rintro rfl
      rw [Cluster.get_tell_some, if_pos ⟨ha.symm, hclears⟩] at hv
      cases hv

/-- The job's own steps keep the stale entries covered. -/
theorem Job.Covers.step {e : JobEvent n κ μ} (h : job.Covers D Stale s)
    (hstep : Job.step D (s, job) e = some (s', job')) : job'.Covers D Stale s' :=
  fun p k v hv hstale =>
    (h p k v ((Job.Step.of_step hstep).shrinks.get p k v hv) hstale).step (.of_step hstep) hv

end Rules

/-! ### A job nobody disturbs -/

section Alone

variable (D : Dialect κ ν π μ)

/-- What a command can remove from the server. -/
def Command.Targets : Command κ π μ → κ → Prop
  | .del k', k => k = k'
  | .walk p, k => D.fits p k = true
  | .walking p _, k => D.fits p k = true
  | .publish _, _ => False

/-- The cells a job can clear. -/
def Job.Targets (job : Job n κ π μ) : Option (Fin n) → κ → Prop
  | none, k => ∃ cmd ∈ job.todo, cmd.Targets D k
  | some a, k =>
    (∃ cmd ∈ job.todo, cmd.Announces D k) ∨ ∃ am ∈ job.pending, am.1 = a ∧ D.clears am.2 k = true

variable {D} {s s' : Cluster n κ ν} {job job' : Job n κ π μ}

/-- A job that has not begun owes what it can clear. -/
lemma Job.Targets.owes {todo : List (Command κ π μ)} (hplain : ∀ p owed, .walking p owed ∉ todo)
    {p : Option (Fin n)} {k : κ} (h : (Job.ofCommands todo).Targets D p k) :
    (Job.ofCommands todo).Owes D s p k := by
  cases p with
  | none =>
    obtain ⟨cmd, hcmd, hk⟩ := h
    refine ⟨cmd, hcmd, ?_⟩
    cases cmd with
    | walking q owed => exact absurd hcmd (hplain q owed)
    | del k' => exact hk
    | walk q => exact hk
    | publish m => exact hk
  | some a => exact h

/-- A longer list of commands clears no fewer cells. -/
lemma Job.Targets.mono {todo todo' : List (Command κ π μ)} (hsub : todo ⊆ todo')
    {p : Option (Fin n)} {k : κ} (h : (Job.ofCommands todo).Targets D p k) :
    (Job.ofCommands todo').Targets D p k := by
  cases p with
  | none =>
    obtain ⟨cmd, hcmd, hk⟩ := h
    exact ⟨cmd, hsub hcmd, hk⟩
  | some a =>
    refine h.imp_left ?_
    rintro ⟨cmd, hcmd, hk⟩
    exact ⟨cmd, hsub hcmd, hk⟩

lemma Job.targets_append {todo todo' : List (Command κ π μ)} {p : Option (Fin n)} {k : κ} :
    (Job.ofCommands (todo ++ todo')).Targets D p k ↔
      (Job.ofCommands todo).Targets D p k ∨ (Job.ofCommands todo').Targets D p k := by
  cases p <;> simp [Targets, ofCommands, or_and_right, exists_or]

variable [DecidableEq μ]

/-- A job leaves the other cells alone. -/
lemma Job.Step.get_other (h : Job.Step D (s, job) (s', job')) {p : Option (Fin n)} {k : κ}
    (hp : ¬ job.Targets D p k) : s'.get p k = s.get p k ∧ ¬ job'.Targets D p k := by
  cases p with
  | none =>
    cases h with
    | del =>
      simp only [Targets, exists_mem_cons_iff, not_or] at hp
      rw [Cluster.get_remove_none, if_neg fun hk => hp.1 (mem_singleton.1 hk)]
      exact ⟨rfl, hp.2⟩
    | openWalk => exact ⟨rfl, by simpa [Targets, Command.Targets] using hp⟩
    | closeWalk =>
      simp only [Targets, exists_mem_cons_iff, not_or] at hp
      exact ⟨rfl, hp.2⟩
    | publish => exact ⟨rfl, by simpa [Targets, Command.Targets] using hp⟩
    | page hfits =>
      refine ⟨?_, hp⟩
      simp only [Targets, exists_mem_cons_iff, not_or] at hp
      rw [Cluster.get_remove_none, if_neg fun hk => hp.1 (hfits k hk)]
    | deliver => exact ⟨rfl, hp⟩
  | some b =>
    cases h with
    | del => exact ⟨rfl, by simpa [Targets, Command.Announces] using hp⟩
    | openWalk => exact ⟨rfl, by simpa [Targets, Command.Announces] using hp⟩
    | closeWalk => exact ⟨rfl, by simpa [Targets, Command.Announces] using hp⟩
    | publish =>
      simp only [Targets, exists_mem_cons_iff, not_or] at hp
      refine ⟨rfl, fun hnew => hnew.elim hp.1.2 ?_⟩
      rintro ⟨am, hmem, ha, hclears⟩
      rcases mem_append.1 hmem with hold | hmap
      · exact hp.2 ⟨am, hold, ha, hclears⟩
      · obtain ⟨a, _, rfl⟩ := mem_map.1 hmap
        exact hp.1.1 hclears
    | page => exact ⟨rfl, hp⟩
    | deliver hmem =>
      simp only [Targets, not_or] at hp
      refine ⟨?_, fun hnew => hnew.elim hp.1 ?_⟩
      · rw [Cluster.get_tell_some, if_neg fun hb => hp.2 ⟨_, hmem, hb.1.symm, hb.2⟩]
      · rintro ⟨am, ham, hb, hclears⟩
        exact hp.2 ⟨am, mem_of_mem_erase ham, hb, hclears⟩

/-- **The effect of a job nobody disturbs**: the cells it can clear are empty, the others are as
before. -/
theorem get_of_run {todo : List (Command κ π μ)} (hplain : ∀ p owed, .walking p owed ∉ todo)
    {es : List (JobEvent n κ μ)} (hrun : run (Job.step D) (s, .ofCommands todo) es = some (s', job'))
    (hdone : job'.Done) (p : Option (Fin n)) (k : κ) :
    ((Job.ofCommands todo).Targets D p k → s'.get p k = none) ∧
      (¬ (Job.ofCommands todo).Targets D p k → s'.get p k = s.get p k) := by
  constructor
  · intro htarget
    -- staleness is being in this one cell
    have hcovers : job'.Covers D (fun q k' _ => q = p ∧ k' = k) s' :=
      invariant_of_step (fun sj : Cluster n κ ν × Job n κ π μ =>
          sj.2.Covers D (fun q k' _ => q = p ∧ k' = k) sj.1)
        (fun _ _ _ hcov hstep => hcov.step hstep)
        (by rintro q k' v _ ⟨rfl, rfl⟩; exact htarget.owes hplain) hrun
    cases hget : s'.get p k with
    | none => rfl
    | some v => exact absurd ⟨rfl, rfl⟩ (hcovers.fresh hdone hget)
  · intro hother
    exact (invariant_of_step (fun sj : Cluster n κ ν × Job n κ π μ =>
        sj.1.get p k = s.get p k ∧ ¬ sj.2.Targets D p k)
      (fun _ _ _ hinv hstep => by
        obtain ⟨hget, hnot⟩ := (Job.Step.of_step hstep).get_other hinv.2
        exact ⟨hget.trans hinv.1, hnot⟩)
      ⟨rfl, hother⟩ hrun).1

/-- The messages that are left can be delivered. -/
lemma exists_run_delivered (s : Cluster n κ ν) (pending : List (Fin n × μ)) :
    ∃ es s', run (Job.step D) (s, { todo := [], pending }) es =
      some (s', { todo := [], pending := [] }) := by
  induction pending generalizing s with
  | nil => exact ⟨[], s, rfl⟩
  | cons am pending ih =>
    obtain ⟨es, s', hrun⟩ := ih (s.tell D am.1 am.2)
    refine ⟨.deliver am.1 am.2 :: es, s', run_cons.2 ⟨_, ?_, hrun⟩⟩
    simp [Job.step]

/-- **A job can be finished** from every state. -/
theorem exists_run_done (s : Cluster n κ ν) (todo : List (Command κ π μ))
    (hplain : ∀ p owed, .walking p owed ∉ todo) (pending : List (Fin n × μ)) :
    ∃ es s', run (Job.step D) (s, { todo, pending }) es =
      some (s', { todo := [], pending := [] }) := by
  induction todo generalizing s pending with
  | nil => exact exists_run_delivered s pending
  | cons cmd rest ih =>
    have hrest : ∀ p owed, .walking p owed ∉ rest := fun p owed hmem =>
      hplain p owed (mem_cons_of_mem _ hmem)
    cases cmd with
    | del k =>
      obtain ⟨es, s', hrun⟩ := ih (s.remove [k]) hrest pending
      exact ⟨.exec :: es, s', run_cons.2 ⟨_, rfl, hrun⟩⟩
    | publish m =>
      obtain ⟨es, s', hrun⟩ := ih s hrest (pending ++ (List.finRange n).map fun a => (a, m))
      exact ⟨.exec :: es, s', run_cons.2 ⟨_, rfl, hrun⟩⟩
    | walking p owed => exact absurd mem_cons_self (hplain p owed)
    | walk p =>
      -- one page with every key the walk finds
      let ks := s.server.data.keys.filter (D.fits p)
      obtain ⟨es, s', hrun⟩ := ih (s.remove ks) hrest pending
      refine ⟨.exec :: .page ks :: .exec :: es, s', run_cons.2 ⟨_, rfl, run_cons.2
        ⟨(s.remove ks, _), if_pos fun k hk => (mem_filter.1 hk).2, run_cons.2
          ⟨(s.remove ks, _), if_pos ?_, hrun⟩⟩⟩⟩
      intro b hb
      obtain ⟨k, hk, rfl⟩ := mem_map.1 hb
      have hcount : (s.remove ks).server.removals k = s.server.removals k + 1 := if_pos hk
      rw [hcount]
      exact Nat.succ_ne_self _

end Alone

end Lib.Coherence
