import OpenDefender.Admin.Policies
import OpenDefender.Lib.Run
import OpenDefender.Lib.Table

/-!
Calls of the admin API on the policy tables, one after the other: how many policies are active.

A draft is created, a publication moves the status `active` from one policy to another, and the active
policy can be neither archived nor deleted. An update can still make it a draft, and then none is active.

`one_active_of_kept`: exactly one policy stays active in every run in which no update does that.
-/

namespace OpenDefender.System.ActivePolicy

open Lib Run Table Engine Admin Lib.Outcome List

variable (db : PolicyDb)

/-- Exactly one policy has the status `active`. -/
def OneActive : Prop :=
  (db.policies.filter fun p => p.status = "active").length = 1

instance : Decidable (OneActive db) :=
  inferInstanceAs (Decidable (_ = 1))

/-- The ids of the policies are a primary key. -/
abbrev UniqueIds : Prop := Unique PolicyRow.id db.policies

/-- A call with what it takes from the clock; its transaction commits unless the database fails. -/
structure Call where
  ctx : CallContext
  call : PolicyCall
  commits : Bool

/-- The tables after a call: a call that fails leaves them as they are. -/
def next (taxonomy : TaxonomyStore) (db : PolicyDb) (c : Call) : Option PolicyDb :=
  match c.call.apply taxonomy db c.ctx with
  | .ok db' => some (if c.commits then db' else db)
  | .error _ => some db

/-- **The condition**: the call does not give the active policy the status `draft`. -/
def KeepsActive (c : Call) : Prop :=
  match c.call with
  | .change (.update policyId payload) =>
    ∀ value ∈ payload.status, normalizePolicyStatus value = .ok "draft" →
      ∀ row ∈ db.policies, row.id = policyId → row.status ≠ "active"
  | _ => True

instance (c : Call) : Decidable (KeepsActive db c) := by
  unfold KeepsActive
  split <;> infer_instance

/-! ### What a call does to the statuses -/

/-- The policy with this id is active, and no other is. -/
def OnlyActive (policyId : Uuid) : Prop :=
  policyId ∈ db.policies.map (·.id) ∧ ∀ row ∈ db.policies, (row.status = "active" ↔ row.id = policyId)

variable {db : PolicyDb}

lemma oneActive_iff (hids : UniqueIds db) :
    OneActive db ↔ ∃ policyId, OnlyActive db policyId :=
  only_one_iff hids

/-- A policy that `findPolicy` finds is in the table. -/
lemma mem_of_findPolicy (h : findPolicy db policyId = .ok row) :
    row ∈ db.policies ∧ row.id = policyId := by
  have hfind := findPolicy_ok.1 h
  exact ⟨mem_of_find?_eq_some hfind, by simpa using find?_some hfind⟩

lemma normalizePolicyStatus_ok (h : normalizePolicyStatus value = .ok status) :
    status = "active" ∨ status = "draft" ∨ status = "archived" := by
  rw [normalizePolicyStatus] at h
  split at h
  · exact Or.inl (Except.ok.inj h).symm
  · exact Or.inr (Or.inl (Except.ok.inj h).symm)
  · exact Or.inr (Or.inr (Except.ok.inj h).symm)
  · cases h

/-- The status an update writes is the old one, or is not `active`; the active policy can only become a
draft. -/
lemma updatedStatus_ok (h : updatedStatus existing value = .ok status) :
    status = existing ∨ status ≠ "active" ∧ (existing = "active" →
      ∃ text ∈ value, normalizePolicyStatus text = .ok "draft") := by
  cases value with
  | none => exact Or.inl (Except.ok.inj h).symm
  | some text =>
    obtain ⟨normalized, hnormalized, h⟩ := bind_ok.1 h
    by_cases hactive : normalized = "active"
    · rw [if_pos hactive] at h
      cases h
    · rw [if_neg hactive] at h
      obtain ⟨_, hguard, h⟩ := bind_ok.1 h
      cases h
      refine Or.inr ⟨hactive, fun hexisting => ⟨text, rfl, ?_⟩⟩
      obtain rfl | rfl | rfl := normalizePolicyStatus_ok hnormalized
      · exact absurd rfl hactive
      · exact hnormalized
      · -- the guard refuses to archive the active policy
        rw [ensureCanDisableStatus, if_pos ⟨hexisting, rfl⟩] at hguard
        cases hguard

/-- The policies after an update. -/
lemma updatePolicy_ok (h : updatePolicy taxonomy db ctx policyId payload = .ok db') :
    ∃ existing ∈ db.policies, existing.id = policyId ∧ ∃ name version status,
      updatedStatus existing.status payload.status = .ok status ∧
      db'.policies = db.policies.map fun p =>
        if p.id = policyId then { p with name, version, status } else p := by
  obtain ⟨existing, hfind, h⟩ := bind_ok.1 h
  obtain ⟨status, hstatus, h⟩ := bind_ok.1 h
  obtain ⟨hmem, hid⟩ := mem_of_findPolicy hfind
  refine ⟨existing, hmem, hid, (payload.name.map Text.trim).getD existing.name,
    (payload.version.map Text.trim).getD existing.version, status, hstatus, ?_⟩
  cases hrules : payload.rules with
  | none =>
    rw [hrules] at h
    cases h
    rfl
  | some payloadRules =>
    rw [hrules] at h
    obtain ⟨rules, -, h⟩ := bind_ok.1 h
    cases h
    rfl

section Steps

variable {taxonomy : TaxonomyStore} {db db' : PolicyDb} {ctx : CallContext} {policyId active : Uuid}

/-- A draft is created: the same policy is active. -/
lemma OnlyActive.create (hactive : OnlyActive db active) (hids : UniqueIds db)
    (h : createPolicy taxonomy db ctx policyId payload = .ok db') :
    UniqueIds db' ∧ OnlyActive db' active := by
  obtain ⟨rules, -, h⟩ := bind_ok.1 h
  by_cases htaken : policyId ∈ db.policies.map (·.id)
  · rw [if_pos htaken] at h
    cases h
  · rw [if_neg htaken] at h
    cases h
    refine ⟨hids.concat htaken, ?_, ?_⟩
    · exact map_append ▸ mem_append_left _ hactive.1
    · intro row hrow
      obtain hrow | hrow := mem_append.1 hrow
      · exact hactive.2 row hrow
      · rw [mem_singleton] at hrow
        subst hrow
        have hdraft : "draft" ≠ "active" := by decide
        refine ⟨fun h => absurd h hdraft, fun hid : policyId = active => ?_⟩
        exact absurd (hid ▸ hactive.1) htaken

/-- A policy is published: it is the active one. -/
lemma OnlyActive.publish (hids : UniqueIds db)
    (h : publishPolicy db ctx policyId version notes = .ok db') :
    UniqueIds db' ∧ OnlyActive db' policyId := by
  obtain ⟨existing, hfind, h⟩ := bind_ok.1 h
  obtain ⟨hmem, hid⟩ := mem_of_findPolicy hfind
  cases h
  have harchive : ∀ p : PolicyRow, (if p.status = "active" ∧ p.id ≠ policyId then
      { p with status := "archived" } else p).id = p.id := by
    intro p
    split <;> rfl
  have hactivate : ∀ p : PolicyRow, (if p.id = policyId then
      { p with status := "active", version := version.getD ("release-" ++ ctx.timestamp) }
      else p).id = p.id := by
    intro p
    split <;> rfl
  refine ⟨(hids.map harchive).map hactivate, ?_, ?_⟩
  · have hkeys := (map_key_map hactivate _).trans (map_key_map harchive db.policies)
    exact hkeys ▸ hid ▸ mem_map_of_mem hmem
  · intro row hrow
    obtain ⟨archived, harchived, rfl⟩ := mem_map.1 hrow
    obtain ⟨old, hold, rfl⟩ := mem_map.1 harchived
    by_cases hown : old.id = policyId
    · simp [hown]
    · by_cases hold' : old.status = "active"
      · simp [hown, hold']
      · simp [hown, hold']

/-- An update that does not make the active policy a draft: the same policy is active. -/
lemma OnlyActive.update (hactive : OnlyActive db active) (hids : UniqueIds db)
    (hkeeps : ∀ value ∈ payload.status, normalizePolicyStatus value = .ok "draft" →
      ∀ row ∈ db.policies, row.id = policyId → row.status ≠ "active")
    (h : updatePolicy taxonomy db ctx policyId payload = .ok db') :
    UniqueIds db' ∧ OnlyActive db' active := by
  obtain ⟨existing, hmem, hid, name, version, status, hstatus, hpolicies⟩ := updatePolicy_ok h
  have hkey : ∀ p : PolicyRow,
      (if p.id = policyId then { p with name, version, status } else p).id = p.id := by
    intro p
    split <;> rfl
  -- the status of the row is `active` after the update exactly when it was before
  have hsame : status = "active" ↔ existing.status = "active" := by
    obtain rfl | ⟨hnot, hdraft⟩ := updatedStatus_ok hstatus
    · rfl
    · refine ⟨fun h => absurd h hnot, fun hwas => ?_⟩
      obtain ⟨text, htext, hnormalized⟩ := hdraft hwas
      exact absurd hwas (hkeeps text htext hnormalized existing hmem hid)
  refine ⟨?_, ?_, ?_⟩
  · rw [UniqueIds, hpolicies]
    exact hids.map hkey
  · rw [hpolicies, map_key_map hkey]
    exact hactive.1
  · intro row hrow
    rw [hpolicies] at hrow
    obtain ⟨old, hold, rfl⟩ := mem_map.1 hrow
    by_cases hown : old.id = policyId
    · obtain rfl : old = existing := hids.eq hold hmem (hown.trans hid.symm)
      rw [if_pos hown]
      exact hsame.trans (hactive.2 old hold)
    · rw [if_neg hown]
      exact hactive.2 old hold

/-- A policy is deleted that is not active. -/
lemma OnlyActive.delete (hactive : OnlyActive db active) (hids : UniqueIds db)
    (h : deletePolicy db policyId = .ok db') : UniqueIds db' ∧ OnlyActive db' active := by
  obtain ⟨row, hfind, h⟩ := bind_ok.1 h
  obtain ⟨_, hguard, h⟩ := bind_ok.1 h
  obtain ⟨hmem, hid⟩ := mem_of_findPolicy hfind
  cases h
  have hne : active ≠ policyId := by
    rintro rfl
    rw [ensureCanDeleteStatus, if_pos ((hactive.2 row hmem).2 hid)] at hguard
    cases hguard
  refine ⟨hids.filter _, ?_, fun p hp => hactive.2 p (mem_of_mem_filter hp)⟩
  obtain ⟨p, hp, hpid⟩ := mem_map.1 hactive.1
  exact mem_map.2 ⟨p, mem_filter.2 ⟨hp, by simp [hpid, hne]⟩, hpid⟩

end Steps

/-! ### Runs of calls -/

/-- What holds along a run. -/
def Inv (db : PolicyDb) : Prop := UniqueIds db ∧ ∃ active, OnlyActive db active

lemma inv_next (hinv : Inv db) (hkeeps : KeepsActive db c) (h : next taxonomy db c = some db') :
    Inv db' := by
  obtain ⟨hids, active, hactive⟩ := hinv
  obtain ⟨ctx, call, commits⟩ := c
  rw [next] at h
  cases hcall : call.apply taxonomy db ctx with
  | error e =>
    rw [hcall] at h
    cases h
    exact ⟨hids, active, hactive⟩
  | ok written =>
    rw [hcall] at h
    cases commits with
    | false =>
      cases h
      exact ⟨hids, active, hactive⟩
    | true =>
      cases h
      cases call with
      | create policyId payload =>
        exact (hactive.create hids hcall).imp_right fun h => ⟨active, h⟩
      | change change =>
        cases change with
        | publish policyId version notes =>
          exact (OnlyActive.publish hids hcall).imp_right fun h => ⟨policyId, h⟩
        | update policyId payload =>
          exact (hactive.update hids hkeeps hcall).imp_right fun h => ⟨active, h⟩
        | delete policyId =>
          exact (hactive.delete hids hcall).imp_right fun h => ⟨active, h⟩

/-- **One policy stays active.** From tables with exactly one active policy, a run of calls in which none
makes the active policy a draft leads to tables with exactly one active policy. -/
theorem one_active_of_kept (taxonomy : TaxonomyStore) (db db' : PolicyDb) (calls : List Call)
    (hids : UniqueIds db) (hone : OneActive db)
    (hkeeps : Guarded (next taxonomy) KeepsActive db calls)
    (hrun : run (next taxonomy) db calls = some db') : OneActive db' := by
  have hinv : Inv db' := hkeeps.invariant Inv (fun _ _ _ => inv_next)
    ⟨hids, (oneActive_iff hids).1 hone⟩ hrun
  exact (oneActive_iff hinv.1).2 hinv.2

/-- An active policy and a draft. -/
def activeAndDraft : PolicyDb :=
  { policies :=
      [{ id := 1, name := "base", version := "v1", status := "active", createdBy := none,
         createdAt := 1 },
       { id := 2, name := "strict", version := "v1", status := "draft", createdBy := none,
         createdAt := 2 }]
    policyRules := []
    policyVersions := [] }

/-- A call that commits. -/
def committed (now : ℕ) (call : PolicyCall) : Call :=
  { ctx := { now, timestamp := "20260101000000", actor := "admin", freshIds := [] }
    call, commits := true }

/-- The update of a policy that sets its status only. -/
def setStatus (policyId : Uuid) (status : String) : PolicyCall :=
  .change (.update policyId
    { name := none, version := none, status := some status, notes := none, rules := none })

/-- The active policy becomes a draft by an update, and no policy is active. -/
theorem no_active_after_update :
    OneActive activeAndDraft ∧
      (run (next sampleTaxonomyStore) activeAndDraft [committed 3 (setStatus 1 "draft")]).map
        (fun db => db.policies.map fun p => (p.id, p.status)) = some [(1, "draft"), (2, "draft")] := by
  refine ⟨?_, ?_⟩ <;> decide +kernel

/-- The draft is published, what was active becomes a draft, a new policy is created, and the attempts to
archive or delete the active one fail. -/
def mixedCalls : List Call :=
  [committed 3 (setStatus 1 "archived"),
    committed 4 (.change (.publish 2 none none)),
    committed 5 (setStatus 1 "Draft "),
    committed 6 (.create 3
      { name := "new", version := none, createdBy := none, notes := none
        rules := [{ id := some "r", description := none, priority := 1, action := "block"
                    conditions := {} }] }),
    committed 7 (.change (.delete 2)),
    committed 8 (.change (.delete 1))]

/-- After these calls the published policy is the active one. -/
theorem one_active_after_calls :
    ∃ db', run (next sampleTaxonomyStore) activeAndDraft mixedCalls = some db' ∧
      db'.policies.map (fun p => (p.id, p.status)) = [(2, "active"), (3, "draft")] ∧
      OneActive db' := by
  refine exists_of_run (by decide +kernel) fun db' hrun _ => ?_
  exact one_active_of_kept sampleTaxonomyStore activeAndDraft db' mixedCalls (by decide)
    (by decide +kernel) (by decide +kernel) hrun

end OpenDefender.System.ActivePolicy
