import OpenDefender.Lib.Pool
import OpenDefender.System.PolicyTransactions

/-!
The two copies of a policy's rules, under updates and publications of the policy that overlap: the newest
row of `policy_versions` and the rows of `policy_rules`.

Transactions on one policy follow each other from the `UPDATE` of its row on, and the last to replace the
rules leaves its own in `policy_rules`. Versions are ordered by the start of their transactions.

`copies_agree`: the copies stay the same if every update that replaces the rules has begun after the
beginning of all transactions whose versions are there when it commits.
-/

namespace OpenDefender.System.PolicyVersions

open Lib Run Pool FirstMatch Engine Admin PolicyTransactions List Option

/-- The rules of the newest version are, but for their ids, those of `policy_rules`, in any order. -/
def CopiesAgree (db : PolicyDb) (policyId : Uuid) : Prop :=
  (db.policyRules.filter fun r => r.policyId = policyId).Perm
    ((loadRulesFromLatestVersion db policyId).map (ruleToDbRow policyId))

instance (db : PolicyDb) (policyId : Uuid) : Decidable (CopiesAgree db policyId) :=
  inferInstanceAs (Decidable (List.Perm _ _))

/-- The event is a step of a transaction on this policy. -/
def OnPolicy (policyId : Uuid) : Event → Prop
  | .begin _ request => request.policyId = policyId
  | .statement _ _ | .commit _ | .abort _ => True
  | _ => False

/-- The request replaces the rules. -/
def Replaces : Request → Prop
  | .update _ payload => payload.rules.isSome
  | .publish _ _ _ => False

instance : (request : Request) → Decidable (Replaces request)
  | .update _ _ => inferInstanceAs (Decidable (_ = true))
  | .publish _ _ _ => inferInstanceAs (Decidable False)

/-- **The condition**: an update that replaces the rules has begun after every version of its policy that
is there when it commits. -/
def InOrder (s : State) : Event → Prop
  | .commit i => ∀ tx ∈ s.transactions[i]?, Replaces tx.request →
      ∀ v ∈ s.db.policyVersions, v.policyId = tx.request.policyId → v.createdAt < tx.ctx.now
  | _ => True

instance (s : State) (e : Event) : Decidable (InOrder s e) := by
  unfold InOrder
  split <;> infer_instance

/-! ### The latest version -/

section Latest

variable {db db' : PolicyDb} {policyId : Uuid} {version : PolicyVersionRow}

lemma versions_concat (hversions : db'.policyVersions = db.policyVersions ++ [version])
    (hid : version.policyId = policyId) :
    db'.policyVersions.filter (fun v => v.policyId = policyId) =
      db.policyVersions.filter (fun v => v.policyId = policyId) ++ [version] := by
  rw [hversions, filter_append, filter_cons_of_pos (by simp [hid]), filter_nil]

/-- A version later than all others is the latest. -/
lemma loadRules_of_later (hversions : db'.policyVersions = db.policyVersions ++ [version])
    (hid : version.policyId = policyId)
    (hlater : ∀ v ∈ db.policyVersions, v.policyId = policyId → v.createdAt < version.createdAt) :
    loadRulesFromLatestVersion db' policyId = version.rules := by
  rw [loadRulesFromLatestVersion, PolicyDb.loadLatestVersionRules, versions_concat hversions hid,
    newest_concat_of_lt fun v hv => hlater v (mem_of_mem_filter hv)
      (of_decide_eq_true (mem_filter.1 hv).2)]
  rfl

lemma loadRules_insertPolicyVersion
    (hlater : ∀ v ∈ db.policyVersions, v.policyId = policyId → v.createdAt < now) :
    loadRulesFromLatestVersion
      (insertPolicyVersion db policyId text status createdBy notes rules now) policyId = rules := by
  have hversions : (insertPolicyVersion db policyId text status createdBy notes rules
      now).policyVersions = db.policyVersions ++
        [{ policyId, version := text, status, createdBy, notes, rules, createdAt := now }] := rfl
  exact loadRules_of_later hversions rfl hlater

/-- A version with the rules of the latest one changes nothing, whatever its time. -/
lemma loadRules_of_copy (hversions : db'.policyVersions = db.policyVersions ++ [version])
    (hid : version.policyId = policyId)
    (hrules : version.rules = loadRulesFromLatestVersion db policyId) :
    loadRulesFromLatestVersion db' policyId = loadRulesFromLatestVersion db policyId := by
  have hconcat := versions_concat hversions hid
  obtain ⟨latest, hlatest⟩ : ∃ latest, newest (·.createdAt)
      (db'.policyVersions.filter fun v => v.policyId = policyId) = some latest := by
    refine ne_none_iff_exists'.1 fun hnone => ?_
    rw [newest_eq_none, hconcat] at hnone
    simp at hnone
  have hload : loadRulesFromLatestVersion db' policyId = latest.rules := by
    rw [loadRulesFromLatestVersion, PolicyDb.loadLatestVersionRules, hlatest]
    rfl
  rw [hconcat] at hlatest
  obtain rfl | hold := eq_or_newest_of_concat hlatest
  · exact hload.trans hrules
  · rw [hload, loadRulesFromLatestVersion, PolicyDb.loadLatestVersionRules, hold]
    rfl

end Latest

/-! ### The invariant -/

/-- What a transaction that has written the row of its policy knows. -/
def StageOk (db : PolicyDb) (policyId : Uuid) (tx : Tx) : Stage → Prop
  | .written _ _ => tx.Holds policyId
  | .recorded replaced version =>
    tx.Holds policyId ∧ version.policyId = policyId ∧ version.createdAt = tx.ctx.now ∧
      (replaced = some version.rules ∧ Replaces tx.request ∨
        replaced = none ∧ version.rules = loadRulesFromLatestVersion db policyId)
  | _ => True

/-- Only one of two transactions holds the row of the policy. -/
def Apart (policyId : Uuid) (tx other : Tx) : Prop := ¬ (tx.Holds policyId ∧ other.Holds policyId)

lemma Apart.symm (tx other : Tx) (h : Apart policyId tx other) :
    Apart policyId other tx := fun h' => h h'.symm

/-- The copies are the same, and the row of the policy keeps its transactions apart. -/
structure Inv (policyId : Uuid) (s : State) : Prop where
  copies : CopiesAgree s.db policyId
  apart : s.transactions.Pairwise (Apart policyId)
  transactions : ∀ tx ∈ s.transactions,
    tx.request.policyId = policyId ∧ StageOk s.db policyId tx tx.stage

section Steps

variable {taxonomy : TaxonomyStore} {policyId : Uuid} {s : State} {tx tx' : Tx} {i : ℕ}

lemma newRules_ok (h : tx.newRules taxonomy db = .ok (replaced, rules)) :
    replaced = some rules ∧ Replaces tx.request ∨
      replaced = none ∧ rules = loadRulesFromLatestVersion db tx.request.policyId := by
  rw [Tx.newRules] at h
  split at h
  · rename_i hrequest
    cases haccept : acceptRules taxonomy tx.ctx.freshIds _ with
    | error e =>
      rw [haccept] at h
      cases h
    | ok accepted =>
      rw [haccept] at h
      cases h
      exact Or.inl ⟨rfl, by rw [hrequest]; rfl⟩
  · cases h
    exact Or.inr ⟨rfl, rfl⟩

/-- A transaction that holds the row only if it did, or if no other does, keeps the invariant. -/
lemma Inv.set (h : Inv policyId s) (hi : s.transactions[i]? = some tx)
    (hrequest : tx'.request = tx.request) (hok : StageOk s.db policyId tx' tx'.stage)
    (hholds : tx'.Holds policyId → tx.Holds policyId ∨
      ∀ other ∈ s.transactions.eraseIdx i, ¬ other.Holds policyId) :
    Inv policyId { s with transactions := s.transactions.set i tx' } := by
  refine ⟨h.copies, pairwise_set Apart.symm h.apart fun other hother hboth => ?_,
    forall_set ⟨hrequest ▸ (h.transactions tx (mem_of_getElem? hi)).1, hok⟩
      (forall_eraseIdx h.transactions)⟩
  obtain hheld | hfree := hholds hboth.1
  · exact rel_of_mem_eraseIdx Apart.symm h.apart hi hother ⟨hheld, hboth.2⟩
  · exact hfree other hother hboth.2

lemma inv_statement {statement : Statement} (h : Inv policyId s) (hi : s.transactions[i]? = some tx)
    (hstep : tx.step taxonomy s.db (s.transactions.eraseIdx i) statement = some tx') :
    Inv policyId { s with transactions := s.transactions.set i tx' } := by
  obtain ⟨hpolicy, hstage⟩ := h.transactions tx (mem_of_getElem? hi)
  cases statement with
  | read =>
    obtain ⟨-, row, rfl⟩ := read_eq_some hstep
    exact h.set hi rfl trivial Or.inl
  | archive =>
    obtain ⟨-, rfl⟩ := archive_eq_some hstep
    exact h.set hi rfl trivial Or.inl
  | archiveRow rowId =>
    obtain ⟨rowIds, -, rfl⟩ := archiveRow_eq_some hstep
    refine h.set hi rfl trivial fun hholds => Or.inl ?_
    -- the archived row is not the one of the policy
    refine ((tx.holds_append _ _ _).1 hholds).resolve_right fun hmem => ?_
    obtain ⟨row, hrow, hid⟩ := mem_map.1 hmem
    obtain ⟨p, hp, rfl⟩ := mem_map.1 hrow
    have hcond := of_decide_eq_true (mem_filter.1 hp).2
    exact hcond.2.2 (hid.trans hpolicy.symm)
  | write =>
    obtain ⟨-, hfree, version, status, row, hid, rfl⟩ := write_eq_some hstep
    rw [hpolicy] at hfree
    refine h.set hi rfl ?_ fun _ => Or.inr hfree
    exact (tx.holds_append _ _ _).2 (Or.inr (mem_singleton.2 (hid.trans hpolicy).symm))
  | record =>
    obtain ⟨version, status, replaced, rules, hwritten, hrules, rfl⟩ := record_eq_some hstep
    rw [hwritten] at hstage
    refine h.set hi rfl ⟨hstage, hpolicy, rfl, ?_⟩ Or.inl
    rw [← hpolicy]
    exact newRules_ok hrules

/-- The commit of an update that is in order, or of a transaction that copies the latest rules. -/
lemma inv_commit (h : Inv policyId s) (hi : s.transactions[i]? = some tx)
    (horder : InOrder s (.commit i)) (hcommit : tx.commit s.db = some db') :
    Inv policyId { s with db := db', transactions := s.transactions.eraseIdx i } := by
  obtain ⟨hpolicy, hstage⟩ := h.transactions tx (mem_of_getElem? hi)
  obtain ⟨replaced, version, hrecorded, -, hrules, hversions⟩ := commit_eq_some hcommit
  rw [hrecorded] at hstage
  obtain ⟨hholds, hid, htime, hkind⟩ := hstage
  refine ⟨?_, h.apart.sublist (eraseIdx_sublist _ _), fun other hother => ?_⟩
  · show CopiesAgree db' policyId
    obtain ⟨rfl, hreplaces⟩ | ⟨rfl, hcopy⟩ := hkind
    · have hload := loadRules_of_later hversions hid fun v hv hvid =>
        htime ▸ horder tx hi hreplaces v hv (hvid.trans hpolicy.symm)
      rw [CopiesAgree, hload, hrules, hpolicy, map_some, getD_some, filter_replacePolicyRules]
    · rw [CopiesAgree, loadRules_of_copy hversions hid hcopy, hrules]
      exact h.copies
  · -- the others have not come to the row of the policy
    have hfree : ¬ other.Holds policyId := fun hother' =>
      rel_of_mem_eraseIdx Apart.symm h.apart hi hother ⟨hholds, hother'⟩
    obtain ⟨hsame, hok⟩ := h.transactions other (mem_of_mem_eraseIdx hother)
    refine ⟨hsame, ?_⟩
    cases hstage' : other.stage with
    | begun | found | archiving => trivial
    | written =>
      rw [hstage'] at hok
      exact absurd hok hfree
    | recorded =>
      rw [hstage'] at hok
      exact absurd hok.1 hfree

/-- **Every step keeps the invariant** if its commit is in order. -/
lemma inv_next (h : Inv policyId s) (hok : OnPolicy policyId e ∧ InOrder s e)
    (hnext : next taxonomy s e = some s') : Inv policyId s' := by
  obtain ⟨hon, horder⟩ := hok
  cases e with
  | begin ctx request =>
    obtain ⟨-, hnext⟩ := ite_none_right_eq_some.1 hnext
    cases hnext
    refine ⟨h.copies, ?_, forall_concat ⟨hon, trivial⟩ h.transactions⟩
    refine pairwise_append.2 ⟨h.apart, pairwise_singleton _ _, ?_⟩
    rintro tx - other hother ⟨-, hholds⟩
    obtain rfl := mem_singleton.1 hother
    cases hholds
  | statement i statement =>
    obtain ⟨tx, hi, hnext⟩ := bind_eq_some_iff.1 hnext
    obtain ⟨tx', hstep, hnext⟩ := bind_eq_some_iff.1 hnext
    cases hnext
    exact inv_statement h hi hstep
  | commit i =>
    obtain ⟨tx, hi, hnext⟩ := bind_eq_some_iff.1 hnext
    obtain ⟨db', hcommit, hnext⟩ := bind_eq_some_iff.1 hnext
    cases hnext
    exact inv_commit h hi horder hcommit
  | abort i =>
    cases hnext
    exact ⟨h.copies, h.apart.sublist (eraseIdx_sublist _ _), forall_eraseIdx h.transactions⟩
  | insertPolicy | insertRule | insertVersion | giveUp => exact hon.elim

end Steps

/-! ### The result -/

/-- **The copies stay the same** in a run of updates and publications of a policy whose replacements are in
order, whatever is still under way. -/
theorem copies_agree (taxonomy : TaxonomyStore) (policyId : Uuid) (db : PolicyDb) (clock : ℕ)
    (es : List Event) (s : State) (hcopies : CopiesAgree db policyId)
    (hon : ∀ e ∈ es, OnPolicy policyId e)
    (horder : Guarded (next taxonomy) InOrder (start db clock) es)
    (hrun : run (next taxonomy) (start db clock) es = some s) : CopiesAgree s.db policyId := by
  have hstart : Inv policyId (start db clock) := ⟨hcopies, .nil, by simp [start]⟩
  have hinv : Inv policyId s := (horder.and_forall hon).invariant (Inv policyId)
    (fun _ _ _ => inv_next) hstart hrun
  exact hinv.copies

/-- The copies of a new policy are the same, if versions refer to policies that exist. -/
lemma copiesAgree_createPolicy
    (hrefer : ∀ v ∈ db.policyVersions, v.policyId ∈ db.policies.map (·.id))
    (h : createPolicy taxonomy db ctx policyId payload = .ok db') : CopiesAgree db' policyId := by
  obtain ⟨rules, -, h⟩ := Outcome.bind_ok.1 h
  by_cases htaken : policyId ∈ db.policies.map (·.id)
  · rw [if_pos htaken] at h
    cases h
  · rw [if_neg htaken] at h
    cases h
    refine List.Perm.of_eq ((filter_replacePolicyRules _ policyId rules).trans ?_)
    refine congrArg (List.map _) (loadRules_insertPolicyVersion fun v hv hid => ?_).symm
    exact absurd (hid ▸ hrefer v hv) htaken

/-- A request with one rule. -/
def oneRule (action : String) : List PolicyRulePayload :=
  [{ id := some "r", description := none, priority := 1, action, conditions := {} }]

/-- The beginning of an update that replaces the rules. -/
def beginUpdate (now : ℕ) (action : String) : Event :=
  .begin { now, timestamp := "20260101000000", actor := "admin", freshIds := [] }
    (.update 1 { name := none, version := none, status := none, notes := none
                 rules := some (oneRule action) })

/-- A policy that has just been created, with one rule that allows. -/
def created : Except ApiError PolicyDb :=
  createPolicy sampleTaxonomyStore { policies := [], policyRules := [], policyVersions := [] }
    { now := 1, timestamp := "20260101000000", actor := "admin", freshIds := [] } 1
    { name := "base", version := none, createdBy := none, notes := none, rules := oneRule "allow" }

lemma created_isOk : created.toOption.isSome = true := by decide +kernel

/-- Its tables. -/
def createdDb : PolicyDb := created.toOption.get created_isOk

/-- The statements of an update after its beginning. -/
def completeUpdate (i : ℕ) : List Event :=
  [.statement i .read, .statement i .write, .statement i .record, .commit i]

/-- The actions in `policy_rules` and in the newest version, and how much is under way. -/
def copies (s : State) : List String × List String × ℕ :=
  (s.db.policyRules.map (·.action),
    (loadRulesFromLatestVersion s.db 1).map (·.action.display), s.transactions.length)

/-- Two updates that both commit; the one that began first comes to the row of the policy last. Its rules
are in `policy_rules`, and those of the other in the newest version. -/
theorem copies_differ : CopiesAgree createdDb 1 ∧ (run (next sampleTaxonomyStore) (start createdDb 1)
        ([beginUpdate 2 "block", beginUpdate 3 "warn"] ++ completeUpdate 1 ++ completeUpdate 0)).map
          copies = some (["Block"], ["Warn"], 0) := by
  refine ⟨?_, ?_⟩ <;> decide +kernel

/-- A publication that nothing comes between. -/
def publishAlone (now : ℕ) : List Event :=
  [.begin { now, timestamp := "20260101000000", actor := "admin", freshIds := [] }
      (.publish 1 none none),
    .statement 0 .read, .statement 0 .archive, .statement 0 .write, .statement 0 .record, .commit 0]

/-- The same updates, with the rows in the order of the beginnings, and a publication. -/
theorem copies_agree_in_order : ∃ s, run (next sampleTaxonomyStore) (start createdDb 1)
        ([beginUpdate 2 "block", beginUpdate 3 "warn"] ++ completeUpdate 0 ++ completeUpdate 0 ++
          publishAlone 4) = some s ∧
      copies s = (["Warn"], ["Warn"], 0) ∧ CopiesAgree s.db 1 := by
  have hend : (run (next sampleTaxonomyStore) (start createdDb 1)
      ([beginUpdate 2 "block", beginUpdate 3 "warn"] ++ completeUpdate 0 ++ completeUpdate 0 ++
        publishAlone 4)).any (fun s => copies s = (["Warn"], ["Warn"], 0)) = true := by
    decide +kernel
  obtain ⟨s, hrun, hcopies⟩ := (any_eq_true _ _).1 hend
  have hcreated : created = .ok createdDb := Outcome.toOption_eq_some.1 (some_get created_isOk).symm
  refine ⟨s, hrun, of_decide_eq_true hcopies, ?_⟩
  refine copies_agree sampleTaxonomyStore 1 createdDb 1 _ s
    (copiesAgree_createPolicy (by simp) hcreated) ?_ (by decide +kernel) hrun
  simp [beginUpdate, completeUpdate, publishAlone, OnPolicy, Request.policyId]

end OpenDefender.System.PolicyVersions
