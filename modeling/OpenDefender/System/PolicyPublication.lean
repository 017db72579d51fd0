import OpenDefender.Lib.Pool
import OpenDefender.System.PolicyTransactions

/-!
Publications of policies and creations by the engine that overlap: how many policies end up active.

A publication archives the policies that were active when its `UPDATE` started. One that becomes active
later, by another publication or by the engine, it does not see.

`at_most_one_active`: at most one policy is active in every run in which a publication starts to archive
only while no publication of another policy is past that point, and a policy is created only while no
policy is active and no publication is past it.
-/

namespace OpenDefender.System.PolicyPublication

open Lib Run Table Pool Engine Admin PolicyTransactions Option

/-- At most one policy has the status `active`. -/
def AtMostOneActive (db : PolicyDb) : Prop :=
  (db.policies.filter fun p => p.status = "active").length ≤ 1

instance (db : PolicyDb) : Decidable (AtMostOneActive db) :=
  inferInstanceAs (Decidable (_ ≤ 1))

/-- The event is a step of a publication or of a creation. -/
def Publishes : Event → Prop
  | .begin _ (.update _ _) => False
  | _ => True

/-- The rows that a publication has still to archive, once it has started to. -/
def unvisited : Stage → Option (List Uuid)
  | .begun | .found _ => none
  | .archiving rowIds => some rowIds
  | .written _ _ | .recorded _ _ => some []

/-- The publication has started to archive the other policies. -/
def Archives (tx : Tx) : Prop := (unvisited tx.stage).isSome

instance (tx : Tx) : Decidable (Archives tx) := inferInstanceAs (Decidable (_ = true))

/-- **The condition**: publications of different policies are not past the start of their archiving at the
same time, and the engine creates a policy when nothing is active or about to be. -/
def Exclusive (s : State) : Event → Prop
  | .statement i .archive => ∀ tx ∈ s.transactions[i]?, ∀ other ∈ s.transactions.eraseIdx i,
      Archives other → other.request.policyId = tx.request.policyId
  | .insertPolicy _ _ _ _ _ =>
    (∀ p ∈ s.db.policies, p.status ≠ "active") ∧ ∀ tx ∈ s.transactions, ¬ Archives tx
  | _ => True

instance (s : State) (e : Event) : Decidable (Exclusive s e) := by
  unfold Exclusive
  split <;> infer_instance

/-! ### The invariant -/

/-- A publication makes no other policy active, and has archived every other active policy or has still to
come to it. -/
structure TxOk (policies : List PolicyRow) (tx : Tx) : Prop where
  publishes : ∀ policyId payload, tx.request ≠ .update policyId payload
  rows : ∀ row ∈ tx.rows, row.status = "active" → row.id = tx.request.policyId
  covered : ∀ rowIds ∈ unvisited tx.stage, ∀ p ∈ policies, p.status = "active" →
    p.id ≠ tx.request.policyId → p.id ∈ rowIds ∨ tx.Holds p.id

/-- At most one policy is active, and all publications that archive are of one policy. -/
structure Inv (s : State) : Prop where
  ids : Unique PolicyRow.id s.db.policies
  one : ∀ p ∈ s.db.policies, ∀ q ∈ s.db.policies, p.status = "active" → q.status = "active" →
    p.id = q.id
  transactions : ∀ tx ∈ s.transactions, TxOk s.db.policies tx
  same : ∃ policyId, ∀ tx ∈ s.transactions, Archives tx → tx.request.policyId = policyId

section Steps

variable {taxonomy : TaxonomyStore} {s : State} {tx tx' : Tx} {i : ℕ}

/-- A transaction that goes on as it is allowed to keeps the invariant. -/
lemma Inv.set (h : Inv s) (hok : TxOk s.db.policies tx')
    (hsame : ∃ policyId, (Archives tx' → tx'.request.policyId = policyId) ∧
      ∀ other ∈ s.transactions.eraseIdx i, Archives other → other.request.policyId = policyId) :
    Inv { s with transactions := s.transactions.set i tx' } := by
  obtain ⟨policyId, htx, hothers⟩ := hsame
  exact ⟨h.ids, h.one, forall_set hok (forall_eraseIdx h.transactions), policyId,
    forall_set htx hothers⟩

/-- The same for one that does not start to archive. -/
lemma Inv.set_of_archives (h : Inv s) (hmem : tx ∈ s.transactions) (hok : TxOk s.db.policies tx')
    (hrequest : tx'.request = tx.request) (harchives : Archives tx' → Archives tx) :
    Inv { s with transactions := s.transactions.set i tx' } := by
  obtain ⟨policyId, hall⟩ := h.same
  refine h.set hok ⟨policyId, fun h' => ?_, forall_eraseIdx hall⟩
  rw [hrequest]
  exact hall tx hmem (harchives h')

lemma inv_read (h : Inv s) (hi : s.transactions[i]? = some tx) (hread : tx.read s.db = some tx') :
    Inv { s with transactions := s.transactions.set i tx' } := by
  obtain ⟨-, row, rfl⟩ := read_eq_some hread
  have hmem := List.mem_of_getElem? hi
  have hok := h.transactions tx hmem
  refine h.set_of_archives hmem ⟨hok.publishes, hok.rows, ?_⟩ rfl ?_
  · simp [unvisited]
  · simp [Archives, unvisited]

lemma inv_archive (h : Inv s) (hi : s.transactions[i]? = some tx)
    (hexclusive : Exclusive s (.statement i .archive)) (harchive : tx.archive s.db = some tx') :
    Inv { s with transactions := s.transactions.set i tx' } := by
  obtain ⟨-, rfl⟩ := archive_eq_some harchive
  have hok := h.transactions tx (List.mem_of_getElem? hi)
  refine h.set ⟨hok.publishes, hok.rows, ?_⟩ ⟨tx.request.policyId, fun _ => rfl, hexclusive tx hi⟩
  -- the `UPDATE` has selected all active policies but its own
  intro rowIds hrowIds p hp hactive hne
  cases hrowIds
  exact Or.inl (List.mem_map_of_mem (List.mem_filter.2 ⟨hp, by simp [hactive, hne]⟩))

lemma inv_archiveRow (h : Inv s) (hi : s.transactions[i]? = some tx)
    (harchive : tx.archiveRow s.db (s.transactions.eraseIdx i) rowId = some tx') :
    Inv { s with transactions := s.transactions.set i tx' } := by
  obtain ⟨rowIds, hstage, rfl⟩ := archiveRow_eq_some harchive
  have hmem := List.mem_of_getElem? hi
  have hok := h.transactions tx hmem
  refine h.set_of_archives hmem ⟨hok.publishes, ?_, ?_⟩ rfl ?_
  · intro row hrow hactive
    obtain hrow | hrow := List.mem_append.1 hrow
    · exact hok.rows row hrow hactive
    · obtain ⟨p, -, rfl⟩ := List.mem_map.1 hrow
      exact absurd hactive (show "archived" ≠ "active" by decide)
  · intro rest hrest p hp hactive hne
    cases hrest
    have hcovered : p.id ∈ rowIds ∨ tx.Holds p.id :=
      hok.covered rowIds (by rw [hstage]; rfl) p hp hactive hne
    by_cases hrow : p.id = rowId
    · -- this is the row that has been archived
      refine Or.inr ((tx.holds_append _ _ _).2 (Or.inr ?_))
      exact List.mem_map.2 ⟨{ p with status := "archived" },
        List.mem_map_of_mem (List.mem_filter.2 ⟨hp, by simp [hrow, hactive, hrow ▸ hne]⟩), rfl⟩
    · exact hcovered.imp (fun hin => List.mem_filter.2 ⟨hin, by simpa using hrow⟩) fun hholds =>
        (tx.holds_append _ _ _).2 (Or.inl hholds)
  · intro _
    rw [Archives, hstage]
    rfl

lemma inv_write (h : Inv s) (hi : s.transactions[i]? = some tx)
    (hwrite : tx.write s.db (s.transactions.eraseIdx i) = some tx') :
    Inv { s with transactions := s.transactions.set i tx' } := by
  obtain ⟨hstage, -, version, status, row, hrow, rfl⟩ := write_eq_some hwrite
  have hmem := List.mem_of_getElem? hi
  have hok := h.transactions tx hmem
  have hstage : tx.stage = .archiving [] := hstage.resolve_right fun ⟨policyId, payload, hupdate⟩ =>
    hok.publishes policyId payload hupdate
  refine h.set_of_archives hmem ⟨hok.publishes, ?_, ?_⟩ rfl ?_
  · exact forall_concat (fun _ => hrow) hok.rows
  · intro rest hrest p hp hactive hne
    cases hrest
    have hcovered := hok.covered [] (by rw [hstage]; rfl) p hp hactive hne
    exact hcovered.imp_right fun hholds => (tx.holds_append _ _ _).2 (Or.inl hholds)
  · intro _
    rw [Archives, hstage]
    rfl

lemma inv_record (h : Inv s) (hi : s.transactions[i]? = some tx)
    (hrecord : tx.record taxonomy s.db = some tx') :
    Inv { s with transactions := s.transactions.set i tx' } := by
  obtain ⟨version, status, replaced, rules, hstage, -, rfl⟩ := record_eq_some hrecord
  have hmem := List.mem_of_getElem? hi
  have hok := h.transactions tx hmem
  have hunvisited : unvisited tx.stage = some [] := by
    rw [hstage]
    rfl
  refine h.set_of_archives hmem ⟨hok.publishes, hok.rows, ?_⟩ rfl ?_
  · intro rest hrest
    exact hok.covered rest (hunvisited.trans hrest)
  · intro _
    rw [Archives, hunvisited]
    rfl

/-- After the commit of a publication only its policy is active. -/
lemma active_of_commit (hok : TxOk policies tx) (hstage : unvisited tx.stage = some [])
    (hp : p ∈ overlay PolicyRow.id tx.rows policies) (hactive : p.status = "active") :
    p.id = tx.request.policyId := by
  obtain hwritten | ⟨hold, hnot⟩ := mem_overlay hp
  · exact hok.rows p hwritten hactive
  · refine not_not.1 fun hne => ?_
    obtain hnil | hholds := hok.covered [] hstage p hold hactive hne
    · cases hnil
    · obtain ⟨row, hrow, hid⟩ := List.mem_map.1 hholds
      exact hnot row hrow hid

lemma inv_commit (h : Inv s) (hi : s.transactions[i]? = some tx)
    (hcommit : tx.commit s.db = some db') :
    Inv { s with db := db', transactions := s.transactions.eraseIdx i } := by
  obtain ⟨replaced, version, hstage, hpolicies, -, -⟩ := commit_eq_some hcommit
  have hmem := List.mem_of_getElem? hi
  have hunvisited : unvisited tx.stage = some [] := by
    rw [hstage]
    rfl
  have honly : ∀ p ∈ db'.policies, p.status = "active" → p.id = tx.request.policyId := by
    rw [hpolicies]
    exact fun p hp hactive => active_of_commit (h.transactions tx hmem) hunvisited hp hactive
  obtain ⟨policyId, hall⟩ := h.same
  refine ⟨?_, ?_, ?_, policyId, forall_eraseIdx hall⟩
  · show Unique PolicyRow.id db'.policies
    rw [hpolicies]
    exact h.ids.overlay
  · intro p hp q hq hactive hactive'
    rw [honly p hp hactive, honly q hq hactive']
  · intro other hother
    have hmem' := List.mem_of_mem_eraseIdx hother
    refine ⟨(h.transactions other hmem').publishes, (h.transactions other hmem').rows, ?_⟩
    intro rowIds hrowIds p hp hactive hne
    -- another publication that archives is of the same policy
    have harchives : Archives other := isSome_iff_exists.2 ⟨rowIds, hrowIds⟩
    have harchives' : Archives tx := isSome_iff_exists.2 ⟨[], hunvisited⟩
    refine absurd (honly p hp hactive) fun hid => hne ?_
    rw [hid, hall tx hmem harchives', hall other hmem' harchives]

/-- **Every step keeps the invariant** if it meets the condition. -/
lemma inv_next (h : Inv s) (hok : Publishes e ∧ Exclusive s e) (hnext : next taxonomy s e = some s') :
    Inv s' := by
  obtain ⟨hpublishes, hexclusive⟩ := hok
  cases e with
  | begin ctx request =>
    obtain ⟨-, hnext⟩ := ite_none_right_eq_some.1 hnext
    cases hnext
    obtain ⟨policyId, hall⟩ := h.same
    refine ⟨h.ids, h.one, forall_concat ⟨?_, by simp, by simp [unvisited]⟩ h.transactions, policyId,
      forall_concat (by simp [Archives, unvisited]) hall⟩
    rintro policyId payload rfl
    exact hpublishes
  | statement i statement =>
    obtain ⟨tx, hi, hnext⟩ := bind_eq_some_iff.1 hnext
    obtain ⟨tx', hstep, hnext⟩ := bind_eq_some_iff.1 hnext
    cases hnext
    cases statement with
    | read => exact inv_read h hi hstep
    | archive => exact inv_archive h hi hexclusive hstep
    | archiveRow rowId => exact inv_archiveRow h hi hstep
    | write => exact inv_write h hi hstep
    | record => exact inv_record h hi hstep
  | commit i =>
    obtain ⟨tx, hi, hnext⟩ := bind_eq_some_iff.1 hnext
    obtain ⟨db', hcommit, hnext⟩ := bind_eq_some_iff.1 hnext
    cases hnext
    exact inv_commit h hi hcommit
  | abort i =>
    cases hnext
    obtain ⟨policyId, hall⟩ := h.same
    exact ⟨h.ids, h.one, forall_eraseIdx h.transactions, policyId, forall_eraseIdx hall⟩
  | insertPolicy doc name createdBy policyId now =>
    obtain ⟨⟨-, hfresh⟩, hnext⟩ := ite_none_right_eq_some.1 hnext
    cases hnext
    obtain ⟨hinactive, hidle⟩ := hexclusive
    -- the new policy is the only one that is active
    have honly : ∀ p ∈ (s.insertPolicy doc name createdBy policyId now).db.policies,
        p.status = "active" → p.id = policyId :=
      forall_concat (fun _ => rfl) fun p hp hactive => absurd hactive (hinactive p hp)
    refine ⟨h.ids.concat hfresh, ?_, ?_, policyId, fun tx htx ha => absurd ha (hidle tx htx)⟩
    · intro p hp q hq hactive hactive'
      rw [honly p hp hactive, honly q hq hactive']
    · intro tx htx
      refine ⟨(h.transactions tx htx).publishes, (h.transactions tx htx).rows, ?_⟩
      intro rowIds hrowIds
      exact absurd (isSome_iff_exists.2 ⟨rowIds, hrowIds⟩) (hidle tx htx)
  | insertRule i =>
    rw [next] at hnext
    split at hnext
    · cases hnext
      exact ⟨h.ids, h.one, h.transactions, h.same⟩
    · cases hnext
  | insertVersion i now =>
    rw [next] at hnext
    split at hnext
    · obtain ⟨-, hnext⟩ := ite_none_right_eq_some.1 hnext
      cases hnext
      exact ⟨h.ids, h.one, h.transactions, h.same⟩
    · cases hnext
  | giveUp i =>
    cases hnext
    exact ⟨h.ids, h.one, h.transactions, h.same⟩

end Steps

/-! ### The result -/

/-- **At most one policy is active** after a run of publications and creations that keep apart, whatever
is still under way. -/
theorem at_most_one_active (taxonomy : TaxonomyStore) (db : PolicyDb) (clock : ℕ) (es : List Event)
    (s : State) (hids : Unique PolicyRow.id db.policies) (hone : AtMostOneActive db)
    (hpublishes : ∀ e ∈ es, Publishes e)
    (hexclusive : Guarded (next taxonomy) Exclusive (start db clock) es)
    (hrun : run (next taxonomy) (start db clock) es = some s) : AtMostOneActive s.db := by
  have hstart : Inv (start db clock) :=
    ⟨hids, (at_most_one_iff hids).1 hone, by simp [start], 0, by simp [start]⟩
  have hinv : Inv s := (hexclusive.and_forall hpublishes).invariant Inv (fun _ _ _ => inv_next)
    hstart hrun
  exact (at_most_one_iff hinv.ids).2 hinv.one

/-- An active policy and two drafts. -/
def oneActive : PolicyDb :=
  { policies :=
      [{ id := 1, name := "base", version := "v1", status := "active", createdBy := none,
         createdAt := 1 },
       { id := 2, name := "strict", version := "v1", status := "draft", createdBy := none,
         createdAt := 2 },
       { id := 3, name := "lenient", version := "v1", status := "draft", createdBy := none,
         createdAt := 3 }]
    policyRules := []
    policyVersions := [] }

/-- The beginning of a publication. -/
def beginPublish (now : ℕ) (policyId : Uuid) : Event :=
  .begin { now, timestamp := "20260101000000", actor := "admin", freshIds := [] }
    (.publish policyId none none)

/-- Two publications: the second starts to archive before the first has committed, waits for the row of
policy 1, and finds it archived. -/
def overlappingPublications : List Event :=
  [beginPublish 4 2, beginPublish 4 3, .statement 0 .read, .statement 1 .read, .statement 0 .archive,
    .statement 0 (.archiveRow 1), .statement 0 .write, .statement 0 .record, .statement 1 .archive,
    .commit 0, .statement 0 (.archiveRow 1), .statement 0 .write, .statement 0 .record, .commit 0]

/-- A policy created by the engine. -/
def creation : List Event :=
  [.insertPolicy { version := "v1", rules := [] } "seed" none 4 4, .insertVersion 0 4]

/-- The ids of the active policies, and how much is under way. -/
def activeIds (s : State) : List Uuid × ℕ × ℕ :=
  ((s.db.policies.filter fun p => p.status = "active").map (·.id), s.transactions.length,
    s.creations.length)

/-- Both published policies are active in the end; a policy created by the engine is active beside the one
that was. -/
theorem two_active :
    AtMostOneActive oneActive ∧
    (run (next sampleTaxonomyStore) (start oneActive 4) overlappingPublications).map activeIds =
      some ([2, 3], 0, 0) ∧
    (run (next sampleTaxonomyStore) (start oneActive 4) creation).map activeIds =
      some ([1, 4], 0, 0) := by
  refine ⟨?_, ?_, ?_⟩ <;> decide +kernel

/-- The same publications, the second of which starts to archive when the first has committed. -/
def successivePublications : List Event :=
  [beginPublish 4 2, beginPublish 4 3, .statement 0 .read, .statement 1 .read, .statement 0 .archive,
    .statement 0 (.archiveRow 1), .statement 0 .write, .statement 0 .record, .commit 0,
    .statement 0 .archive, .statement 0 (.archiveRow 2), .statement 0 .write, .statement 0 .record,
    .commit 0]

/-- The policy published last is the active one. -/
theorem last_publication_active :
    ∃ s, run (next sampleTaxonomyStore) (start oneActive 4) successivePublications = some s ∧
      activeIds s = ([3], 0, 0) ∧ AtMostOneActive s.db := by
  have hend : (run (next sampleTaxonomyStore) (start oneActive 4) successivePublications).any
      (fun s => activeIds s = ([3], 0, 0)) = true := by decide +kernel
  obtain ⟨s, hrun, hactive⟩ := (any_eq_true _ _).1 hend
  refine ⟨s, hrun, of_decide_eq_true hactive, ?_⟩
  refine at_most_one_active sampleTaxonomyStore oneActive 4 successivePublications s (by decide)
    (by decide) ?_ (by decide +kernel) hrun
  simp [successivePublications, beginPublish, Publishes]

end OpenDefender.System.PolicyPublication
