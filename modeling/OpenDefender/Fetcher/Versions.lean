import OpenDefender.Fetcher.Job
import OpenDefender.Lib.Pool
import OpenDefender.Lib.Ranking
import OpenDefender.Lib.Run

/-!
The versions of a page when several transactions store pages at once.

`store_content` and `store_failure` take an advisory lock on a hash of the key, read the largest version,
insert the row with the next one, delete the rows after the limit and commit. Each statement sees the rows
committed by then and the transaction's own. The lock is held to the end, so from the second statement on
no other transaction changes the rows of the key (`Stage.Ok`, kept by `inv_next`). With `stored_commit`,
what a commit does to these rows, this gives `versions_kept`.
-/

namespace OpenDefender.Fetcher.Versions

open Lib Lib.Run Lib.Pool List

/-! ### The transactions -/

def versions (rows : List FetchRow) : List ℤ := rows.map (·.fetchVersion)

/-- `next_version_tx`. -/
def nextVersionTx (rows : List FetchRow) : ℤ := (versions rows).max?.getD 0 + 1

/-- How far a transaction has come. What it inserts and deletes is not seen by the others yet. -/
inductive Stage where
  | begun
  | locked
  | numbered (version : ℤ)
  | inserted (row : FetchRow)
  | pruned (row : FetchRow) (deleted : List FetchRow)

/-- The transaction has its advisory lock. -/
def Stage.holds : Stage → Bool
  | .begun => false
  | _ => true

structure Transaction where
  key : String
  stage : Stage

/-- The rows of `page_contents` that are committed, by their key, and the open transactions. -/
structure Pages where
  rows : String → List FetchRow
  transactions : List Transaction

inductive Statement where
  /-- `lock_page_content_key`. -/
  | lock
  /-- `SELECT MAX(fetch_version)`. -/
  | max
  /-- `INSERT`, of the page as it was fetched; key and version are set by the transaction. -/
  | insert (page : FetchRow)
  /-- `prune_page_content_versions`. -/
  | prune

inductive Event where
  | start (key : String)
  | exec (i : ℕ) (statement : Statement)
  | commit (i : ℕ)
  | rollback (i : ℕ)

section Next

variable (R : Ranking FetchRow.fetchVersion) (hash : String → ℤ) (keep : ℕ)

/-- A statement of a transaction, `none` if it waits or fails. -/
def Transaction.exec (s : Pages) (tx : Transaction) (statement : Statement) : Option Stage :=
  match tx.stage, statement with
  | .begun, .lock =>
    -- the lock is on the hash, so a transaction for another key can be in the way
    if ∀ other ∈ s.transactions, other.stage.holds = true → hash other.key ≠ hash tx.key then some .locked
    else none
  | .locked, .max => some (.numbered (nextVersionTx (s.rows tx.key)))
  | .numbered version, .insert page =>
    -- `fetch_version` is an `INTEGER`, and unique for a key
    if version ≤ 2147483647 ∧ version ∉ versions (s.rows tx.key) then
      some (.inserted { page with normalizedKey := tx.key, fetchVersion := version })
    else none
  | .inserted row, .prune => some (.pruned row ((R.ranked (s.rows tx.key ++ [row])).drop keep))
  | _, _ => none

def next (s : Pages) : Event → Option Pages
  | .start key => some { s with transactions := s.transactions ++ [⟨key, .begun⟩] }
  | .exec i statement => do
    let tx ← s.transactions[i]?
    let stage ← tx.exec R hash keep s statement
    some { s with transactions := s.transactions.set i { tx with stage := stage } }
  | .commit i => do
    let tx ← s.transactions[i]?
    match tx.stage with
    | .pruned row deleted =>
      some ⟨Function.update s.rows tx.key ((s.rows tx.key ++ [row]).filter (· ∉ deleted)),
        s.transactions.eraseIdx i⟩
    | _ => none
  | .rollback i => some { s with transactions := s.transactions.eraseIdx i }

end Next

variable {R : Ranking FetchRow.fetchVersion} {hash : String → ℤ} {keep : ℕ} {rows deleted : List FetchRow}
  {row : FetchRow} {s t : Pages}

/-! ### What the lock protects -/

/-- The row has a version above all others. -/
def IsNewest (rows : List FetchRow) (row : FetchRow) : Prop :=
  ∀ old ∈ rows, old.fetchVersion < row.fetchVersion

variable (R keep) in
/-- What a transaction has found in the rows of its key is still so. -/
def Stage.Ok (rows : List FetchRow) : Stage → Prop
  | .begun | .locked => True
  | .numbered version => ∀ old ∈ rows, old.fetchVersion < version
  | .inserted row => IsNewest rows row
  | .pruned row deleted => IsNewest rows row ∧ deleted = (R.ranked (rows ++ [row])).drop keep

/-- Two transactions that have their locks have different ones. -/
def Apart (hash : String → ℤ) (a b : Transaction) : Prop :=
  a.stage.holds = true → b.stage.holds = true → hash a.key ≠ hash b.key

lemma apart_symm (a b : Transaction) (h : Apart hash a b) : Apart hash b a :=
  fun hb ha => (h ha hb).symm

lemma lt_nextVersionTx (h : row ∈ rows) : row.fetchVersion < nextVersionTx rows := by
  have hmem : row.fetchVersion ∈ versions rows := mem_map_of_mem h
  obtain ⟨top, htop⟩ := Option.isSome_iff_exists.1 (isSome_max?_of_mem hmem)
  have hle := (max?_eq_some_iff.1 htop).2 _ hmem
  simp only [nextVersionTx, htop, Option.getD_some]
  omega

/-- A statement finds what the next stage relies on, and only the first one takes a lock. -/
lemma exec_spec {tx : Transaction} {statement : Statement} {stage : Stage}
    (hok : tx.stage.Ok R keep (s.rows tx.key)) (h : tx.exec R hash keep s statement = some stage) :
    stage.Ok R keep (s.rows tx.key) ∧
      (tx.stage.holds = true ∨ ∀ other ∈ s.transactions, Apart hash { tx with stage := stage } other) := by
  revert h
  fun_cases Transaction.exec R hash keep s tx statement <;> rintro ⟨⟩
  · rename_i hfree
    exact ⟨trivial, Or.inr fun other hmem _ hholds => (hfree other hmem hholds).symm⟩
  · rename_i hstage
    exact ⟨fun _ => lt_nextVersionTx, Or.inl (hstage ▸ rfl)⟩
  · rename_i hstage _
    rw [hstage] at hok ⊢
    exact ⟨hok, Or.inl rfl⟩
  · rename_i hstage
    rw [hstage] at hok ⊢
    exact ⟨⟨hok, rfl⟩, Or.inl rfl⟩

/-! ### A commit -/

/-- A row is stored, with a version above all others; as many rows are kept as the limit allows, those
with the largest versions. -/
structure Stored (keep : ℕ) (row : FetchRow) (before after : List FetchRow) : Prop where
  stored : row ∈ after
  newest : IsNewest before row
  length_eq : after.length = min keep (before.length + 1)
  known : ∀ kept ∈ after, kept ∈ before ∨ kept = row
  largest : ∀ kept ∈ after, ∀ gone ∈ before, gone ∉ after → gone.fetchVersion < kept.fetchVersion

lemma nodup_concat (hnew : IsNewest rows row) (hrows : (versions rows).Nodup) :
    (versions (rows ++ [row])).Nodup := by
  rw [versions, map_append, map_singleton]
  refine nodup_append'.2 ⟨hrows, nodup_singleton _, fun version hmem heq => ?_⟩
  obtain ⟨old, hold, rfl⟩ := mem_map.1 hmem
  exact (hnew old hold).ne (mem_singleton.1 heq)

lemma stored_commit (hkeep : 1 ≤ keep) (hnew : IsNewest rows row) (hrows : (versions rows).Nodup)
    (hdeleted : deleted = (R.ranked (rows ++ [row])).drop keep) :
    Stored keep row rows ((rows ++ [row]).filter (· ∉ deleted)) := by
  have hnodup := nodup_concat hnew hrows
  have hperm := R.perm_take_ranked (n := keep) (Nodup.of_map _ hnodup)
  rw [← hdeleted] at hperm
  have hlength : ((rows ++ [row]).filter (· ∉ deleted)).length = min keep (rows.length + 1) := by
    rw [hperm.length_eq, length_take, (R.perm _).length_eq, length_append, length_singleton]
  have hmem {kept : FetchRow} : kept ∈ (rows ++ [row]).filter (· ∉ deleted) ↔
      (kept ∈ rows ∨ kept = row) ∧ kept ∉ deleted := by
    rw [mem_filter, mem_append, mem_singleton, decide_eq_true_iff]
  have hgone : ∀ kept ∈ (rows ++ [row]).filter (· ∉ deleted), ∀ gone ∈ deleted,
      gone.fetchVersion < kept.fetchVersion := fun kept hkept gone hgone =>
    R.lt_of_mem_drop hnodup (hperm.mem_iff.1 hkept) (hdeleted ▸ hgone)
  refine ⟨hmem.2 ⟨Or.inr rfl, fun hrow => ?_⟩, hnew, hlength, fun kept hkept => (hmem.1 hkept).1,
    fun kept hkept gone hold hnot => ?_⟩
  · -- some row stays, and none has a version above the new one's
    have hpos : 0 < min keep (rows.length + 1) := by omega
    obtain ⟨kept, hkept⟩ := exists_mem_of_length_pos (hlength ▸ hpos)
    have hlt := hgone kept hkept row hrow
    obtain ⟨hold | rfl, -⟩ := hmem.1 hkept
    · exact hlt.asymm (hnew kept hold)
    · exact hlt.false
  · exact hgone kept hkept gone (by_contra fun hstays => hnot (hmem.2 ⟨Or.inl hold, hstays⟩))

/-! ### The runs -/

variable (R hash keep) in
structure Inv (s : Pages) : Prop where
  distinct : ∀ key, (versions (s.rows key)).Nodup
  apart : s.transactions.Pairwise (Apart hash)
  ok : ∀ tx ∈ s.transactions, tx.stage.Ok R keep (s.rows tx.key)

lemma next_commit {i : ℕ} (h : next R hash keep s (.commit i) = some t) :
    ∃ key row deleted, s.transactions[i]? = some ⟨key, .pruned row deleted⟩ ∧
      t.rows key = (s.rows key ++ [row]).filter (· ∉ deleted) ∧
      (∀ other, other ≠ key → t.rows other = s.rows other) ∧ t.transactions = s.transactions.eraseIdx i := by
  simp only [next, Option.bind_eq_bind, Option.bind_eq_some_iff] at h
  obtain ⟨⟨key, stage⟩, hi, h⟩ := h
  cases stage <;> cases h
  exact ⟨key, _, _, hi, Function.update_self .., fun _ hne => Function.update_of_ne hne .., rfl⟩

lemma inv_next {e : Event} (hinv : Inv R hash keep s) (h : next R hash keep s e = some t) :
    Inv R hash keep t := by
  obtain ⟨hdistinct, hapart, hok⟩ := hinv
  cases e with
  | start key =>
    cases h
    refine ⟨hdistinct, pairwise_append.2 ⟨hapart, pairwise_singleton _ _, ?_⟩, forall_concat trivial hok⟩
    rintro tx - other hother - hholds
    cases mem_singleton.1 hother
    cases hholds
  | exec i statement =>
    simp only [next, Option.bind_eq_bind, Option.bind_eq_some_iff] at h
    obtain ⟨tx, hi, stage, hexec, ⟨⟩⟩ := h
    obtain ⟨hstage, hlock⟩ := exec_spec (hok tx (mem_of_getElem? hi)) hexec
    refine ⟨hdistinct, pairwise_set apart_symm hapart fun other hother => ?_,
      forall_set hstage (forall_eraseIdx hok)⟩
    obtain hholds | hfree := hlock
    · have hapart : Apart hash tx other := rel_of_mem_eraseIdx apart_symm hapart hi hother
      exact fun _ => hapart hholds
    · exact hfree other (mem_of_mem_eraseIdx hother)
  | commit i =>
    obtain ⟨key, row, deleted, hi, hrows, hothers, htransactions⟩ := next_commit h
    obtain ⟨hnew, -⟩ := hok _ (mem_of_getElem? hi)
    refine ⟨fun other => ?_, htransactions ▸ hapart.sublist (eraseIdx_sublist _ _), fun tx htx => ?_⟩
    · obtain rfl | hne := eq_or_ne other key
      · rw [hrows]
        exact (nodup_concat hnew (hdistinct other)).sublist (filter_sublist.map _)
      · rw [hothers other hne]
        exact hdistinct other
    · rw [htransactions] at htx
      obtain hkey | hne := eq_or_ne tx.key key
      · -- a transaction for the same key has no lock yet
        have hfree := rel_of_mem_eraseIdx apart_symm hapart hi htx rfl
        cases hstage : tx.stage with
        | begun => trivial
        | _ => exact absurd (congrArg hash hkey.symm) (hfree (hstage ▸ rfl))
      · rw [hothers tx.key hne]
        exact hok tx (mem_of_mem_eraseIdx htx)
  | rollback i =>
    cases h
    exact ⟨hdistinct, hapart.sublist (eraseIdx_sublist _ _), forall_eraseIdx hok⟩

/-- **The versions of a page.** However the transactions interleave, and whatever keys share a lock, the
versions of a key are distinct, and each commit stores a row of its key and changes no others. -/
theorem versions_kept (R : Ranking FetchRow.fetchVersion) (hash : String → ℤ) {keep : ℕ} (hkeep : 1 ≤ keep)
    {rows : String → List FetchRow} (hrows : ∀ key, (versions (rows key)).Nodup) {events : List Event}
    {t : Pages} (hrun : run (next R hash keep) ⟨rows, []⟩ events = some t) :
    (∀ key, (versions (t.rows key)).Nodup) ∧
      ∀ i t', next R hash keep t (.commit i) = some t' → ∃ key row,
        Stored keep row (t.rows key) (t'.rows key) ∧ ∀ other, other ≠ key → t'.rows other = t.rows other := by
  have hinv : Inv R hash keep t :=
    invariant_of_step _ (fun _ _ _ => inv_next) ⟨hrows, .nil, forall_mem_nil _⟩ hrun
  refine ⟨hinv.distinct, fun i t' h => ?_⟩
  obtain ⟨key, row, deleted, hi, hcommit, hothers, -⟩ := next_commit h
  obtain ⟨hnew, hdeleted⟩ := hinv.ok _ (mem_of_getElem? hi)
  exact ⟨key, row, hcommit ▸ stored_commit hkeep hnew (hinv.distinct key) hdeleted, hothers⟩

/-- The second version of a page takes the place of the first, while another transaction waits. -/
theorem second_version_kept :
    ∃ t, run (next (.preferring _ fun _ => true) (fun _ => 0) 1)
        ⟨fun _ => [⟨"domain:a.com", 1, "ok", "a.com", 0, 60⟩], []⟩
        [.start "domain:a.com", .start "domain:a.com", .exec 1 .lock, .exec 1 .max,
          .exec 1 (.insert ⟨"", 0, "failed", "timeout", 70, 130⟩), .exec 1 .prune] = some t ∧
      ∃ t', next (.preferring _ fun _ => true) (fun _ => 0) 1 t (.commit 1) = some t' ∧
        versions (t'.rows "domain:a.com") = [2] ∧ ∃ key row, Stored 1 row (t.rows key) (t'.rows key) ∧
          ∀ other, other ≠ key → t'.rows other = t.rows other := by
  refine exists_of_any (fun t => (next (.preferring _ fun _ => true) (fun _ => 0) 1 t (.commit 1)).any
    fun t' => versions (t'.rows "domain:a.com") = [2]) (by decide +kernel) fun t ht h => ?_
  refine exists_of_run h fun t' ht' _ => ?_
  exact (versions_kept _ _ le_rfl (fun _ => by simp [versions]) ht).2 1 t' ht'

end OpenDefender.Fetcher.Versions
