import OpenDefender.Common.Classifications
import OpenDefender.Lib.Pool
import OpenDefender.Lib.Run

/-!
The writers of one key's classification: `store_classification` of a worker, `update_classification` and
`persist_manual_classification` of the admin API. Each of them runs three statements, and each statement is
a transaction of its own: the upsert of the row, the query for the highest version, and the insertion of
the next one. Writers run at the same time, and their statements come in any order.

* `versions_agree` says when the versions are distinct and the highest one names the category of the row;
* `manual_stands_iff` says when a manual classification outlives a job;
* `versions_recorded`: whatever overlaps, no version is lost.

`version_written_twice` and `manual_overwritten` are runs in which this does not hold.
-/

namespace OpenDefender.System.ClassificationWriters

open Lib Lib.Run List

/-! ### Writers -/

/-- Who writes. -/
inductive Source where
  | llmWorker
  | classificationEdit
  | manualClassify
  deriving DecidableEq, Repr

/-- The payload of a version. -/
structure VersionPayload where
  normalizedKey : String
  category : String
  subcategory : Option String
  action : Option PolicyAction
  source : Option String
  deriving DecidableEq, Repr

/-- The payload each of the writers inserts. -/
def Source.payload (source : Source) (normalizedKey : String) (values : ClassificationValues) :
    VersionPayload :=
  match source with
  | .llmWorker =>
    { normalizedKey
      category := values.primaryCategory
      subcategory := none
      action := some values.recommendedAction
      source := none }
  | .classificationEdit =>
    { normalizedKey
      category := values.primaryCategory
      subcategory := some values.subcategory
      action := none
      source := some "classification-edit" }
  | .manualClassify =>
    { normalizedKey
      category := values.primaryCategory
      subcategory := none
      action := some values.recommendedAction
      source := some "manual-classify" }

lemma category_payload (source : Source) (normalizedKey : String) (values : ClassificationValues) :
    (source.payload normalizedKey values).category = values.primaryCategory := by
  cases source <;> rfl

/-- A row of `classification_versions`, for the classification of the key. -/
structure VersionRow where
  version : ℕ
  payload : VersionPayload
  deriving DecidableEq, Repr

/-- Where a writer is. One whose upsert fails writes nothing. -/
inductive Phase where
  | waiting
  | upserted
  | numbered (version : ℕ)
  | finished
  | refused
  deriving DecidableEq, Repr

/-- A writer and what it has to write. -/
structure Writer where
  source : Source
  values : ClassificationValues
  phase : Phase
  deriving DecidableEq, Repr

/-- The tables, and the writers of the key. -/
structure Record where
  table : List ClassificationRow
  versions : List VersionRow
  writers : List Writer

/-- A statement of the writer with this number. -/
inductive Event where
  | upsert (i now : ℕ)
  | number (i : ℕ)
  | insert (i : ℕ)
  | refuse (i : ℕ)
  deriving DecidableEq, Repr

/-- `SELECT MAX(version) …`, and one more. -/
def nextVersion (versions : List VersionRow) : ℕ := (versions.map (·.version)).max?.getD 0 + 1

/-- The next state. -/
def next (normalizedKey : String) (record : Record) : Event → Option Record
  | .upsert i now =>
    match record.writers[i]? with
    | none => none
    | some writer =>
      if writer.phase = .waiting then
        (upsertClassification record.table normalizedKey writer.values now).map fun table =>
          { record with table, writers := record.writers.set i { writer with phase := .upserted } }
      else none
  | .number i =>
    match record.writers[i]? with
    | none => none
    | some writer =>
      if writer.phase = .upserted then
        some { record with
          writers := record.writers.set i
            { writer with phase := .numbered (nextVersion record.versions) } }
      else none
  | .insert i =>
    match record.writers[i]? with
    | none => none
    | some writer =>
      match writer.phase with
      | .numbered version =>
        some { record with
          versions := record.versions ++
            [{ version, payload := writer.source.payload normalizedKey writer.values }]
          writers := record.writers.set i { writer with phase := .finished } }
      | _ => none
  | .refuse i =>
    match record.writers[i]? with
    | none => none
    | some writer =>
      if writer.phase = .waiting then
        some { record with writers := record.writers.set i { writer with phase := .refused } }
      else none

/-- Writers that have not begun. -/
def start (table : List ClassificationRow) (versions : List VersionRow)
    (writes : List (Source × ClassificationValues)) : Record where
  table := table
  versions := versions
  writers := writes.map fun write => { source := write.1, values := write.2, phase := .waiting }

/-- What a statement does. -/
inductive Step (normalizedKey : String) (record : Record) : Event → Record → Prop
  | upsert {i now : ℕ} {writer : Writer} {table : List ClassificationRow}
      (hi : record.writers[i]? = some writer) (hphase : writer.phase = .waiting)
      (htable : upsertClassification record.table normalizedKey writer.values now = some table) :
      Step normalizedKey record (.upsert i now)
        { record with table, writers := record.writers.set i { writer with phase := .upserted } }
  | number {i : ℕ} {writer : Writer} (hi : record.writers[i]? = some writer)
      (hphase : writer.phase = .upserted) :
      Step normalizedKey record (.number i)
        { record with
          writers := record.writers.set i
            { writer with phase := .numbered (nextVersion record.versions) } }
  | insert {i version : ℕ} {writer : Writer} (hi : record.writers[i]? = some writer)
      (hphase : writer.phase = .numbered version) :
      Step normalizedKey record (.insert i)
        { record with
          versions := record.versions ++
            [{ version, payload := writer.source.payload normalizedKey writer.values }]
          writers := record.writers.set i { writer with phase := .finished } }
  | refuse {i : ℕ} {writer : Writer} (hi : record.writers[i]? = some writer)
      (hphase : writer.phase = .waiting) :
      Step normalizedKey record (.refuse i)
        { record with writers := record.writers.set i { writer with phase := .refused } }

variable {normalizedKey : String} {record record' : Record} {event : Event}

lemma step_of_next (h : next normalizedKey record event = some record') :
    Step normalizedKey record event record' := by
  revert h
  fun_cases next normalizedKey record event <;> rintro h
  all_goals try cases h
  · rename_i hi hphase
    obtain ⟨table, htable, rfl⟩ := Option.map_eq_some_iff.1 h
    exact .upsert hi hphase htable
  · exact .number ‹_› ‹_›
  · exact .insert ‹_› ‹_›
  · exact .refuse ‹_› ‹_›

/-! ### Versions -/

/-- The highest version names the category of the row. -/
def Agrees (normalizedKey : String) (table : List ClassificationRow) (versions : List VersionRow) :
    Prop :=
  ∀ row, storedRow table normalizedKey = some row →
    ∃ top ∈ versions, (∀ other ∈ versions, other.version ≤ top.version) ∧
      row.primaryCategory = some top.payload.category

/-- The writer is between its upsert and its version. -/
def Writer.Inside (writer : Writer) : Prop :=
  writer.phase ≠ .waiting ∧ writer.phase ≠ .finished ∧ writer.phase ≠ .refused

instance (writer : Writer) : Decidable writer.Inside := inferInstanceAs (Decidable (_ ∧ _))

/-- A writer upserts only while no other is between its upsert and its version. -/
def Alone (record : Record) : Event → Prop
  | .upsert _ _ => ∀ writer ∈ record.writers, ¬writer.Inside
  | _ => True

instance (record : Record) (event : Event) : Decidable (Alone record event) := by
  unfold Alone
  split <;> infer_instance

lemma lt_nextVersion (h : row ∈ versions) : row.version < nextVersion versions :=
  Nat.lt_succ_of_le (le_max?_getD_of_mem (mem_map_of_mem h))

/-- Two writers are not inside at the same time. -/
def Apart (a b : Writer) : Prop := ¬(a.Inside ∧ b.Inside)

lemma Apart.symm (a b : Writer) (h : Apart a b) : Apart b a := fun hboth => h hboth.symm

structure Inv (normalizedKey : String) (record : Record) : Prop where
  distinct : (record.versions.map (·.version)).Nodup
  apart : record.writers.Pairwise Apart
  outside : (∀ writer ∈ record.writers, ¬writer.Inside) →
    Agrees normalizedKey record.table record.versions
  /-- The row is as the writer that is inside has left it. -/
  inside : ∀ writer ∈ record.writers, writer.Inside →
    ∃ row, storedRow record.table normalizedKey = some row ∧
      row.primaryCategory = some writer.values.primaryCategory
  numbered : ∀ writer ∈ record.writers, ∀ version, writer.phase = .numbered version →
    version = nextVersion record.versions

variable {writer : Writer}

lemma inside_upserted (h : writer.phase = .upserted) : writer.Inside := by
  simp [Writer.Inside, h]

lemma inside_numbered (h : writer.phase = .numbered version) : writer.Inside := by
  simp [Writer.Inside, h]

/-- The others are outside while one is inside. -/
lemma Inv.others (h : Inv normalizedKey record) (hi : record.writers[i]? = some writer)
    (hinside : writer.Inside) : ∀ other ∈ record.writers.eraseIdx i, ¬other.Inside :=
  fun _ hother hboth => Pool.rel_of_mem_eraseIdx Apart.symm h.apart hi hother ⟨hinside, hboth⟩

/-- A writer goes on while the others are outside. -/
lemma Inv.apart_set (h : Inv normalizedKey record)
    (hothers : ∀ other ∈ record.writers.eraseIdx i, ¬other.Inside) (writer : Writer) :
    (record.writers.set i writer).Pairwise Apart :=
  Pool.pairwise_set Apart.symm h.apart fun other hother hboth => hothers other hother hboth.2

/-- The upsert of a writer. -/
lemma Inv.upsert (h : Inv normalizedKey record) (hi : record.writers[i]? = some writer)
    (hnone : ∀ writer ∈ record.writers, ¬writer.Inside)
    (htable : upsertClassification record.table normalizedKey writer.values now = some table) :
    Inv normalizedKey
      { record with table, writers := record.writers.set i { writer with phase := .upserted } } := by
  have hothers := Pool.forall_eraseIdx hnone (i := i)
  have hset : ∀ other ∈ record.writers.set i { writer with phase := .upserted }, other.Inside →
      other = { writer with phase := .upserted } := fun other hother hinside =>
    (Pool.mem_set_cases hother).resolve_right fun hmem => hothers other hmem hinside
  refine ⟨h.distinct, h.apart_set hothers _, fun houtside => ?_, fun other hother hinside => ?_,
    fun other hother version hphase => ?_⟩
  · have hmem := List.mem_set (List.getElem?_eq_some_iff.1 hi).1 { writer with phase := .upserted }
    exact absurd (inside_upserted rfl) (houtside _ hmem)
  · rw [hset other hother hinside]
    obtain ⟨row, confidence, -, hrow⟩ := storedRow_upsert_assign htable
    exact ⟨_, hrow, rfl⟩
  · rw [hset other hother (inside_numbered hphase)] at hphase
    cases hphase

/-- The number of a version. -/
lemma Inv.number (h : Inv normalizedKey record) (hi : record.writers[i]? = some writer)
    (hphase : writer.phase = .upserted) :
    Inv normalizedKey
      { record with
        writers := record.writers.set i
          { writer with phase := .numbered (nextVersion record.versions) } } := by
  have hothers := h.others hi (inside_upserted hphase)
  refine ⟨h.distinct, h.apart_set hothers _, fun houtside => ?_, fun other hother hinside => ?_,
    fun other hother version hphase' => ?_⟩
  · have hmem := List.mem_set (List.getElem?_eq_some_iff.1 hi).1
      { writer with phase := .numbered (nextVersion record.versions) }
    exact absurd (inside_numbered rfl) (houtside _ hmem)
  · rcases Pool.mem_set_cases hother with rfl | hmem
    · exact h.inside writer (mem_of_getElem? hi) (inside_upserted hphase)
    · exact absurd hinside (hothers other hmem)
  · rcases Pool.mem_set_cases hother with rfl | hmem
    · exact (Phase.numbered.inj hphase').symm
    · exact absurd (inside_numbered hphase') (hothers other hmem)

/-- The version of a writer. -/
lemma Inv.insert (h : Inv normalizedKey record) (hi : record.writers[i]? = some writer)
    (hphase : writer.phase = .numbered version) :
    Inv normalizedKey
      { record with
        versions := record.versions ++
          [{ version, payload := writer.source.payload normalizedKey writer.values }]
        writers := record.writers.set i { writer with phase := .finished } } := by
  have hmem := mem_of_getElem? hi
  have hversion := h.numbered writer hmem version hphase
  have hothers := h.others hi (inside_numbered hphase)
  have hnone : ∀ other ∈ record.writers.set i { writer with phase := .finished }, ¬other.Inside :=
    Pool.forall_set (fun hinside => hinside.2.1 rfl) hothers
  have hlt : ∀ row ∈ record.versions, row.version < version := fun row hrow =>
    hversion ▸ lt_nextVersion hrow
  refine ⟨?_, h.apart_set hothers _, fun _ row hrow => ?_,
    fun other hother hinside => absurd hinside (hnone other hother),
    fun other hother _ hphase => absurd (inside_numbered hphase) (hnone other hother)⟩
  · rw [map_append, nodup_append]
    refine ⟨h.distinct, nodup_singleton _, ?_⟩
    rintro _ hold _ hnew rfl
    obtain ⟨row, hrow, hrowVersion⟩ := mem_map.1 hold
    have heq : row.version = version := hrowVersion.trans (mem_singleton.1 hnew)
    exact absurd heq (hlt row hrow).ne
  · obtain ⟨stored, hstored, hcategory⟩ := h.inside writer hmem (inside_numbered hphase)
    obtain rfl : stored = row := Option.some.inj (hstored.symm.trans hrow)
    refine ⟨_, mem_append_right _ (mem_singleton_self _), ?_, ?_⟩
    · exact Pool.forall_concat le_rfl fun other hother => (hlt other hother).le
    · rw [hcategory, category_payload]

/-- A writer that fails at once. -/
lemma Inv.refuse (h : Inv normalizedKey record) (hi : record.writers[i]? = some writer)
    (hphase : writer.phase = .waiting) :
    Inv normalizedKey
      { record with writers := record.writers.set i { writer with phase := .refused } } := by
  have hset : ∀ other ∈ record.writers.set i { writer with phase := .refused }, other.Inside →
      other ∈ record.writers := fun other hother hinside => by
    rcases Pool.mem_set_cases hother with rfl | hmem
    · exact absurd rfl hinside.2.2
    · exact mem_of_mem_eraseIdx hmem
  refine ⟨h.distinct, ?_, fun houtside => ?_, fun other hother hinside => ?_,
    fun other hother version hnumbered => ?_⟩
  · refine Pool.pairwise_set Apart.symm h.apart fun other _ hboth => ?_
    exact hboth.1.2.2 rfl
  · refine h.outside fun other hother hinside => ?_
    obtain ⟨j, hj⟩ := mem_iff_getElem?.1 hother
    have hne : i ≠ j := by
      rintro rfl
      rw [Option.some.inj (hj.symm.trans hi)] at hinside
      exact hinside.1 hphase
    refine houtside other (mem_iff_getElem?.2 ⟨j, ?_⟩) hinside
    rw [getElem?_set_ne hne, hj]
  · exact h.inside other (hset other hother hinside) hinside
  · exact h.numbered other (hset other hother (inside_numbered hnumbered)) version hnumbered

lemma inv_next (h : Inv normalizedKey record) (halone : Alone record event)
    (hnext : next normalizedKey record event = some record') : Inv normalizedKey record' := by
  cases step_of_next hnext with
  | upsert hi hphase htable => exact h.upsert hi halone htable
  | number hi hphase => exact h.number hi hphase
  | insert hi hphase => exact h.insert hi hphase
  | refuse hi hphase => exact h.refuse hi hphase

/-- The writer has done all it was going to do. -/
def Writer.Done (writer : Writer) : Prop := writer.phase = .finished ∨ writer.phase = .refused

/-- **The versions of a classification.** In every run of any number of writers in which none upserts the
row while another is between its upsert and its version, the versions are distinct, and when all writers are
done the highest one names the category of the row. -/
theorem versions_agree (normalizedKey : String) (table : List ClassificationRow)
    (versions : List VersionRow) (writes : List (Source × ClassificationValues)) (events : List Event)
    (t : Record) (hdistinct : (versions.map (·.version)).Nodup)
    (hagrees : Agrees normalizedKey table versions)
    (halone : Guarded (next normalizedKey) Alone (start table versions writes) events)
    (hrun : run (next normalizedKey) (start table versions writes) events = some t) :
    (t.versions.map (·.version)).Nodup ∧
      ((∀ writer ∈ t.writers, writer.Done) → Agrees normalizedKey t.table t.versions) := by
  have hwaiting : ∀ writer ∈ (start table versions writes).writers, writer.phase = .waiting := by
    intro writer hwriter
    obtain ⟨write, -, rfl⟩ := mem_map.1 hwriter
    rfl
  have hstart : Inv normalizedKey (start table versions writes) := by
    refine ⟨hdistinct, ?_, fun _ => hagrees, fun writer hwriter hinside => ?_,
      fun writer hwriter version hphase => ?_⟩
    · refine pairwise_of_forall_mem_list fun a ha b _ hboth => ?_
      exact hboth.1.1 (hwaiting a ha)
    · exact absurd (hwaiting writer hwriter) hinside.1
    · rw [hwaiting writer hwriter] at hphase
      cases hphase
  have hinv := halone.invariant (Inv normalizedKey) (fun _ _ _ => inv_next) hstart hrun
  refine ⟨hinv.distinct, fun hdone => hinv.outside fun writer hwriter hinside => ?_⟩
  rcases hdone writer hwriter with hfinished | hrefused
  · exact hinside.2.1 hfinished
  · exact hinside.2.2 hrefused

/-! ### A manual classification and a job -/

/-- The row has category, subcategory and action of these values. -/
def Written (normalizedKey : String) (table : List ClassificationRow) (values : ClassificationValues) :
    Prop :=
  ∃ row, storedRow table normalizedKey = some row ∧
    row.primaryCategory = some values.primaryCategory ∧ row.subcategory = some values.subcategory ∧
    row.recommendedAction = values.recommendedAction.display

/-- The same category, subcategory and action. -/
def SameDecision (a b : ClassificationValues) : Prop :=
  a.primaryCategory = b.primaryCategory ∧ a.subcategory = b.subcategory ∧
    a.recommendedAction = b.recommendedAction

section Decisions

variable {table table' : List ClassificationRow} {values a b : ClassificationValues} {now : ℕ}

lemma written_upsert (h : upsertClassification table normalizedKey values now = some table') :
    Written normalizedKey table' values := by
  obtain ⟨row, confidence, -, hrow⟩ := storedRow_upsert_assign h
  exact ⟨_, hrow, rfl, rfl, rfl⟩

lemma Written.unique (ha : Written normalizedKey table a) (hb : Written normalizedKey table b) :
    SameDecision a b := by
  obtain ⟨row, hrow, hcategory, hsubcategory, haction⟩ := ha
  obtain ⟨row', hrow', hcategory', hsubcategory', haction'⟩ := hb
  obtain rfl : row = row' := Option.some.inj (hrow.symm.trans hrow')
  exact ⟨Option.some.inj (hcategory.symm.trans hcategory'),
    Option.some.inj (hsubcategory.symm.trans hsubcategory'),
    PolicyAction.display_injective (haction.symm.trans haction')⟩

lemma Written.congr (h : Written normalizedKey table a) (hsame : SameDecision a b) :
    Written normalizedKey table b := by
  obtain ⟨row, hrow, hcategory, hsubcategory, haction⟩ := h
  obtain ⟨hc, hs, ha⟩ := hsame
  exact ⟨row, hrow, hc ▸ hcategory, hs ▸ hsubcategory, ha ▸ haction⟩

end Decisions

/-- The job's upsert comes before the manual one. -/
def JobFirst (record : Record) : Event → Prop
  | .upsert 1 _ => ∀ writer ∈ record.writers[0]?, writer.phase = .waiting
  | _ => True

/-- The row has been written by this writer at least once. -/
def Writer.Stored (writer : Writer) : Prop := writer.phase ≠ .waiting ∧ writer.phase ≠ .refused

variable {m j : Writer}

/-- What a statement does if there are two writers. -/
inductive PairStep (normalizedKey : String) (record : Record) (m j : Writer) : Event → Record → Prop
  | first {now : ℕ} {record' : Record} (m' : Writer) (hwriters : record'.writers = [m', j])
      (hvalues : m'.values = m.values) (hwaiting : m.phase = .waiting)
      (hwritten : Written normalizedKey record'.table m.values) :
      PairStep normalizedKey record m j (.upsert 0 now) record'
  | second {now : ℕ} {record' : Record} (j' : Writer) (hwriters : record'.writers = [m, j'])
      (hvalues : j'.values = j.values) (hwritten : Written normalizedKey record'.table j.values) :
      PairStep normalizedKey record m j (.upsert 1 now) record'
  | other {event : Event} {record' : Record} (hfirst : JobFirst record event) (m' j' : Writer)
      (hwriters : record'.writers = [m', j'])
      (hm : m'.values = m.values) (hj : j'.values = j.values) (hstored : m'.Stored ↔ m.Stored)
      (hwaiting : m'.phase = .waiting → m.phase = .waiting) (htable : record'.table = record.table) :
      PairStep normalizedKey record m j event record'

/-- One of two writers goes on without touching the row. -/
lemma pairStep_set (hpair : record.writers = [m, j]) (hi : record.writers[i]? = some writer)
    (hstored : { writer with phase }.Stored ↔ writer.Stored) (hphase : phase ≠ .waiting)
    (hfirst : JobFirst record event) (versions : List VersionRow) :
    PairStep normalizedKey record m j event
      { record with versions, writers := record.writers.set i { writer with phase } } := by
  rw [hpair] at hi
  match i, hi with
  | 0, hi =>
    obtain rfl := Option.some.inj hi
    exact .other hfirst { m with phase } j (by rw [hpair]; rfl) rfl rfl hstored
      (fun h => absurd h hphase) rfl
  | 1, hi =>
    obtain rfl := Option.some.inj hi
    exact .other hfirst m { j with phase } (by rw [hpair]; rfl) rfl rfl Iff.rfl id rfl

lemma pairStep_of_next (hpair : record.writers = [m, j])
    (h : next normalizedKey record event = some record') :
    PairStep normalizedKey record m j event record' := by
  cases step_of_next h with
  | @upsert i now writer table hi hphase htable =>
    rw [hpair] at hi
    match i, hi with
    | 0, hi =>
      cases hi
      exact .first { m with phase := .upserted } (by rw [hpair]; rfl) rfl hphase
        (written_upsert htable)
    | 1, hi =>
      cases hi
      exact .second { j with phase := .upserted } (by rw [hpair]; rfl) rfl
        (written_upsert htable)
  | number hi hphase =>
    refine pairStep_set hpair hi ?_ Phase.noConfusion ?_ _
    · simp [Writer.Stored, hphase]
    · trivial
  | insert hi hphase =>
    refine pairStep_set hpair hi ?_ Phase.noConfusion ?_ _
    · simp [Writer.Stored, hphase]
    · trivial
  | refuse hi hphase =>
    refine pairStep_set hpair hi ?_ Phase.noConfusion ?_ _
    · simp [Writer.Stored, hphase]
    · trivial

/-- The two writers, with a property of the manual one and the table. -/
def Holds (manual job : ClassificationValues) (property : Writer → List ClassificationRow → Prop)
    (record : Record) : Prop :=
  ∃ m j, record.writers = [m, j] ∧ m.values = manual ∧ j.values = job ∧ property m record.table

variable {manual job : ClassificationValues}

/-- The row is the work of one of the two, once the manual one has been there. -/
def OneOfBoth (normalizedKey : String) (manual job : ClassificationValues) (m : Writer)
    (table : List ClassificationRow) : Prop :=
  m.Stored → Written normalizedKey table manual ∨ Written normalizedKey table job

/-- The row is the manual one, once it has been written. -/
def Manual (normalizedKey : String) (manual : ClassificationValues) (m : Writer)
    (table : List ClassificationRow) : Prop :=
  m.Stored → Written normalizedKey table manual

/-- The manual upsert is over, and the row is that of the job. -/
def Overtaken (normalizedKey : String) (job : ClassificationValues) (m : Writer)
    (table : List ClassificationRow) : Prop :=
  m.phase ≠ .waiting ∧ Written normalizedKey table job

lemma oneOfBoth_next (h : Holds manual job (OneOfBoth normalizedKey manual job) record)
    (hnext : next normalizedKey record event = some record') :
    Holds manual job (OneOfBoth normalizedKey manual job) record' := by
  obtain ⟨m, j, hpair, rfl, rfl, hrow⟩ := h
  cases pairStep_of_next hpair hnext with
  | first m' hwriters hvalues hwaiting hwritten =>
    exact ⟨m', j, hwriters, hvalues, rfl, fun _ => Or.inl hwritten⟩
  | second j' hwriters hvalues hwritten =>
    exact ⟨m, j', hwriters, rfl, hvalues, fun _ => Or.inr hwritten⟩
  | other hfirst' m' j' hwriters hm hj hstored hwaiting htable =>
    refine ⟨m', j', hwriters, hm, hj, fun hnow => ?_⟩
    rw [htable]
    exact hrow (hstored.1 hnow)

lemma manual_next (h : Holds manual job (Manual normalizedKey manual) record)
    (hfirst : JobFirst record event) (hnext : next normalizedKey record event = some record') :
    Holds manual job (Manual normalizedKey manual) record' := by
  obtain ⟨m, j, hpair, rfl, rfl, hrow⟩ := h
  cases pairStep_of_next hpair hnext with
  | first m' hwriters hvalues hwaiting hwritten =>
    exact ⟨m', j, hwriters, hvalues, rfl, fun _ => hwritten⟩
  | second j' hwriters hvalues hwritten =>
    -- the job comes first, so the manual upsert has not been there
    refine ⟨m, j', hwriters, rfl, hvalues, fun hstored => absurd (hfirst m ?_) hstored.1⟩
    rw [hpair]
    rfl
  | other hfirst' m' j' hwriters hm hj hstored hwaiting htable =>
    refine ⟨m', j', hwriters, hm, hj, fun hnow => ?_⟩
    rw [htable]
    exact hrow (hstored.1 hnow)

lemma overtaken_next (h : Holds manual job (Overtaken normalizedKey job) record)
    (hnext : next normalizedKey record event = some record') :
    Holds manual job (Overtaken normalizedKey job) record' := by
  obtain ⟨m, j, hpair, rfl, rfl, hphase, hrow⟩ := h
  cases pairStep_of_next hpair hnext with
  | first m' hwriters hvalues hwaiting hwritten => exact absurd hwaiting hphase
  | second j' hwriters hvalues hwritten =>
    exact ⟨m, j', hwriters, rfl, hvalues, hphase, hwritten⟩
  | other hfirst' m' j' hwriters hm hj hstored hwaiting htable =>
    exact ⟨m', j', hwriters, hm, hj, fun hnow => hphase (hwaiting hnow), htable ▸ hrow⟩

/-- A job that does not come first overtakes the manual classification. -/
lemma overtaken_of_not_first (h : Holds manual job (OneOfBoth normalizedKey manual job) record)
    (hfirst : ¬JobFirst record event) (hnext : next normalizedKey record event = some record') :
    Holds manual job (Overtaken normalizedKey job) record' := by
  obtain ⟨m, j, hpair, rfl, rfl, -⟩ := h
  cases pairStep_of_next hpair hnext with
  | first m' hwriters hvalues hwaiting hwritten => exact absurd trivial hfirst
  | second j' hwriters hvalues hwritten =>
    refine ⟨m, j', hwriters, rfl, hvalues, fun hwaiting => hfirst ?_, hwritten⟩
    intro writer hwriter
    rw [hpair] at hwriter
    cases hwriter
    exact hwaiting
  | other hfirst' => exact absurd hfirst' hfirst

/-- **A manual classification and a job.** Once the manual classification has finished, and in whatever
order the statements of the two came: the row has its category, subcategory and action exactly if the job's
upsert came before the manual one, or writes the same. -/
theorem manual_stands_iff (normalizedKey : String) (table : List ClassificationRow)
    (versions : List VersionRow) (manual job : ClassificationValues) (events : List Event) (t : Record)
    (hrun : run (next normalizedKey)
      (start table versions [(.manualClassify, manual), (.llmWorker, job)]) events = some t)
    (hfinished : (t.writers[0]?).map (·.phase) = some .finished) :
    Written normalizedKey t.table manual ↔ Guarded (next normalizedKey) JobFirst
          (start table versions [(.manualClassify, manual), (.llmWorker, job)]) events ∨
        SameDecision job manual := by
  have hstart : ∀ property : Writer → List ClassificationRow → Prop,
      (∀ m, ¬m.Stored → property m table) → Holds manual job property
        (start table versions [(.manualClassify, manual), (.llmWorker, job)]) :=
    fun property hproperty => ⟨_, _, rfl, rfl, rfl, hproperty _ fun hstored => hstored.1 rfl⟩
  have hboth : Holds manual job (OneOfBoth normalizedKey manual job)
      (start table versions [(.manualClassify, manual), (.llmWorker, job)]) :=
    hstart _ fun _ hnot hstored => absurd hstored hnot
  have hstored : ∀ m j, t.writers = [m, j] → m.Stored := by
    intro m j hpair
    rw [hpair] at hfinished
    have hphase : m.phase = .finished := Option.some.inj hfinished
    simp [Writer.Stored, hphase]
  constructor
  · intro hwritten
    by_cases hguard : Guarded (next normalizedKey) JobFirst
      (start table versions [(.manualClassify, manual), (.llmWorker, job)]) events
    · exact Or.inl hguard
    · obtain ⟨before, event, after, middle, -, hbefore, hbad, hafter⟩ :=
        exists_of_not_guarded hguard hrun
      obtain ⟨middle', hnext, hafter⟩ := run_cons.1 hafter
      have hmiddle := invariant_of_step _ (fun _ _ _ => oneOfBoth_next) hboth hbefore
      obtain ⟨m, j, -, -, rfl, -, hjob⟩ := invariant_of_step _ (fun _ _ _ => overtaken_next)
        (overtaken_of_not_first hmiddle hbad hnext) hafter
      exact Or.inr (hjob.unique hwritten)
  · rintro (hguard | hsame)
    · have hmanual := hguard.invariant (Holds manual job (Manual normalizedKey manual))
        (fun _ _ _ => manual_next) (hstart _ fun _ hnot hstored => absurd hstored hnot) hrun
      obtain ⟨m, j, hpair, -, -, hrow⟩ := hmanual
      exact hrow (hstored m j hpair)
    · obtain ⟨m, j, hpair, -, -, hrow⟩ := invariant_of_step _ (fun _ _ _ => oneOfBoth_next) hboth hrun
      rcases hrow (hstored m j hpair) with hmanual | hjob
      · exact hmanual
      · exact hjob.congr hsame

/-! ### Two writers -/

/-- A manual classification. -/
def manualValues : ClassificationValues where
  primaryCategory := "business"
  subcategory := "finance"
  riskLevel := "low"
  recommendedAction := .allow
  confidence := 9 / 10

/-- The verdict of a job. -/
def jobValues : ClassificationValues where
  primaryCategory := "social"
  subcategory := "forums"
  riskLevel := "medium"
  recommendedAction := .block
  confidence := 7 / 10

/-- Both writers of a key that has no classification yet. -/
def bothWriters : Record := start [] [] [(.manualClassify, manualValues), (.llmWorker, jobValues)]

/-- One writer after the other, each with all of its statements. -/
theorem versions_agree_in_turn : ∃ t, run (next "domain:site.example") bothWriters
        [.upsert 1 0, .number 1, .insert 1, .upsert 0 1, .number 0, .insert 0] = some t ∧
      t.versions.map (·.version) = [1, 2] ∧ (t.versions.map (·.version)).Nodup ∧
      ((∀ writer ∈ t.writers, writer.Done) → Agrees "domain:site.example" t.table t.versions) := by
  refine exists_of_run (by decide +kernel) fun t hrun _ => ?_
  exact versions_agree "domain:site.example" [] [] _ _ t nodup_nil (fun _ h => nomatch h)
    (by decide +kernel) hrun

/-- Two writers that both have upserted count the versions before either has inserted its own; and if one
of them inserts its version late, the highest version is not that of the row. -/
theorem version_written_twice : (run (next "domain:site.example") bothWriters
        [.upsert 0 0, .upsert 1 1, .number 0, .number 1, .insert 0, .insert 1]).map
        (fun t => t.versions.map (·.version)) = some [1, 1] ∧
    (run (next "domain:site.example") bothWriters
        [.upsert 0 0, .upsert 1 1, .number 1, .insert 1, .number 0, .insert 0]).map
        (fun t => ((storedRow t.table "domain:site.example").bind (·.primaryCategory),
          t.versions.map fun row => (row.version, row.payload.category))) =
      some (some "social", [(1, "social"), (2, "business")]) := by
  decide +kernel

/-- The job's upsert comes first. -/
theorem manual_stands_after_job : ∃ t, run (next "domain:site.example") bothWriters
        [.upsert 1 0, .upsert 0 1, .number 0, .insert 0, .number 1, .insert 1] = some t ∧
      (Written "domain:site.example" t.table manualValues ↔
        Guarded (next "domain:site.example") JobFirst bothWriters
            [.upsert 1 0, .upsert 0 1, .number 0, .insert 0, .number 1, .insert 1] ∨
          SameDecision jobValues manualValues) := by
  refine exists_of_any (fun t => (t.writers[0]?).map (·.phase) = some .finished) (by decide +kernel)
    fun t hrun hfinished => ?_
  exact manual_stands_iff "domain:site.example" [] [] manualValues jobValues _ t hrun
    (of_decide_eq_true hfinished)

/-- A job that was under way when the site was classified by hand writes its own verdict over it. -/
theorem manual_overwritten : (run (next "domain:site.example") bothWriters
        [.upsert 0 0, .number 0, .insert 0, .upsert 1 1, .number 1, .insert 1]).map
        (fun t => (t.writers.map (·.phase), (storedRow t.table "domain:site.example").map fun row =>
            (row.primaryCategory, row.subcategory, row.recommendedAction))) =
      some ([.finished, .finished], some (some "social", some "forums", "Block")) := by
  decide +kernel

/-! ### The history of a classification -/

/-- What a writer that has finished has recorded. -/
def Writer.recorded (normalizedKey : String) (writer : Writer) : Option VersionPayload :=
  if writer.phase = .finished then some (writer.source.payload normalizedKey writer.values) else none

/-- The versions that were there before, and one for each writer that has finished. -/
def Recorded (normalizedKey : String) (before : List VersionRow) (record : Record) : Prop :=
  ∃ new, record.versions = before ++ new ∧
    (new.map (·.payload)).Perm (record.writers.filterMap (Writer.recorded normalizedKey))

lemma recorded_next (h : Recorded normalizedKey before record)
    (hnext : next normalizedKey record event = some record') :
    Recorded normalizedKey before record' := by
  obtain ⟨new, hversions, hperm⟩ := h
  cases step_of_next hnext with
  | upsert hi hphase | number hi hphase | refuse hi hphase =>
    -- the writer goes on without finishing
    refine ⟨new, hversions, ?_⟩
    rwa [Pool.filterMap_set hi]
    simp [Writer.recorded, hphase]
  | insert hi hphase =>
    refine ⟨new ++ [_], by rw [hversions, append_assoc], ?_⟩
    rw [map_append]
    refine (perm_append_singleton _ _).trans ((hperm.cons _).trans ?_)
    refine (Pool.perm_filterMap_set (f := Writer.recorded normalizedKey) hi ?_ rfl).symm
    simp [Writer.recorded, hphase]

/-- **No version is lost.** In every run of any number of writers, whatever overlaps: the versions of before
are still there, and each writer that has finished has added one, with its own values. -/
theorem versions_recorded (normalizedKey : String) (table : List ClassificationRow)
    (versions : List VersionRow) (writes : List (Source × ClassificationValues)) (events : List Event)
    (t : Record) (hrun : run (next normalizedKey) (start table versions writes) events = some t) :
    Recorded normalizedKey versions t := by
  refine invariant_of_step (Recorded normalizedKey versions) (fun _ _ _ => recorded_next) ?_ hrun
  refine ⟨[], (append_nil _).symm, ?_⟩
  rw [filterMap_eq_nil_iff.2]
  · exact .nil
  · intro writer hwriter
    obtain ⟨write, -, rfl⟩ := mem_map.1 hwriter
    rfl

/-- Also where two writers have taken the same number. -/
theorem versions_recorded_twice : ∃ t, run (next "domain:site.example") bothWriters
        [.upsert 0 0, .upsert 1 1, .number 0, .number 1, .insert 1, .insert 0] = some t ∧
      t.versions.map (·.payload.category) = ["social", "business"] ∧
      Recorded "domain:site.example" [] t := by
  refine exists_of_run (by decide +kernel) fun t hrun _ => ?_
  exact versions_recorded "domain:site.example" [] [] _ _ t hrun

end OpenDefender.System.ClassificationWriters
