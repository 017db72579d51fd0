import OpenDefender.Admin.PolicyRules
import OpenDefender.Engine.Evaluator
import OpenDefender.Lib.Run

/-!
Rule order and priorities: when first-match evaluation is evaluation by priority.

`simulate` answers with the first matching rule of the list, so it answers with a rule of least
priority as soon as the list ascends (`PolicyStore.InOrder`). `fromDocument` and `update` sort;
`loadFromDb`, `updateFromRules` and hence `reload` keep the stored order, and the rows of
`policy_rules` come back in the order of *signed* priorities. The predicates `StoredInOrder`,
`DatabaseSource.InOrder` and `StoreOp.InOrder` say when these paths deliver an ascending list, and
`picksLeast_of_run` is the result for whole runs of store operations.
-/

namespace OpenDefender.Engine

open Lib FirstMatch Outcome Run List

/-- The key the rules are ordered by. -/
def priorityKey (rule : PolicyRule) : Nat :=
  rule.priority.toNat

/-- The rules of the store ascend in priority. -/
def PolicyStore.InOrder (store : PolicyStore) : Prop :=
  OrderedBy priorityKey store.rules

/-- Evaluation by priority: if a rule matches, the answer is the action of a matching rule of least
priority; if none matches, it is allow. -/
def PolicyStore.PicksLeast (store : PolicyStore) (request : DecisionRequest) : Prop :=
  ((∃ rule ∈ store.rules, store.ruleMatches request rule = true) →
    ∃ best ∈ store.rules, store.ruleMatches request best = true ∧
      (∀ rule ∈ store.rules, store.ruleMatches request rule = true → best.priority ≤ rule.priority) ∧
      (store.simulate request).decision.action = best.action) ∧
  ((∀ rule ∈ store.rules, store.ruleMatches request rule = false) →
    (store.simulate request).decision.action = .allow)

/-- The answer of `simulate` is the action of the first match, or allow. -/
lemma simulate_action (store : PolicyStore) (request : DecisionRequest) :
    (store.simulate request).decision.action =
      ((store.firstMatch request).map (·.action)).getD .allow := by
  unfold PolicyStore.simulate
  cases store.firstMatch request <;> rfl

variable {store : PolicyStore}

/-- First match is evaluation by priority on an ascending list. -/
lemma PolicyStore.InOrder.picksLeast (h : store.InOrder) (request : DecisionRequest) :
    store.PicksLeast request := by
  have hact := simulate_action store request
  constructor
  · rintro ⟨rule, hrule, hm⟩
    have hfind : (store.firstMatch request).isSome := find?_isSome.2 ⟨rule, hrule, hm⟩
    obtain ⟨best, hbest⟩ := Option.isSome_iff_exists.1 hfind
    obtain ⟨hmem, hmatch, hleast⟩ := least_of_find? h hbest
    refine ⟨best, hmem, hmatch, fun r hr hmr => ?_, ?_⟩
    · exact UInt32.le_iff_toNat_le.2 (hleast r hr hmr)
    · rw [hact, hbest]
      rfl
  · intro hnone
    have hfind : store.firstMatch request = none := find?_eq_none.2 fun r hr => by simp [hnone r hr]
    rw [hact, hfind]
    rfl

/-! ### Which paths keep the order -/

lemma orderedBy_iff_map {α : Type*} (f : α → ℕ) (l : List α) :
    OrderedBy f l ↔ (l.map f).Pairwise (· ≤ ·) :=
  pairwise_map.symm

variable {taxonomy : TaxonomyStore}

/-- Canonicalising changes the categories of a rule, never its priority. -/
lemma canonicalizeRule_priority (h : canonicalizeRule taxonomy rule = .ok r) :
    priorityKey r = priorityKey rule := by
  unfold canonicalizeRule at h
  split at h
  · rw [Except.ok.inj h]
  · obtain ⟨canonical, -, h⟩ := bind_ok.1 h
    rw [← Except.ok.inj h]
    rfl

variable {rules : List PolicyRule}

lemma canonicalizeRules_map_priority (h : canonicalizeRules taxonomy rules = .ok r) :
    r.map priorityKey = rules.map priorityKey :=
  map_eq_of_mapM_ok (fun _ _ => canonicalizeRule_priority) h

/-- Canonicalising keeps the order of priorities. -/
lemma orderedBy_canonicalizeRules (h : canonicalizeRules taxonomy rules = .ok r)
    (ho : OrderedBy priorityKey rules) : OrderedBy priorityKey r := by
  rw [orderedBy_iff_map, canonicalizeRules_map_priority h]
  exact (orderedBy_iff_map priorityKey rules).1 ho

/-- The rows of a policy whose priorities, read as signed integers, all have the same sign. -/
def PolicyDb.OneSided (db : PolicyDb) (policyId : Uuid) : Prop :=
  (∀ row ∈ db.policyRules, row.policyId = policyId → 0 ≤ row.priority.toInt) ∨
    (∀ row ∈ db.policyRules, row.policyId = policyId → row.priority.toInt < 0)

/-- **The condition on stored rules.** The newest snapshot of the policy, if it has rules, lists
them in ascending priority; if it has none, the priorities of its rows of `policy_rules` lie all
below or all at or above `2^31`. -/
def PolicyDb.StoredInOrder (db : PolicyDb) (policyId : Uuid) : Prop :=
  if ((db.loadLatestVersionRules policyId).getD []).isEmpty then db.OneSided policyId
  else OrderedBy priorityKey ((db.loadLatestVersionRules policyId).getD [])

instance (db : PolicyDb) (policyId : Uuid) : Decidable (db.OneSided policyId) :=
  inferInstanceAs (Decidable (_ ∨ _))

instance (db : PolicyDb) (policyId : Uuid) : Decidable (db.StoredInOrder policyId) :=
  inferInstanceAs (Decidable (if ((db.loadLatestVersionRules policyId).getD []).isEmpty
    then db.OneSided policyId
    else OrderedBy priorityKey ((db.loadLatestVersionRules policyId).getD [])))

/-- The priority of a rule read from a row, by the sign of the stored integer. -/
lemma toUInt32_toNat_cast (p : Int32) :
    (p.toUInt32.toNat : ℤ) = if 0 ≤ p.toInt then p.toInt else p.toInt + 2 ^ 32 := by
  have hcond := BitVec.toInt_eq_toNat_cond p.toBitVec
  have hlt := p.toBitVec.isLt
  have hnat : p.toUInt32.toNat = p.toBitVec.toNat := rfl
  have hint : p.toInt = p.toBitVec.toInt := rfl
  rw [hnat, hint, hcond]
  split <;> split <;> omega

lemma dbRowToRule_priority (h : dbRowToRule row = .ok rule) :
    priorityKey rule = row.priority.toUInt32.toNat := by
  unfold dbRowToRule at h
  split at h
  · cases h
  · rw [← Except.ok.inj h]
    rfl

variable {db : PolicyDb}

lemma loadPolicyRulesTable_map_priority (h : db.loadPolicyRulesTable policyId = .ok rules) :
    rules.map priorityKey = (db.orderedRuleRows policyId).map fun row => row.priority.toUInt32.toNat :=
  map_eq_of_mapM_ok (fun _ _ => dbRowToRule_priority) h

/-- On priorities of one sign the signed order is the unsigned one, so the rows come back in
ascending priority. -/
lemma orderedBy_loadPolicyRulesTable (hside : db.OneSided policyId)
    (h : db.loadPolicyRulesTable policyId = .ok rules) : OrderedBy priorityKey rules := by
  rw [orderedBy_iff_map, loadPolicyRulesTable_map_priority h, pairwise_map]
  have hsigned : OrderedBy (fun row : PolicyRuleRow => row.priority.toInt)
      (db.orderedRuleRows policyId) := orderedBy_sortBy _ _
  refine List.Pairwise.imp_of_mem ?_ hsigned
  intro a b ha hb (hab : a.priority.toInt ≤ b.priority.toInt)
  have hmem (row : PolicyRuleRow) (hrow : row ∈ db.orderedRuleRows policyId) :
      row ∈ db.policyRules ∧ row.policyId = policyId := by
    simpa using mem_filter.1 (mem_sortBy.1 hrow)
  have hca := toUInt32_toNat_cast a.priority
  have hcb := toUInt32_toNat_cast b.priority
  rcases hside with hpos | hneg
  · rw [if_pos (hpos a (hmem a ha).1 (hmem a ha).2)] at hca
    rw [if_pos (hpos b (hmem b hb).1 (hmem b hb).2)] at hcb
    omega
  · rw [if_neg (not_le.2 (hneg a (hmem a ha).1 (hmem a ha).2))] at hca
    rw [if_neg (not_le.2 (hneg b (hmem b hb).1 (hmem b hb).2))] at hcb
    omega

/-- What `load_from_db` reads is in order when it is stored in order. -/
lemma PolicyDb.StoredInOrder.storedRules (hstored : db.StoredInOrder policyId)
    (h : db.storedRules policyId = .ok rules) : OrderedBy priorityKey rules := by
  unfold PolicyDb.StoredInOrder at hstored
  simp only [PolicyDb.storedRules] at h
  split at h
  · rename_i hempty
    rw [if_pos hempty] at hstored
    exact orderedBy_loadPolicyRulesTable hstored h
  · rename_i hne
    rw [if_neg hne] at hstored
    rw [← Except.ok.inj h]
    exact hstored

/-- The active policy of the tables, if there is one, is stored in order. -/
def PolicyDb.ActiveInOrder (db : PolicyDb) : Prop :=
  ∀ policy, db.activePolicy = some policy → db.StoredInOrder policy.id

lemma inOrder_loadFromDb (hdb : db.ActiveInOrder)
    (h : PolicyStore.loadFromDb db taxonomy = .ok (some store)) :
    store.InOrder := by
  unfold PolicyStore.loadFromDb at h
  split at h
  · cases h
  · rename_i policy hpolicy
    obtain ⟨parsed, hparsed, h⟩ := bind_ok.1 h
    obtain ⟨rules, hrules, h⟩ := bind_ok.1 h
    obtain rfl := Option.some.inj (Except.ok.inj h)
    exact orderedBy_canonicalizeRules hrules ((hdb policy hpolicy).storedRules hparsed)

lemma inOrder_fromDocument (h : PolicyStore.fromDocument doc taxonomy = .ok store) :
    store.InOrder := by
  obtain ⟨rules, -, h⟩ := bind_ok.1 h
  rw [← Except.ok.inj h]
  exact orderedBy_sortBy priorityKey rules

variable {store' : PolicyStore}

lemma inOrder_update (h : store.update doc = .ok store') : store'.InOrder := by
  obtain ⟨rules, -, h⟩ := bind_ok.1 h
  rw [← Except.ok.inj h]
  exact orderedBy_sortBy priorityKey rules

lemma inOrder_updateFromRules (ho : OrderedBy priorityKey rules)
    (h : store.updateFromRules rules version policyId = .ok store') : store'.InOrder := by
  obtain ⟨canonical, hcanonical, h⟩ := bind_ok.1 h
  rw [← Except.ok.inj h]
  exact orderedBy_canonicalizeRules hcanonical ho

/-! ### Runs of store operations -/

/-- How a store comes into being. -/
inductive StoreStart where
  | document (doc : PolicyDocument)
  | database (db : PolicyDb)

/-- `from_document`, or `load_from_db` on tables with an active policy. -/
def StoreStart.load (taxonomy : TaxonomyStore) : StoreStart → Except String (Option PolicyStore)
  | document doc => (PolicyStore.fromDocument doc taxonomy).map some
  | database db => PolicyStore.loadFromDb db taxonomy

/-- The condition on the start: a database it loads from is in order. -/
def StoreStart.InOrder : StoreStart → Prop
  | document _ => True
  | database db => db.ActiveInOrder

/-- The operations on a store in use. -/
inductive StoreOp where
  | update (doc : PolicyDocument)
  | updateFromRules (rules : List PolicyRule) (version : String) (policyId : Option Uuid)
  | reload (source : PolicySource)

/-- The condition on an operation: rules it takes over unsorted are given in order. -/
def StoreOp.InOrder : StoreOp → Prop
  | update _ => True
  | updateFromRules rules _ _ => OrderedBy priorityKey rules
  | reload (.file _) => True
  | reload (.database source) => source.tables.ActiveInOrder

/-- The store after an operation that may fail: a failed one leaves it as it was. -/
def PolicyEvaluator.withStore (ev : PolicyEvaluator) : Except String PolicyStore → PolicyEvaluator
  | .ok store => { ev with store }
  | .error _ => ev

/-- One operation. -/
def storeStep (ev : PolicyEvaluator) : StoreOp → Option PolicyEvaluator
  | .update doc => some (ev.withStore (ev.store.update doc))
  | .updateFromRules rules version policyId =>
    some (ev.withStore (ev.store.updateFromRules rules version policyId))
  | .reload source => some (ev.reload source).1

/-- A reload in database mode puts the rules of `DatabaseSource.tables` in force, or keeps those it
has. -/
lemma inOrder_reloadFromDb (hstore : store.InOrder) (htables : source.tables.ActiveInOrder)
    (h : store.reloadFromDb source = .ok store') : store'.InOrder := by
  obtain ⟨loaded, hloaded, h⟩ := bind_ok.1 h
  cases loaded with
  | some new =>
    -- a policy is active, so the tables are those found
    have hactive : source.db.activePolicy ≠ none := by
      intro hnone
      rw [PolicyStore.loadFromDb, hnone] at hloaded
      cases hloaded
    have hdb : source.tables = source.db := by
      unfold DatabaseSource.tables
      cases hp : source.db.activePolicy with
      | none => exact absurd hp hactive
      | some policy => rfl
    rw [hdb] at htables
    exact inOrder_updateFromRules (inOrder_loadFromDb htables hloaded) h
  | none =>
    have hactive : source.db.activePolicy = none := by
      rw [PolicyStore.loadFromDb] at hloaded
      cases hp : source.db.activePolicy with
      | none => rfl
      | some policy =>
        rw [hp] at hloaded
        obtain ⟨_, _, hl⟩ := bind_ok.1 hloaded
        obtain ⟨_, _, hl⟩ := bind_ok.1 hl
        cases hl
    cases hseed : source.seed with
    | none =>
      rw [hseed] at h
      rw [← Except.ok.inj h]
      exact hstore
    | some document =>
      rw [hseed] at h
      obtain ⟨doc, rfl, hseeded⟩ := bind_ok.1 h
      obtain ⟨reloaded, hreloaded, hnew⟩ := bind_ok.1 hseeded
      have hdb : source.tables = source.db.insertPolicyDocument doc "default" (some "system")
          source.seedId source.now := by
        simp only [DatabaseSource.tables, hactive, hseed]
      rw [hdb] at htables
      cases reloaded with
      | none =>
        rw [← Except.ok.inj hnew]
        exact hstore
      | some new => exact inOrder_updateFromRules (inOrder_loadFromDb htables hreloaded) hnew

/-- The step lemma: an operation that meets its condition leaves the rules in order. -/
lemma inOrder_storeStep (hev : ev.store.InOrder) (hop : op.InOrder) (h : storeStep ev op = some ev') :
    ev'.store.InOrder := by
  cases op with
  | update doc =>
    cases h
    cases hu : ev.store.update doc with
    | error err => exact hev
    | ok store => exact inOrder_update hu
  | updateFromRules rules version policyId =>
    cases h
    cases hu : ev.store.updateFromRules rules version policyId with
    | error err => exact hev
    | ok store => exact inOrder_updateFromRules hop hu
  | reload source =>
    cases h
    cases source with
    | file document =>
      simp only [PolicyEvaluator.reload]
      cases hu : document >>= ev.store.update with
      | error err => exact hev
      | ok store =>
        obtain ⟨doc, -, hu⟩ := bind_ok.1 hu
        exact inOrder_update hu
    | database source =>
      simp only [PolicyEvaluator.reload]
      cases hr : ev.store.reloadFromDb source with
      | error err => exact hev
      | ok store =>
        have hnew := inOrder_reloadFromDb hev hop hr
        cases source.activation <;> exact hnew

lemma inOrder_load {start : StoreStart} (hstart : start.InOrder)
    (h : start.load taxonomy = .ok (some store)) : store.InOrder := by
  cases start with
  | document doc =>
    simp only [StoreStart.load] at h
    cases hd : PolicyStore.fromDocument doc taxonomy with
    | error err =>
      rw [hd] at h
      cases h
    | ok store' =>
      rw [hd] at h
      obtain rfl := Option.some.inj (Except.ok.inj h)
      exact inOrder_fromDocument hd
  | database db => exact inOrder_loadFromDb hstart h

/-- **Evaluation by priority over whole runs.** A store that was loaded in order and on which every
operation meets its condition answers each request with a matching rule of least priority. -/
theorem picksLeast_of_run (start : StoreStart) (taxonomy : TaxonomyStore)
    (activation : ActivationProfile) (store : PolicyStore) (ops : List StoreOp)
    (ev : PolicyEvaluator) (hload : start.load taxonomy = .ok (some store))
    (hstart : start.InOrder)
    (hops : Guarded storeStep (fun _ op => op.InOrder) ⟨store, activation⟩ ops)
    (hrun : run storeStep ⟨store, activation⟩ ops = some ev) (request : DecisionRequest) :
    ev.store.PicksLeast request := by
  have hinv : ev.store.InOrder := hops.invariant (fun e => e.store.InOrder)
      (fun _ _ _ hev hop h => inOrder_storeStep hev hop h) (inOrder_load hstart hload) hrun
  exact hinv.picksLeast request

/-! ### Rules stored out of order -/

/-- Two rules without conditions, in the order an editor may send them: first an allow of priority
20, then a block of priority 10. -/
def sampleRulePayload : List Admin.PolicyRulePayload :=
  [{ id := some "allow-rest", description := none, priority := 20, action := "Allow",
     conditions := {} },
   { id := some "block-all", description := none, priority := 10, action := "Block",
     conditions := {} }]

/-- The rules the admin API makes of `sampleRulePayload`. -/
def sampleRules : List PolicyRule :=
  [{ id := "allow-rest", description := none, priority := 20, action := .allow, conditions := {} },
   { id := "block-all", description := none, priority := 10, action := .block, conditions := {} }]

/-- The tables after a policy with these rules was created and published. -/
def publishedDb (rules : List PolicyRule) : PolicyDb :=
  { policies := [{ id := 1, name := "default", version := "v1", status := "active",
                   createdBy := none, createdAt := 1 }]
    policyRules := rules.map (ruleToDbRow 1)
    policyVersions := [{ policyId := 1, version := "v1", status := "active", createdBy := none,
                         notes := none, rules := rules, createdAt := 1 }] }

/-- A request for a domain without hints. -/
def sampleRequest : DecisionRequest :=
  { normalizedKey := "domain:example.com", entityLevel := "Domain", sourceIp := "example.com",
    userId := none, groupIds := none }

/-- The store `load_from_db` builds from `publishedDb sampleRules`. -/
def sampleLoadedStore : PolicyStore :=
  { rules := sampleRules, version := "v1", policyId := some 1, taxonomy := sampleTaxonomyStore }

/-- The admin API accepts the two rules, the loader keeps their order, and the request is allowed
by the rule of priority 20 although the block has priority 10. -/
theorem snapshot_order_decides :
    Admin.acceptRules sampleTaxonomyStore [] sampleRulePayload = .ok sampleRules ∧
      (StoreStart.database (publishedDb sampleRules)).load sampleTaxonomyStore =
        .ok (some sampleLoadedStore) ∧
      ¬ sampleLoadedStore.PicksLeast sampleRequest := by
  refine ⟨by decide +kernel, rfl, ?_⟩
  intro h
  obtain ⟨best, hbest, -, hleast, haction⟩ := h.1 ⟨_, mem_cons_self, (by decide +kernel)⟩
  have hallow : (sampleLoadedStore.simulate sampleRequest).decision.action = .allow := by
    decide +kernel
  rw [hallow] at haction
  have hblock := hleast _ (mem_cons_of_mem _ mem_cons_self) (by decide +kernel)
  rcases mem_pair.1 hbest with rfl | rfl
  · exact absurd hblock (by decide)
  · exact absurd haction (by decide)

/-- A reload from tables whose snapshot lists the two rules in ascending priority. -/
def orderedReload : StoreOp :=
  .reload (.database
    { db := publishedDb sampleRules.reverse, activation := .ok (.allowAll 0), seed := none,
      seedId := 2, now := 2 })

/-- A store made from a document with the rules out of order, then reloaded from ordered tables. -/
theorem picksLeast_after_ordered_reload :
    ∃ store ev, (StoreStart.document ⟨"v0", sampleRules⟩).load sampleTaxonomyStore = .ok (some store) ∧
      run storeStep ⟨store, .allowAll 0⟩ [orderedReload] = some ev ∧
      ev.store.PicksLeast sampleRequest := by
  have horder : StoreOp.InOrder orderedReload := by
    intro policy hpolicy
    cases hpolicy
    decide +kernel
  refine ⟨_, _, rfl, rfl, ?_⟩
  exact picksLeast_of_run (.document ⟨"v0", sampleRules⟩) sampleTaxonomyStore (.allowAll 0) _
    [orderedReload] _ rfl trivial ⟨horder, fun _ _ => trivial⟩ rfl sampleRequest

end OpenDefender.Engine
