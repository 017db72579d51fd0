import OpenDefender.Engine.Evaluator
import OpenDefender.Lib.Script

/-!
The calls of the engine that write policies, statement by statement: `insert_policy_document` and
`update_policy_document` of `services/policy-engine/src/store.rs`, `reload`, `create_policy` and `update_policy` of
`services/policy-engine/src/evaluator.rs`.

There is no transaction around the statements, rules are checked only when they are loaded again, and a reload replaces
the rules in memory before it loads the activation profile. So a call that fails has changed nothing only if it fails
before its first statement that changes something: `failed_call_spares_iff` says which statement that is.
-/

namespace OpenDefender.Engine

open Lib Script List

/-! ### Tables, memory and backend -/

/-- The policy tables, with the ids of the rows of `policy_rules`. -/
structure PolicyTables where
  policies : List PolicyRow
  policyRules : List (Uuid × PolicyRuleRow)
  policyVersions : List PolicyVersionRow

/-- The tables as the loaders read them. -/
def PolicyTables.db (tables : PolicyTables) : PolicyDb where
  policies := tables.policies
  policyRules := tables.policyRules.map Prod.snd
  policyVersions := tables.policyVersions

/-- What a call can change: the tables, and the rules, version, policy id and activation profile in memory. -/
structure EngineState where
  tables : PolicyTables
  evaluator : PolicyEvaluator

/-- The statements of a call. A document is inserted for a request or, by a reload, as a seed. -/
inductive PolicyStatement where
  | insertPolicy (seed : Bool)
  | insertRule (seed : Bool) (index : ℕ)
  | insertVersion (seed : Bool)
  | selectPolicy
  | updatePolicy
  | deleteRules
  | selectRules
  | load (seeded : Bool)
  deriving DecidableEq, Repr

/-- What a call finds outside the tables: the statements that fail, the clock of the database, new ids, the seed file
and the activation profile. -/
structure PolicyBackend where
  failing : PolicyStatement → Option String
  clock : PolicyStatement → ℕ
  policyId : Bool → Uuid
  ruleId : Bool → ℕ → Uuid
  seed : Option (Except String PolicyDocument)
  activation : Except String ActivationProfile

/-- `PolicyCreateRequest`. -/
structure Api.PolicyCreateRequest where
  name : String
  version : String
  createdBy : Option String
  rules : List PolicyRule
  deriving DecidableEq, Repr

/-- `PolicyUpdateRequest`. -/
structure Api.PolicyUpdateRequest where
  version : Option String
  status : Option String
  notes : Option String
  rules : Option (List PolicyRule)
  deriving DecidableEq, Repr

/-! ### The calls -/

/-- A script of the engine. -/
abbrev EngineScript (α : Type) : Type := Script EngineState String α

/-- A statement that writes a table. -/
def onTables (f : PolicyTables → PolicyTables) : EngineScript Unit :=
  write fun s => { s with tables := f s.tables }

/-- A step that reads the state and may find an error there. -/
def reading {α : Type} (f : EngineState → Except String α) : EngineScript α := fun s => (f s, s)

/-- A step that replaces what is in memory. -/
def onMemory (f : PolicyEvaluator → Except String PolicyEvaluator) : EngineScript Unit := fun s =>
  match f s.evaluator with
  | .ok evaluator => (.ok (), { s with evaluator })
  | .error err => (.error err, s)

namespace PolicyBackend

variable (b : PolicyBackend)

/-- A statement, or its error. -/
def statement {α : Type} (name : PolicyStatement) (m : EngineScript α) : EngineScript α := attempt (b.failing name) m

/-- The statement for a rule and its position. -/
def insertRule (seed : Bool) (policyId : Uuid) (entry : PolicyRule × ℕ) : EngineScript PUnit :=
  b.statement (.insertRule seed entry.2) (onTables fun t =>
    { t with policyRules := t.policyRules ++ [(b.ruleId seed entry.2, ruleToDbRow policyId entry.1)] })

variable (seed : Bool) (policyId : Uuid) (req : Api.PolicyUpdateRequest)

/-- The loop over the rules of a document. -/
def insertRules (rules : List PolicyRule) : EngineScript PUnit :=
  rules.zipIdx.forM (b.insertRule seed policyId)

/-- `record_policy_version`. -/
def recordPolicyVersion (version status : String) (rules : List PolicyRule)
    (createdBy notes : Option String) : EngineScript Unit :=
  b.statement (.insertVersion seed) (onTables fun t =>
    { t with policyVersions := t.policyVersions ++
        [{ policyId, version, status, createdBy, notes, rules, createdAt := b.clock (.insertVersion seed) }] })

/-- `insert_policy_document`, and `seed_db_from_document` with it. -/
def insertPolicyDocument (doc : PolicyDocument) (name : String) (createdBy : Option String) :
    EngineScript Uuid := do
  b.statement (.insertPolicy seed) (onTables fun t =>
    { t with policies := t.policies ++
        [{ id := b.policyId seed, name, version := doc.version, status := "active", createdBy,
           createdAt := b.clock (.insertPolicy seed) }] })
  b.insertRules seed (b.policyId seed) doc.rules
  b.recordPolicyVersion seed (b.policyId seed) doc.version "active" doc.rules createdBy none
  return b.policyId seed

/-- `PolicyStore::load_from_db`; an error of one of its queries is one of the whole. -/
def loadFromDb (seeded : Bool) : EngineScript (Option PolicyStore) :=
  b.statement (.load seeded) (reading fun s => PolicyStore.loadFromDb s.tables.db s.evaluator.store.taxonomy)

/-- The `update_from_rules` of a reload. -/
def replaceRules (loaded : Option PolicyStore) : EngineScript Unit :=
  onMemory fun evaluator => do
    let store ← evaluator.store.replaceRules loaded
    return { evaluator with store }

/-- The branch of `reload` for tables without an active policy. -/
def seedPolicies : EngineScript Unit :=
  match b.seed with
  | none => pure ()
  | some document => do
    let doc ← ofExcept document
    let _ ← b.insertPolicyDocument true doc "default" (some "system")
    let loaded ← b.loadFromDb true
    replaceRules loaded

/-- What a reload does with the policy it has found. -/
def takeRules : Option PolicyStore → EngineScript Unit
  | some new => replaceRules (some new)
  | none => b.seedPolicies

/-- `ActivationState::refresh_from_db`. -/
def refreshActivation : EngineScript Unit :=
  onMemory fun evaluator => do
    let loaded ← b.activation
    return { evaluator with activation := evaluator.activation.replaceIfNew loaded }

/-- `reload` in database mode. -/
def reload : EngineScript Unit := do
  let found ← b.loadFromDb false
  b.takeRules found
  b.refreshActivation

/-- The row of the policy to update. -/
def findPolicy (s : EngineState) : Except String PolicyRow :=
  match s.tables.policies.find? (·.id = policyId) with
  | some row => .ok row
  | none => .error "policy not found"

/-- The request names a version or a status. -/
def touchesPolicy : Bool := req.version.isSome || req.status.isSome

/-- `UPDATE policies SET version, status WHERE id`. -/
def setPolicy (record : PolicyRow) (t : PolicyTables) : PolicyTables :=
  { t with policies := t.policies.map fun row =>
      if row.id = policyId then
        { row with version := req.version.getD record.version, status := req.status.getD record.status }
      else row }

/-- `DELETE FROM policy_rules WHERE policy_id`. -/
def deleteRules (t : PolicyTables) : PolicyTables :=
  { t with policyRules := t.policyRules.filter fun row => row.2.policyId ≠ policyId }

/-- The second statement of `update_policy_document`. -/
def updateRow (record : PolicyRow) : EngineScript Unit :=
  if touchesPolicy req then b.statement .updatePolicy (onTables (setPolicy policyId req record)) else pure ()

/-- The rules of the new version: those of the request, put in the place of the old ones, or the old ones. -/
def updateRules : EngineScript (List PolicyRule) :=
  match req.rules with
  | some rules => do
    b.statement .deleteRules (onTables (deleteRules policyId))
    b.insertRules false policyId rules
    return rules
  | none => b.statement .selectRules (reading fun s => s.tables.db.loadPolicyRulesTable policyId)

/-- `update_policy_document`. -/
def updatePolicyDocument (actor : Option String) : EngineScript Unit := do
  let record ← b.statement .selectPolicy (reading (findPolicy policyId))
  b.updateRow policyId req record
  let rules ← b.updateRules policyId req
  b.recordPolicyVersion false policyId (req.version.getD record.version) (req.status.getD record.status) rules actor
    req.notes

end PolicyBackend

/-- `PolicySource`, with what a call finds there. -/
inductive EngineSource where
  | file (document : Except String PolicyDocument)
  | database (backend : PolicyBackend)

/-- The calls. -/
inductive EngineCall where
  | reload
  | create (req : Api.PolicyCreateRequest)
  | update (policyId : Uuid) (req : Api.PolicyUpdateRequest) (actor : String)

/-- `reload`, `create_policy` and `update_policy`. -/
def EngineCall.perform : EngineCall → EngineSource → EngineScript Unit
  | .reload, .file document => onMemory fun evaluator => do
    let doc ← document
    let store ← evaluator.store.update doc
    return { evaluator with store }
  | .reload, .database b => b.reload
  | .create _, .file _ => fail "database backend not configured"
  | .create req, .database b => do
    let _ ← b.insertPolicyDocument false { version := req.version, rules := req.rules } req.name req.createdBy
    b.reload
  | .update _ _ _, .file _ => fail "database backend not configured"
  | .update policyId req actor, .database b => do
    b.updatePolicyDocument policyId req (some actor)
    b.reload

/-! ### What is never undone -/

/-- What adding rows to the tables keeps; those of `policy_rules` have new ids. -/
structure Additive (b : PolicyBackend) (P : PolicyTables → Prop) : Prop where
  policy : ∀ t row, P t → P { t with policies := t.policies ++ [row] }
  rule : ∀ t seed i row, P t → P { t with policyRules := t.policyRules ++ [(b.ruleId seed i, row)] }
  version : ∀ t row, P t → P { t with policyVersions := t.policyVersions ++ [row] }

section Keeps

variable {b : PolicyBackend} {P : PolicyTables → Prop}

lemma keeps_reading {α : Type} {Q : EngineState → Prop} (f : EngineState → Except String α) : Keeps Q (reading f) :=
  fun _ hs => hs

lemma keeps_onMemory (f : PolicyEvaluator → Except String PolicyEvaluator) : Keeps (fun s => P s.tables) (onMemory f) := by
  intro s hs
  rw [onMemory]
  split <;> exact hs

variable (hP : Additive b P)

include hP

lemma Additive.insertRules (seed : Bool) (policyId : Uuid) (entries : List (PolicyRule × ℕ)) :
    Keeps (fun s => P s.tables) (entries.forM (b.insertRule seed policyId)) :=
  Keeps.forM (fun entry => Keeps.attempt (fun s hs => hP.rule s.tables seed entry.2 _ hs) _) _

lemma Additive.recordPolicyVersion (seed : Bool) (policyId : Uuid) (version status : String) (rules : List PolicyRule)
    (createdBy notes : Option String) :
    Keeps (fun s => P s.tables) (b.recordPolicyVersion seed policyId version status rules createdBy notes) :=
  Keeps.attempt (fun s hs => hP.version s.tables _ hs) _

lemma Additive.insertPolicyDocument (seed : Bool) (doc : PolicyDocument) (name : String) (createdBy : Option String) :
    Keeps (fun s => P s.tables) (b.insertPolicyDocument seed doc name createdBy) := by
  refine Keeps.bind (Keeps.attempt (fun s hs => hP.policy s.tables _ hs) _) fun _ => ?_
  refine (hP.insertRules seed _ _).bind fun _ => ?_
  exact (hP.recordPolicyVersion seed _ _ _ _ _ _).bind fun _ _ hs => hs

lemma Additive.reload : Keeps (fun s => P s.tables) b.reload := by
  refine (Keeps.attempt (keeps_reading _) _).bind fun found => ?_
  refine Keeps.bind ?_ fun _ => keeps_onMemory _
  cases found with
  | some new => exact keeps_onMemory _
  | none =>
    rw [PolicyBackend.takeRules, PolicyBackend.seedPolicies]
    cases b.seed with
    | none => exact fun _ hs => hs
    | some document =>
      refine Keeps.bind (fun _ hs => hs) fun doc => ?_
      refine (hP.insertPolicyDocument true doc _ _).bind fun _ => ?_
      exact (Keeps.attempt (keeps_reading _) _).bind fun _ => keeps_onMemory _

end Keeps

variable (b : PolicyBackend) (s : EngineState)

/-- Policies that stand in front. -/
lemma additive_policies (base : List PolicyRow) : Additive b fun t => base <+: t.policies :=
  ⟨fun _ _ h => h.trans (prefix_append _ _), fun _ _ _ _ h => h, fun _ _ h => h⟩

/-- Versions that stand in front. -/
lemma additive_versions (base : List PolicyVersionRow) : Additive b fun t => base <+: t.policyVersions :=
  ⟨fun _ _ h => h, fun _ _ _ _ h => h, fun _ _ h => h.trans (prefix_append _ _)⟩

/-- Rules that stand in front of those with new ids. -/
def RulesBefore (base : List (Uuid × PolicyRuleRow)) (t : PolicyTables) : Prop :=
  ∃ added, t.policyRules = base ++ added ∧ ∀ row ∈ added, ∃ seed i, row.1 = b.ruleId seed i

lemma additive_rules (base : List (Uuid × PolicyRuleRow)) : Additive b (RulesBefore b base) := by
  refine ⟨fun _ _ h => h, ?_, fun _ _ h => h⟩
  rintro t seed i row ⟨added, hadded, hids⟩
  refine ⟨added ++ [(b.ruleId seed i, row)], by rw [hadded, append_assoc], fun other hother => ?_⟩
  rcases mem_append.1 hother with hother | hother
  · exact hids other hother
  · obtain rfl := mem_singleton.1 hother
    exact ⟨seed, i, rfl⟩

/-! ### What a failed call spares -/

/-- The ids of new rules are not those of rules that are there. -/
def PolicyBackend.Fresh : Prop :=
  ∀ row ∈ s.tables.policyRules, ∀ seed i, row.1 ≠ b.ruleId seed i

/-- What a reload has found spares the state if it is what memory holds, or there is nothing and no seed is inserted. -/
def TakeSpared : Option PolicyStore → Prop
  | some new => ∀ store, s.evaluator.store.replaceRules (some new) = .ok store → store = s.evaluator.store
  | none => ∀ doc, b.seed = some (.ok doc) → (b.failing (.insertPolicy true)).isSome = true

/-- When a failed reload has changed nothing. -/
def ReloadSpared : Prop :=
  (b.failing (.load false)).isSome = true ∨ ∀ found,
    PolicyStore.loadFromDb s.tables.db s.evaluator.store.taxonomy = .ok found → TakeSpared b s found

/-- The statement after the deletion of the old rules. -/
def firstInsert (rules : List PolicyRule) : PolicyStatement :=
  if rules.isEmpty then .insertVersion false else .insertRule false 0

/-- The rules of an update are spared if the deletion fails, or has nothing to delete and the next statement fails; an
update without rules inserts a version only. -/
def RulesSpared (policyId : Uuid) : Option (List PolicyRule) → Prop
  | some rules => (b.failing .deleteRules).isSome = true ∨
      ((∀ row ∈ s.tables.policyRules, row.2.policyId ≠ policyId) ∧ (b.failing (firstInsert rules)).isSome = true)
  | none => (b.failing .selectRules).isSome = true ∨
      ∀ rules, s.tables.db.loadPolicyRulesTable policyId = .ok rules → (b.failing (.insertVersion false)).isSome = true

/-- The row of the policy is spared if the `UPDATE` is not made or changes nothing; if it fails, the rest is, too. -/
def RowSpared (policyId : Uuid) (req : Api.PolicyUpdateRequest) (record : PolicyRow) : Prop :=
  (PolicyBackend.touchesPolicy req = true ∧ (b.failing .updatePolicy).isSome = true) ∨
    ((PolicyBackend.touchesPolicy req = true → PolicyBackend.setPolicy policyId req record s.tables = s.tables) ∧
      RulesSpared b s policyId req.rules)

/-- When a failed update has changed nothing. -/
def UpdateSpared (policyId : Uuid) (req : Api.PolicyUpdateRequest) : Prop :=
  (b.failing .selectPolicy).isSome = true ∨ ∀ record,
    PolicyBackend.findPolicy policyId s = .ok record → RowSpared b s policyId req record

/-- When a failed call has changed nothing. -/
def EngineCall.Spared : EngineCall → EngineSource → Prop
  | _, .file _ => True
  | .reload, .database b => ReloadSpared b s
  | .create _, .database b => (b.failing (.insertPolicy false)).isSome = true
  | .update policyId req _, .database b => UpdateSpared b s policyId req

section Spared

variable {b : PolicyBackend} {s : EngineState} {α β : Type} {c : Prop}

/-- A statement that fails spares the state; for one that does not the rest decides. -/
lemma spared_statement (name : PolicyStatement) {m : EngineScript α} {f : α → EngineScript β}
    (h : b.failing name = none → SparedIff (m >>= f) s c) :
    SparedIff (b.statement name m >>= f) s ((b.failing name).isSome = true ∨ c) := by
  rw [PolicyBackend.statement]
  cases hname : b.failing name with
  | some err =>
    have hrun : attempt (some err) m s = (.error err, s) := rfl
    exact (SparedIff.of_error hrun).congr (by simp)
  | none => exact (h hname).congr (by simp)

/-- An error that is read spares the state; otherwise what is read decides. -/
lemma spared_reading {g : EngineState → Except String α} {f : α → EngineScript β} {c : α → Prop}
    (h : ∀ a, g s = .ok a → SparedIff (f a) s (c a)) : SparedIff (reading g >>= f) s (∀ a, g s = .ok a → c a) := by
  cases hread : g s with
  | error err =>
    have hrun : reading g s = (.error err, s) := by rw [reading, hread]
    exact (SparedIff.of_error hrun).congr (by simp)
  | ok a =>
    have hrun : reading g s = (.ok a, s) := by rw [reading, hread]
    exact (SparedIff.of_same hrun (h a hread)).congr (by simp)

/-- The error of a step in memory leaves the state as it is. -/
lemma spared_onMemory (g : PolicyEvaluator → Except String PolicyEvaluator) : SparedIff (onMemory g) s True := by
  intro e t hrun
  rw [onMemory] at hrun
  split at hrun
  · cases (Prod.mk.inj hrun).1
  · exact iff_of_true (Prod.mk.inj hrun).2.symm trivial

/-- A statement whose change is never undone spares the state only if it fails. -/
lemma spared_change {P : PolicyTables → Prop} (name : PolicyStatement) {g : PolicyTables → PolicyTables}
    {f : Unit → EngineScript β} (hdone : P (g s.tables)) (hnot : ¬P s.tables)
    (hf : Keeps (fun s => P s.tables) (f ())) :
    SparedIff (b.statement name (onTables g) >>= f) s ((b.failing name).isSome = true) := by
  have hrun : onTables g s = (.ok (), { s with tables := g s.tables }) := rfl
  exact (spared_statement name fun _ => SparedIff.of_change (P := fun s => P s.tables) hrun hdone hnot hf).congr
    (iff_of_eq (or_false _))

/-- A write that may change nothing; if it does change something, that is never undone. -/
lemma spared_write {P : PolicyTables → Prop} {g : PolicyTables → PolicyTables} {f : Unit → EngineScript β}
    (hdone : P (g s.tables)) (hnot : P s.tables → g s.tables = s.tables) (hf : Keeps (fun s => P s.tables) (f ()))
    (hnext : SparedIff (f ()) s c) : SparedIff (onTables g >>= f) s (g s.tables = s.tables ∧ c) := by
  have hrun : onTables g s = (.ok (), { s with tables := g s.tables }) := rfl
  by_cases hidle : g s.tables = s.tables
  · rw [hidle] at hrun
    exact (SparedIff.of_same hrun hnext).congr (by simp [hidle])
  · refine (SparedIff.of_change (P := fun s => P s.tables) hrun hdone (fun h => hidle (hnot h)) hf).congr ?_
    simp [hidle]

lemma not_prefix_of_longer {γ : Type} {l : List γ} {a : γ} : ¬l ++ [a] <+: l := by
  intro h
  have hlen := h.length_le
  rw [length_append, length_singleton] at hlen
  omega

lemma spared_insertPolicyDocument (seed : Bool) (doc : PolicyDocument) (name : String) (createdBy : Option String)
    {f : Uuid → EngineScript β} (hf : ∀ base id, Keeps (fun s : EngineState => base <+: s.tables.policies) (f id)) :
    SparedIff (b.insertPolicyDocument seed doc name createdBy >>= f) s
      ((b.failing (.insertPolicy seed)).isSome = true) := by
  rw [PolicyBackend.insertPolicyDocument, Script.bind_assoc]
  refine spared_change (P := fun t => s.tables.policies ++ [_] <+: t.policies) _ prefix_rfl not_prefix_of_longer
    (Keeps.bind ?_ (hf _))
  refine ((additive_policies b _).insertRules seed _ _).bind fun _ => ?_
  exact ((additive_policies b _).recordPolicyVersion seed _ _ _ _ _ _).bind fun _ _ hs => hs

/-- The last step of a reload fails after the rules are replaced. -/
lemma spared_replaceRules (new : PolicyStore) :
    SparedIff (PolicyBackend.replaceRules (some new) >>= fun _ => b.refreshActivation) s
      (∀ store, s.evaluator.store.replaceRules (some new) = .ok store → store = s.evaluator.store) := by
  cases hstore : s.evaluator.store.replaceRules (some new) with
  | error err =>
    have hrun : PolicyBackend.replaceRules (some new) s = (.error err, s) := by
      simp only [PolicyBackend.replaceRules, onMemory, hstore]
      rfl
    exact (SparedIff.of_error hrun).congr (by simp)
  | ok store =>
    have hrun : PolicyBackend.replaceRules (some new) s =
        (.ok (), { s with evaluator := { s.evaluator with store } }) := by
      simp only [PolicyBackend.replaceRules, onMemory, hstore]
      rfl
    intro e t herror
    rw [bind_of_ok hrun] at herror
    have hlast := (spared_onMemory _ e t herror).2 trivial
    rw [hlast]
    constructor
    · intro hsame store' hstore'
      rw [← Except.ok.inj hstore']
      exact congrArg (·.evaluator.store) hsame
    · intro h
      rw [h store rfl]

lemma spared_seedPolicies :
    SparedIff (b.seedPolicies >>= fun _ => b.refreshActivation) s (TakeSpared b s none) := by
  rw [PolicyBackend.seedPolicies, TakeSpared]
  cases b.seed with
  | none => exact (SparedIff.of_same rfl (spared_onMemory _)).congr (by simp)
  | some document =>
    cases document with
    | error err => exact (SparedIff.of_error rfl).congr (by simp)
    | ok doc =>
      refine SparedIff.congr ?_ (by simp : (b.failing (.insertPolicy true)).isSome = true ↔ _)
      rw [Script.bind_assoc]
      refine SparedIff.of_same rfl ?_
      rw [Script.bind_assoc]
      refine spared_insertPolicyDocument true doc _ _ fun base _ => ?_
      have hmemory : ∀ g, Keeps (fun s => base <+: s.tables.policies) (onMemory g) :=
        keeps_onMemory (P := fun t => base <+: t.policies)
      exact ((Keeps.attempt (keeps_reading _) _).bind fun _ => hmemory _).bind fun _ => hmemory _

/-- **A failed reload.** -/
lemma spared_reload : SparedIff b.reload s (ReloadSpared b s) := by
  refine spared_statement _ fun _ => spared_reading fun found _ => ?_
  cases found with
  | some new => exact spared_replaceRules new
  | none => exact spared_seedPolicies

/-! ### Updates -/

variable (policyId : Uuid) (version status : String) (createdBy notes : Option String)

lemma spared_recordPolicyVersion (rules : List PolicyRule) :
    SparedIff (b.recordPolicyVersion false policyId version status rules createdBy notes >>= fun _ => b.reload) s
      ((b.failing (.insertVersion false)).isSome = true) := by
  exact spared_change (P := fun t => s.tables.policyVersions ++ [_] <+: t.policyVersions) _ prefix_rfl
    not_prefix_of_longer (additive_versions b _).reload

/-- What comes after the old rules are deleted. -/
lemma spared_insertRules (rules : List PolicyRule) :
    SparedIff (b.insertRules false policyId rules >>= fun _ =>
        b.recordPolicyVersion false policyId version status rules createdBy notes >>= fun _ => b.reload) s
      ((b.failing (firstInsert rules)).isSome = true) := by
  cases rules with
  | nil => exact SparedIff.of_same rfl (spared_recordPolicyVersion policyId version status createdBy notes [])
  | cons rule rules =>
    have hadd := additive_rules b (s.tables.policyRules ++ [(b.ruleId false 0, ruleToDbRow policyId rule)])
    have hloop : b.insertRules false policyId (rule :: rules) =
        (b.insertRule false policyId (rule, 0) >>= fun _ =>
          (rules.zipIdx 1).forM (b.insertRule false policyId)) := rfl
    rw [hloop, Script.bind_assoc]
    refine spared_change (P := RulesBefore b _) _ ⟨[], (append_nil _).symm, by simp⟩ ?_ ?_
    · rintro ⟨added, hadded, -⟩
      have hlen := congrArg List.length hadded
      rw [length_append, length_append, length_singleton] at hlen
      omega
    · refine (hadd.insertRules false _ _).bind fun _ => ?_
      exact (hadd.recordPolicyVersion false _ _ _ _ _ _).bind fun _ => hadd.reload

lemma deleteRules_eq_self {policyId : Uuid} :
    PolicyBackend.deleteRules policyId t = t ↔ ∀ row ∈ t.policyRules, row.2.policyId ≠ policyId := by
  constructor
  · intro h row hrow
    rw [← h] at hrow
    exact of_decide_eq_true (mem_filter.1 hrow).2
  · intro h
    rw [PolicyBackend.deleteRules, filter_eq_self.2 fun row hrow => decide_eq_true (h row hrow)]

/-- A deleted row does not come back, since new rows have other ids. -/
lemma deleteRules_of_before (hfresh : b.Fresh s) {policyId : Uuid}
    (h : RulesBefore b (PolicyBackend.deleteRules policyId s.tables).policyRules s.tables) :
    PolicyBackend.deleteRules policyId s.tables = s.tables := by
  obtain ⟨added, hadded, hids⟩ := h
  have hnone : added = [] := by
    refine eq_nil_iff_forall_not_mem.2 fun row hrow => ?_
    obtain ⟨seed, i, hid⟩ := hids row hrow
    exact hfresh row (hadded ▸ mem_append_right _ hrow) seed i hid
  rw [hnone, append_nil] at hadded
  refine deleteRules_eq_self.2 fun row hrow => ?_
  rw [hadded] at hrow
  exact of_decide_eq_true (mem_filter.1 hrow).2

lemma setPolicy_of_before {policyId : Uuid} {req : Api.PolicyUpdateRequest} {record : PolicyRow} {t : PolicyTables}
    (h : (PolicyBackend.setPolicy policyId req record t).policies <+: t.policies) :
    PolicyBackend.setPolicy policyId req record t = t := by
  have hsame := h.eq_of_length (length_map _)
  exact congrArg (fun policies => { t with policies }) hsame

lemma spared_updateRules (hfresh : b.Fresh s) (req : Api.PolicyUpdateRequest) :
    SparedIff (b.updateRules policyId req >>= fun rules =>
        b.recordPolicyVersion false policyId version status rules createdBy notes >>= fun _ => b.reload) s
      (RulesSpared b s policyId req.rules) := by
  rw [PolicyBackend.updateRules]
  cases req.rules with
  | none =>
    refine spared_statement _ fun _ => spared_reading fun rules _ => ?_
    exact spared_recordPolicyVersion policyId version status createdBy notes rules
  | some rules =>
    have hadd := additive_rules b (PolicyBackend.deleteRules policyId s.tables).policyRules
    dsimp only
    rw [Script.bind_assoc]
    refine spared_statement _ fun _ => ?_
    refine (spared_write (P := RulesBefore b (PolicyBackend.deleteRules policyId s.tables).policyRules)
      ⟨[], (append_nil _).symm, by simp⟩ (deleteRules_of_before hfresh) ?_ ?_).congr
      (and_congr_left' deleteRules_eq_self)
    · refine Keeps.bind ((hadd.insertRules false _ _).bind fun _ _ hs => hs) fun rules => ?_
      exact (hadd.recordPolicyVersion false _ _ _ _ _ _).bind fun _ => hadd.reload
    · rw [Script.bind_assoc]
      exact spared_insertRules policyId version status createdBy notes rules

/-- What comes after the row of the policy is set leaves the policies that are there in front. -/
lemma keeps_policies (req : Api.PolicyUpdateRequest) (base : List PolicyRow) :
    Keeps (fun s => base <+: s.tables.policies) (b.updateRules policyId req >>= fun rules =>
      b.recordPolicyVersion false policyId version status rules createdBy notes >>= fun _ => b.reload) := by
  have hadd := additive_policies b base
  refine Keeps.bind ?_ fun rules => (hadd.recordPolicyVersion false _ _ _ _ _ _).bind fun _ => hadd.reload
  rw [PolicyBackend.updateRules]
  cases req.rules with
  | none => exact Keeps.attempt (keeps_reading _) _
  | some rules =>
    refine Keeps.bind (Keeps.attempt (fun _ hs => hs) _) fun _ => ?_
    exact (hadd.insertRules false _ _).bind fun _ _ hs => hs

/-- **A failed update.** -/
lemma spared_update (hfresh : b.Fresh s) (req : Api.PolicyUpdateRequest) (actor : Option String) :
    SparedIff (b.updatePolicyDocument policyId req actor >>= fun _ => b.reload) s (UpdateSpared b s policyId req) := by
  rw [PolicyBackend.updatePolicyDocument, Script.bind_assoc]
  refine spared_statement _ fun _ => spared_reading fun record _ => ?_
  have hrules := spared_updateRules policyId (req.version.getD record.version) (req.status.getD record.status) actor
    req.notes hfresh req
  rw [Script.bind_assoc, PolicyBackend.updateRow, RowSpared]
  cases htouches : PolicyBackend.touchesPolicy req with
  | false =>
    refine (SparedIff.of_same rfl ?_).congr (by simp : RulesSpared b s policyId req.rules ↔ _)
    rw [Script.bind_assoc]
    exact hrules
  | true =>
    refine SparedIff.congr (c := (b.failing .updatePolicy).isSome = true ∨
      (PolicyBackend.setPolicy policyId req record s.tables = s.tables ∧ RulesSpared b s policyId req.rules))
      (spared_statement .updatePolicy fun _ => ?_) (by simp)
    refine spared_write (P := fun t => (PolicyBackend.setPolicy policyId req record s.tables).policies <+: t.policies)
      prefix_rfl setPolicy_of_before ?_ ?_
    · rw [Script.bind_assoc]
      exact keeps_policies policyId _ _ actor req.notes req _
    · rw [Script.bind_assoc]
      exact hrules

end Spared

/-- **A failed call** leaves the tables and the memory of the engine as they were exactly if it fails before its first
statement that changes something. -/
theorem failed_call_spares_iff (call : EngineCall) (source : EngineSource) (s : EngineState)
    (hfresh : ∀ b, source = .database b → b.Fresh s) {err : String} {s' : EngineState}
    (h : call.perform source s = (.error err, s')) : s' = s ↔ call.Spared s source := by
  cases source with
  | file document =>
    refine iff_of_true ?_ (by cases call <;> trivial)
    cases call with
    | reload =>
      rw [EngineCall.perform] at h
      exact (spared_onMemory _ err s' h).2 trivial
    | create req => exact (Prod.mk.inj h).2.symm
    | update policyId req actor => exact (Prod.mk.inj h).2.symm
  | database b =>
    cases call with
    | reload => exact spared_reload err s' h
    | create req =>
      exact spared_insertPolicyDocument false _ _ _ (fun base _ => (additive_policies b base).reload) err s' h
    | update policyId req actor => exact spared_update policyId (hfresh b rfl) req (some actor) err s' h

/-- An engine with an active policy of one rule that is not in memory yet. -/
def sampleEngine : EngineState where
  tables :=
    { policies := [{ id := 1, name := "base", version := "v1", status := "active", createdBy := none, createdAt := 1 }]
      policyRules := [(10, { policyId := 1, priority := 5, action := "Block", description := none, conditions := {} })]
      policyVersions := [] }
  evaluator :=
    { store := { rules := [], version := "v0", policyId := none, taxonomy := sampleTaxonomyStore }
      activation := ActivationProfile.allowAll 0 }

/-- A backend with failing statements. -/
def sampleBackend (failing : PolicyStatement → Option String) (activation : Except String ActivationProfile) :
    PolicyBackend where
  failing := failing
  clock := fun _ => 2
  policyId := fun seed => if seed then 3 else 2
  ruleId := fun seed i => if seed then 2 * i + 21 else 2 * i + 20
  seed := none
  activation := activation

/-- A policy with a rule on a category that does not exist. -/
def invalidPolicy : Api.PolicyCreateRequest where
  name := "next"
  version := "v2"
  createdBy := none
  rules := [{ id := "r1", description := none, priority := 1, action := .block, conditions := { categories := some [""] } }]

/-- An update that puts no rules in the place of the old ones. -/
def clearingUpdate : Api.PolicyUpdateRequest where
  version := none
  status := none
  notes := none
  rules := some []

/-- An update that sets the version to what it is. -/
def idleUpdate : Api.PolicyUpdateRequest where
  version := some "v1"
  status := none
  notes := none
  rules := none

/-- The version is set to what it is, and then the rules cannot be read. -/
theorem failed_update_spares :
    ∃ err s', (EngineCall.update 1 idleUpdate "admin").perform (.database (sampleBackend
      (fun statement => if statement = .selectRules then some "timeout" else none) (.error "timeout"))) sampleEngine =
        (.error err, s') ∧ s' = sampleEngine := by
  obtain ⟨err, s', hrun⟩ : ∃ err s', (EngineCall.update 1 idleUpdate "admin").perform (.database (sampleBackend
      (fun statement => if statement = .selectRules then some "timeout" else none) (.error "timeout"))) sampleEngine =
        (.error err, s') := ⟨_, _, rfl⟩
  refine ⟨err, s', hrun, (failed_call_spares_iff _ _ sampleEngine ?_ hrun).2 ?_⟩
  · intro b hb row hrow seed i
    obtain rfl := EngineSource.database.inj hb
    obtain rfl := mem_singleton.1 hrow
    cases seed with
    | false => exact (by omega : (10 : ℕ) ≠ 2 * i + 20)
    | true => exact (by omega : (10 : ℕ) ≠ 2 * i + 21)
  · refine Or.inr fun record hrecord => Or.inr ⟨fun _ => ?_, Or.inl rfl⟩
    cases hrecord
    rfl

/-- Calls that fail and have changed something: a policy with an invalid category is there all the same, an update has
deleted the rules before its version fails, a reload has replaced the rules before the activation profile fails. -/
theorem failed_calls_change :
    let create := (EngineCall.create invalidPolicy).perform
      (.database (sampleBackend (fun _ => none) (.error "timeout"))) sampleEngine
    let update := (EngineCall.update 1 clearingUpdate "admin").perform (.database (sampleBackend
      (fun statement => if statement = .insertVersion false then some "timeout" else none) (.error "timeout"))) sampleEngine
    let reload := EngineCall.reload.perform (.database (sampleBackend (fun _ => none) (.error "timeout"))) sampleEngine
    (create.1.toOption = none ∧ create.2.tables.policies.map (·.id) = [1, 2]) ∧
      (update.1.toOption = none ∧ update.2.tables.policyRules = []) ∧
      (reload.1.toOption = none ∧ reload.2.evaluator.store.version = "v1" ∧ reload.2.evaluator.store.rules.length = 1) := by
  decide +kernel

end OpenDefender.Engine
