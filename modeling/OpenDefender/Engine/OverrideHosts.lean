import OpenDefender.Engine.Overrides

/-!
The override lookup host by host.

The scopes that govern a host are its label suffixes, and the longest one wins. So the lookup is known by what wins
for each scope host alone, `bestRecord`: `decisions_eq_iff` says that two tables decide every key alike exactly
when they agree on it for every scope host.
-/

namespace OpenDefender.Engine

open Lib Text FirstMatch List

/-- The record of a row. -/
def recordOf (row : OverrideRow) : OverrideRecord :=
  ⟨row.scopeValue, row.action⟩

variable (host : String) (records : List OverrideRecord)

/-- The record has the scope host. -/
def hasHost (record : OverrideRecord) : Bool :=
  normalizeScopeHost record.scopeValue = some host

lemma hasHost_iff {host : String} :
    hasHost host record = true ↔ normalizeScopeHost record.scopeValue = some host := by
  rw [hasHost, decide_eq_true_eq]

/-- The records with the scope host. -/
def hostRecords : List OverrideRecord :=
  records.filter (hasHost host)

/-- The record that wins among those with the scope host. -/
def bestRecord : Option OverrideRecord :=
  (hostRecords host records).argmax fun record => overrideActionRank record.action

/-- The record that wins for a host. -/
def winningRecord : Option OverrideRecord :=
  (records.filter fun record => domainScopeMatchesHost record.scopeValue host).argmax overrideOrder

variable {host scopeHost : String} {records records' : List OverrideRecord} {record : OverrideRecord}

lemma mem_hostRecords : record ∈ hostRecords scopeHost records ↔
    record ∈ records ∧ normalizeScopeHost record.scopeValue = some scopeHost := by
  rw [hostRecords, mem_filter, hasHost_iff]

lemma host_of_bestRecord (h : bestRecord scopeHost records = some record) :
    record ∈ records ∧ normalizeScopeHost record.scopeValue = some scopeHost := by
  rw [bestRecord] at h
  exact mem_hostRecords.1 (argmax_mem h)

lemma mem_of_winningRecord (h : winningRecord host records = some record) :
    record ∈ records ∧ domainScopeMatchesHost record.scopeValue host = true := by
  rw [winningRecord] at h
  have hmem := argmax_mem h
  rwa [mem_filter] at hmem

lemma domainScopeSpecificity_eq {scopeValue : String} (h : normalizeScopeHost scopeValue = some scopeHost) :
    domainScopeSpecificity scopeValue = scopeHost.utf8ByteSize := by
  unfold domainScopeSpecificity
  rw [h]

/-- A label suffix is a suffix. -/
lemma isSuffix_of_labelSuffix {a : String} (ha : IsLabelSuffix a host) : a.toList <:+ host.toList := by
  rcases ha with rfl | ha
  · exact suffix_rfl
  · obtain ⟨u, rfl⟩ := endsWith_iff.1 ha
    exact ⟨u.toList ++ ".".toList, by simp⟩

/-- What a text ends with is not longer, and is all of it if it is as long. -/
lemma size_of_isSuffix {a b : String} (h : a.toList <:+ b.toList) :
    a.utf8ByteSize ≤ b.utf8ByteSize ∧ (a.utf8ByteSize = b.utf8ByteSize → a = b) := by
  obtain ⟨u, hu⟩ := h
  obtain rfl : String.ofList u ++ a = b := String.toList_inj.1 (by simpa using hu)
  rw [String.utf8ByteSize_append]
  refine ⟨Nat.le_add_left _ _, fun hsize => ?_⟩
  have hzero : (String.ofList u).utf8ByteSize = 0 := by omega
  rw [String.utf8ByteSize_eq_zero_iff.1 hzero, String.empty_append]

/-- A label suffix is known by its length. -/
lemma labelSuffix_eq {a b : String} (ha : IsLabelSuffix a host) (hb : IsLabelSuffix b host)
    (hsize : a.utf8ByteSize = b.utf8ByteSize) : a = b := by
  rcases suffix_or_suffix_of_suffix (isSuffix_of_labelSuffix ha) (isSuffix_of_labelSuffix hb) with h | h
  · exact (size_of_isSuffix h).2 hsize
  · exact ((size_of_isSuffix h).2 hsize.symm).symm

/-- The winner for a host wins among the records with its own scope host. -/
lemma bestRecord_of_winningRecord (h : winningRecord host records = some record)
    (hscope : normalizeScopeHost record.scopeValue = some scopeHost) :
    bestRecord scopeHost records = some record := by
  obtain ⟨scopeHost', hscope', hsuffix⟩ := domainScopeMatchesHost_iff.1 (mem_of_winningRecord h).2
  obtain rfl := Option.some.inj (hscope'.symm.trans hscope)
  rw [winningRecord] at h
  have hfilter := argmax_filter h (hasHost_iff.2 hscope)
  -- all records with this scope host govern the host
  have hsame : (records.filter fun r => domainScopeMatchesHost r.scopeValue host).filter (hasHost scopeHost') =
      hostRecords scopeHost' records := by
    rw [filter_filter, hostRecords]
    refine filter_congr fun r _ => ?_
    by_cases hr : hasHost scopeHost' r = true
    · rw [domainScopeMatchesHost_iff.2 ⟨scopeHost', hasHost_iff.1 hr, hsuffix⟩, Bool.and_true]
    · rw [Bool.eq_false_iff.2 hr, Bool.false_and]
  rw [hsame] at hfilter
  rw [bestRecord, ← hfilter]
  refine argmax_congr fun a ha b hb => ?_
  rw [overrideOrder, overrideOrder, Prod.Lex.toLex_lt_toLex,
    domainScopeSpecificity_eq (mem_hostRecords.1 ha).2, domainScopeSpecificity_eq (mem_hostRecords.1 hb).2]
  simp

/-- Where a scope host has a record, the winner's scope host is not shorter. -/
lemma size_le_of_winningRecord (h : winningRecord host records = some record)
    (hscope : normalizeScopeHost record.scopeValue = some scopeHost) {other : OverrideRecord}
    (hother : other ∈ records) (hotherScope : normalizeScopeHost other.scopeValue = some otherHost)
    (hsuffix : IsLabelSuffix otherHost host) : otherHost.utf8ByteSize ≤ scopeHost.utf8ByteSize := by
  have hmem : other ∈ records.filter fun r => domainScopeMatchesHost r.scopeValue host :=
    mem_filter.2 ⟨hother, domainScopeMatchesHost_iff.2 ⟨otherHost, hotherScope, hsuffix⟩⟩
  rw [winningRecord] at h
  have hle := le_of_mem_argmax hmem h
  rw [overrideOrder, overrideOrder, Prod.Lex.toLex_le_toLex, domainScopeSpecificity_eq hscope,
    domainScopeSpecificity_eq hotherScope] at hle
  rcases hle with hlt | ⟨heq, -⟩
  · exact hlt.le
  · exact heq.le

/-- **The winner for a host** wins for its own scope host, which is the longest of those that govern the host. -/
lemma winningRecord_eq_some : winningRecord host records = some record ↔
    ∃ scopeHost, IsLabelSuffix scopeHost host ∧ bestRecord scopeHost records = some record ∧
      ∀ otherHost, IsLabelSuffix otherHost host → (bestRecord otherHost records).isSome = true →
        otherHost.utf8ByteSize ≤ scopeHost.utf8ByteSize := by
  constructor
  · intro h
    obtain ⟨scopeHost, hscope, hsuffix⟩ := domainScopeMatchesHost_iff.1 (mem_of_winningRecord h).2
    refine ⟨scopeHost, hsuffix, bestRecord_of_winningRecord h hscope, fun otherHost hother hsome => ?_⟩
    obtain ⟨other, hbest⟩ := Option.isSome_iff_exists.1 hsome
    obtain ⟨hmem, hotherScope⟩ := host_of_bestRecord hbest
    exact size_le_of_winningRecord h hscope hmem hotherScope hother
  · rintro ⟨scopeHost, hsuffix, hbest, hlongest⟩
    obtain ⟨hmem, hscope⟩ := host_of_bestRecord hbest
    have hgoverns : record ∈ records.filter fun r => domainScopeMatchesHost r.scopeValue host :=
      mem_filter.2 ⟨hmem, domainScopeMatchesHost_iff.2 ⟨scopeHost, hscope, hsuffix⟩⟩
    cases hwin : winningRecord host records with
    | none =>
      rw [winningRecord, argmax_eq_none] at hwin
      exact absurd hwin (ne_nil_of_mem hgoverns)
    | some winner =>
      obtain ⟨winnerHost, hwinner, hsuffix'⟩ := domainScopeMatchesHost_iff.1 (mem_of_winningRecord hwin).2
      have hbest' := bestRecord_of_winningRecord hwin hwinner
      have hle := hlongest winnerHost hsuffix' (Option.isSome_iff_exists.2 ⟨winner, hbest'⟩)
      have hge := size_le_of_winningRecord hwin hwinner hmem hscope hsuffix
      obtain rfl := labelSuffix_eq hsuffix' hsuffix (le_antisymm hle hge)
      exact hbest'.symm.trans hbest

/-- A record whose scope host is the host itself wins for it, if it wins among its like. -/
lemma winningRecord_of_bestRecord (h : bestRecord host records = some record) :
    winningRecord host records = some record :=
  winningRecord_eq_some.2 ⟨host, Or.inl rfl, h, fun _ hother _ =>
    (size_of_isSuffix (isSuffix_of_labelSuffix hother)).1⟩

/-- **Two lists that agree on each scope host** have the same winners. -/
theorem winningRecord_congr (h : ∀ scopeHost, bestRecord scopeHost records = bestRecord scopeHost records')
    (host : String) : winningRecord host records = winningRecord host records' :=
  Option.ext fun record => by simp only [winningRecord_eq_some, h]

/-! ### Decisions -/

/-- A row as the handlers store it, as far as the lookup reads it: the scope is not blank, the action is one of two, and
the scope's host is the host of a key. -/
structure Readable (row : OverrideRow) : Prop where
  scope : nonEmptyString row.scopeValue = some row.scopeValue
  action : row.action = "allow" ∨ row.action = "block"
  host : ∀ host, normalizeScopeHost row.scopeValue = some host → hostFromNormalizedKey ("domain:" ++ host) = some host

/-- The records the lookup reads. -/
def activeRecords (table : List OverrideRow) (now : ℕ) : List OverrideRecord :=
  (activeDomainOverrides table now).map recordOf

variable {table table' : List OverrideRow} {now : ℕ} {key : String}

lemma governing_of_readable {rows : List OverrideRow} (hread : ∀ row ∈ rows, Readable row) (host : String) :
    governing host rows =
      (rows.map recordOf).filter fun record => domainScopeMatchesHost record.scopeValue host := by
  unfold governing
  induction rows with
  | nil => rfl
  | cons row rows ih =>
    obtain ⟨hrow, hrows⟩ := forall_mem_cons.1 hread
    rw [filterMap_cons, map_cons, filter_cons, ih hrows, hrow.scope, Option.bind_some]
    by_cases hmatch : domainScopeMatchesHost row.scopeValue host = true
    · have hrecord : domainScopeMatchesHost (recordOf row).scopeValue host = true := hmatch
      rw [if_pos hmatch, if_pos hrecord]
      rfl
    · have hrecord : ¬domainScopeMatchesHost (recordOf row).scopeValue host = true := hmatch
      rw [if_neg hmatch, if_neg hrecord]

/-- The lookup of readable rows. -/
lemma resolveOverrideDecision_eq_some (hread : ∀ row ∈ activeDomainOverrides table now, Readable row)
    {decision : PolicyDecision} : resolveOverrideDecision table now key = some decision ↔
      ∃ host record action, hostFromNormalizedKey key = some host ∧
        winningRecord host (activeRecords table now) = some record ∧
        overrideActionOf record.action = some action ∧ overrideDecision record action = decision := by
  rw [resolveOverrideDecision_eq, Option.map_eq_some_iff]
  constructor
  · rintro ⟨⟨record, action⟩, hwin, rfl⟩
    obtain ⟨host, hhost, -, hmax, haction⟩ := overrideWinner_eq_some.1 hwin
    rw [governing_of_readable hread] at hmax
    exact ⟨host, record, action, hhost, hmax, haction, rfl⟩
  · rintro ⟨host, record, action, hhost, hmax, haction, rfl⟩
    refine ⟨(record, action), overrideWinner_eq_some.2 ⟨host, hhost, fun row hrow => ?_, ?_, haction⟩, rfl⟩
    · rw [(hread row hrow).scope]
      rfl
    · rw [governing_of_readable hread]
      exact hmax

/-- The decision tells the record. -/
lemma record_of_decision {r r' : OverrideRecord} (hr : r.action = "allow" ∨ r.action = "block")
    (hr' : r'.action = "allow" ∨ r'.action = "block") (ha : overrideActionOf r.action = some a)
    (ha' : overrideActionOf r'.action = some a') (h : overrideDecision r a = overrideDecision r' a') :
    r = r' := by
  obtain ⟨scopeValue, action⟩ := r
  obtain ⟨scopeValue', action'⟩ := r'
  rw [overrideDecision, overrideDecision] at h
  have haction : a = a' := congrArg PolicyDecision.action h
  have hscope : "domain:" ++ scopeValue = "domain:" ++ scopeValue' := by
    simpa using congrArg (fun d => d.verdict.map fun v => v.subcategory) h
  subst haction
  have hne : overrideActionOf "allow" ≠ overrideActionOf "block" := by decide +kernel
  have heq : overrideActionOf action = overrideActionOf action' := ha.trans ha'.symm
  have hsame : action = action' := by
    rcases hr with rfl | rfl <;> rcases hr' with rfl | rfl
    · rfl
    · exact absurd heq hne
    · exact absurd heq.symm hne
    · rfl
  rw [hsame, (String.append_right_inj _).1 hscope]

lemma readable_record (hread : ∀ row ∈ activeDomainOverrides table now, Readable row) {record : OverrideRecord}
    (h : record ∈ activeRecords table now) :
    (record.action = "allow" ∨ record.action = "block") ∧ ∀ host,
      normalizeScopeHost record.scopeValue = some host → hostFromNormalizedKey ("domain:" ++ host) = some host := by
  obtain ⟨row, hrow, rfl⟩ := mem_map.1 h
  exact ⟨(hread row hrow).action, (hread row hrow).host⟩

lemma overrideActionOf_isSome {action : String} (h : action = "allow" ∨ action = "block") :
    ∃ a, overrideActionOf action = some a := by
  rcases h with rfl | rfl
  · exact ⟨.allow, by decide +kernel⟩
  · exact ⟨.block, by decide +kernel⟩

/-- What wins for a scope host is seen in the decision on this host. -/
lemma bestRecord_of_decisions (hread : ∀ row ∈ activeDomainOverrides table now, Readable row)
    (hread' : ∀ row ∈ activeDomainOverrides table' now, Readable row)
    (h : ∀ key, resolveOverrideDecision table' now key = resolveOverrideDecision table now key)
    (hbest : bestRecord scopeHost (activeRecords table now) = some record) :
    bestRecord scopeHost (activeRecords table' now) = some record := by
  obtain ⟨hmem, hscope⟩ := host_of_bestRecord hbest
  obtain ⟨hchoice, hkey⟩ := readable_record hread hmem
  obtain ⟨action, haction⟩ := overrideActionOf_isSome hchoice
  have hdecision : resolveOverrideDecision table now ("domain:" ++ scopeHost) =
      some (overrideDecision record action) :=
    (resolveOverrideDecision_eq_some hread).2 ⟨scopeHost, record, action, hkey _ hscope,
      winningRecord_of_bestRecord hbest, haction, rfl⟩
  rw [← h] at hdecision
  obtain ⟨host, record', action', hhost, hwin', haction', hsame⟩ :=
    (resolveOverrideDecision_eq_some hread').1 hdecision
  obtain rfl : scopeHost = host := Option.some.inj ((hkey _ hscope).symm.trans hhost)
  obtain ⟨hchoice', -⟩ := readable_record hread' (mem_of_winningRecord hwin').1
  obtain rfl := record_of_decision hchoice' hchoice haction' haction hsame
  exact bestRecord_of_winningRecord hwin' hscope

/-- **Two tables decide every key alike** exactly when the same record wins for each scope host. -/
theorem decisions_eq_iff (hread : ∀ row ∈ activeDomainOverrides table now, Readable row)
    (hread' : ∀ row ∈ activeDomainOverrides table' now, Readable row) :
    (∀ key, resolveOverrideDecision table' now key = resolveOverrideDecision table now key) ↔
      ∀ scopeHost, bestRecord scopeHost (activeRecords table' now) =
        bestRecord scopeHost (activeRecords table now) := by
  constructor
  · intro h scopeHost
    cases hbest : bestRecord scopeHost (activeRecords table now) with
    | some record => exact bestRecord_of_decisions hread hread' h hbest
    | none =>
      cases hbest' : bestRecord scopeHost (activeRecords table' now) with
      | none => rfl
      | some record =>
        have := bestRecord_of_decisions hread' hread (fun key => (h key).symm) hbest'
        rw [hbest] at this
        cases this
  · intro h key
    refine Option.ext fun decision => ?_
    rw [resolveOverrideDecision_eq_some hread', resolveOverrideDecision_eq_some hread]
    simp only [winningRecord_congr h]

end OpenDefender.Engine
