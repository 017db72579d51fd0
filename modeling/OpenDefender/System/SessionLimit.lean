import OpenDefender.Admin.LocalAuth
import OpenDefender.Lib.Table
import OpenDefender.System.LocalSessions

/-!
The sessions of a user when one of them is rotated.

A rotation inserts the new session, revokes what comes after the limit, the newest sessions first, and
only then revokes the session it replaces (`rotateRefreshToken_eq`). While the user has room for one more
session nothing else is revoked. At the limit the oldest session goes: `rotation_keeps_sessions_iff`.
`sessions_within_limit` is about calls that overlap.
-/

namespace OpenDefender.System.SessionLimit

open Lib Table Ranking Admin Lib.Outcome List

/-- The other live sessions of the user are still live, and their number is the same. -/
def KeepsSessions (before after : AuthDb) (userId : Uuid) (now : ℕ) (rotated : RefreshToken) : Prop :=
  (∀ other ∈ before.sessions userId now, other ≠ rotated → other ∈ after.sessions userId now) ∧
    (after.sessions userId now).length = (before.sessions userId now).length

/-- The clock does not run backwards, and no session of the user, old or new, expires during the call. -/
structure Steady (service : LocalService) (db : AuthDb) (userId : Uuid) (times : Times) : Prop where
  enforce : times.select ≤ times.enforce
  finish : times.enforce ≤ times.finish
  old : ∀ token ∈ db.sessions userId times.select, times.finish < token.expiresAt
  new : times.finish < times.issue + max service.auth.refreshTtlSeconds 600 * second

/-! ### The statements -/

section Statements

variable {db : AuthDb} {userId : Uuid} {now : ℕ}

lemma mem_sessions : token ∈ db.sessions userId now ↔
      token ∈ db.refreshTokens ∧ token.userId = userId ∧ token.Live now := by
  simp [AuthDb.sessions]

/-- Rows that are revoked are not sessions any more. -/
lemma sessions_map {q : RefreshToken → Prop} [DecidablePred q]
    (hrevoked : ∀ token, q token → (f token).revokedAt ≠ none)
    (hother : ∀ token, ¬ q token → f token = token) :
    AuthDb.sessions { db with refreshTokens := db.refreshTokens.map f } userId now =
      (db.sessions userId now).filter fun token => !decide (q token) := by
  have hdead : ∀ token, q token → ¬ ((f token).userId = userId ∧ (f token).Live now) :=
    fun token hq hlive => hrevoked token hq hlive.2.1
  refine filter_map_of_take_out (fun token _ => ?_) fun token _ hlive => hother token fun hq => ?_
  · by_cases hq : q token
    · rw [decide_eq_false (hdead token hq), decide_eq_true hq, Bool.not_true, Bool.and_false]
    · rw [hother token hq, decide_eq_false hq, Bool.not_false, Bool.and_true]
  · exact hdead token hq (of_decide_eq_true hlive)

lemma sessions_revoke (id : Uuid) (time : ℕ) (reason : String) (replacedById : Option Uuid) :
    (db.revoke id time reason replacedById).sessions userId now =
      (db.sessions userId now).filter fun token => !decide (token.id = id) := by
  refine sessions_map (fun token hid => ?_) fun token hid => if_neg hid
  rw [if_pos hid]
  exact Option.some_ne_none time

/-- The sessions after the limit. -/
def excess (db : AuthDb) (ranking : Ranking RefreshToken.createdAt) (limit : ℕ) (userId : Uuid)
    (now : ℕ) : List RefreshToken :=
  (ranking.ranked (db.sessions userId now)).drop (max limit 1)

lemma sessions_enforceRefreshSessionLimit (ranking : Ranking RefreshToken.createdAt) (limit time : ℕ) :
    (db.enforceRefreshSessionLimit ranking limit userId time).sessions userId now =
      (db.sessions userId now).filter fun token =>
        !decide (token.id ∈ (excess db ranking limit userId time).map (·.id)) := by
  refine sessions_map (fun token hid => ?_) fun token hid => if_neg fun h => hid h.1
  by_cases hrevoked : token.revokedAt = none
  · rw [if_pos ⟨hid, hrevoked⟩]
    exact Option.some_ne_none time
  · rw [if_neg fun h => hrevoked h.2]
    exact hrevoked

/-- The query for a token finds one exactly if there is one. -/
lemma exists_replacementId (h : tokenHash ∈ db.refreshTokens.map (·.tokenHash)) :
    ∃ id, db.replacementId tokenHash = .ok id := by
  obtain ⟨token, htoken, hhash⟩ := mem_map.1 h
  obtain ⟨found, hfound⟩ := Option.isSome_iff_exists.1
    (find?_isSome (p := fun token => token.tokenHash = tokenHash).2
      ⟨token, htoken, decide_eq_true hhash⟩)
  exact ⟨found.id, by rw [AuthDb.replacementId, hfound]⟩

lemma hashes_enforceRefreshSessionLimit (ranking : Ranking RefreshToken.createdAt) (limit time : ℕ) :
    (db.enforceRefreshSessionLimit ranking limit userId time).refreshTokens.map (·.tokenHash) =
      db.refreshTokens.map (·.tokenHash) := by
  refine map_key_map (fun token => ?_) db.refreshTokens
  split <;> rfl

end Statements

/-! ### A rotation -/

section Rotation

variable {service : LocalService} {db : AuthDb} {token : String} {draw : Draw} {times : Times}
  {row : RefreshToken}

/-- What a rotation does, whatever the ranking, once it ends well for one. -/
lemma rotateRefreshToken_eq
    (hrow : db.findLive (service.hashRefreshToken token) times.select = some row)
    (hok : (service.rotateRefreshToken ranking db token draw times).2 = .ok pair) :
    ∃ version inserted, db.insertRefreshToken
        (service.newRow row.userId version draw times.issue times.insert) = .ok inserted ∧
      ∀ ranking, ∃ replacementId, service.rotateRefreshToken ranking db token draw times =
          ((inserted.enforceRefreshSessionLimit ranking service.auth.refreshMaxSessions row.userId
            times.enforce).revoke row.id times.finish "rotated" (some replacementId), .ok pair) := by
  obtain ⟨row', user, issued, _, hrow', huser, hversion, hissued, -, -, rfl⟩ :=
    rotateRefreshToken_ok (Prod.ext rfl hok)
  obtain rfl := Option.some.inj (hrow.symm.trans hrow')
  obtain ⟨version, inserted, hcurrent, hinserted, rfl⟩ := issueRefreshToken_ok.1 hissued
  refine ⟨version, inserted, hinserted, fun ranking' => ?_⟩
  let enforced := inserted.enforceRefreshSessionLimit ranking' service.auth.refreshMaxSessions
    row.userId times.enforce
  have hissued' : service.issueRefreshToken ranking' db row.userId draw times = .ok enforced :=
    issueRefreshToken_ok.2 ⟨version, inserted, hcurrent, hinserted, rfl⟩
  have hhash : service.hashRefreshToken draw.token ∈ enforced.refreshTokens.map (·.tokenHash) := by
    obtain ⟨-, -, -, rfl⟩ := insertRefreshToken_ok.1 hinserted
    rw [hashes_enforceRefreshSessionLimit, map_append]
    exact mem_append_right _ mem_cons_self
  obtain ⟨replacementId, hreplacement⟩ := exists_replacementId hhash
  refine ⟨replacementId, ?_⟩
  simp only [LocalService.rotateRefreshToken, hrow, huser, if_neg (not_not.2 hversion), hissued',
    hreplacement, enforced]

/-- Sessions that do not expire are the same all the time. -/
lemma sessions_eq (hsteady : Steady service db userId times) (hle : times.select ≤ now)
    (hle' : now ≤ times.finish) : db.sessions userId now = db.sessions userId times.select := by
  refine filter_congr fun token htoken => decide_eq_decide.2 (and_congr_right fun huser => ?_)
  constructor
  · exact fun hlive => ⟨hlive.1, hle.trans_lt hlive.2⟩
  · intro hlive
    have hexpires := hsteady.old token (mem_sessions.2 ⟨htoken, huser, hlive⟩)
    exact ⟨hlive.1, hle'.trans_lt hexpires⟩

/-- The new session joins the others. -/
lemma sessions_insert (hinserted : db.insertRefreshToken new = .ok inserted) (hlive : new.Live now) :
    inserted.sessions new.userId now = db.sessions new.userId now ++ [new] := by
  obtain ⟨-, -, -, rfl⟩ := insertRefreshToken_ok.1 hinserted
  rw [AuthDb.sessions, filter_append, filter_singleton, decide_eq_true ⟨rfl, hlive⟩]
  rfl

/-- What is left of the sessions. -/
lemma sessions_after (hids : Unique RefreshToken.id db.refreshTokens)
    (hinserted : db.insertRefreshToken new = .ok inserted) (hnew : new.userId = userId)
    (hlive : new.Live times.finish) (hsteady : Steady service db userId times)
    (hrow : row ∈ db.sessions userId times.select) (ranking : Ranking RefreshToken.createdAt)
    (limit : ℕ) :
    ((inserted.enforceRefreshSessionLimit ranking limit userId times.enforce).revoke row.id
        times.finish "rotated" (some replacementId)).sessions userId times.finish =
      remaining (db.sessions userId times.select)
        ((ranking.ranked (db.sessions userId times.select ++ [new])).drop (max limit 1)) row new := by
  subst hnew
  have hjoin {now : ℕ} (hle : times.select ≤ now) (hle' : now ≤ times.finish) :
      inserted.sessions new.userId now = db.sessions new.userId times.select ++ [new] := by
    rw [sessions_insert hinserted ⟨hlive.1, hle'.trans_lt hlive.2⟩, sessions_eq hsteady hle hle']
  obtain ⟨hid, -, -, -⟩ := insertRefreshToken_ok.1 hinserted
  have hunique : Unique RefreshToken.id (db.sessions new.userId times.select ++ [new]) :=
    (hids.filter _).concat fun hmem => hid (map_subset _ (filter_subset_self _) hmem)
  rw [sessions_revoke, sessions_enforceRefreshSessionLimit,
    hjoin (hsteady.enforce.trans hsteady.finish) le_rfl, excess,
    hjoin hsteady.enforce hsteady.finish, filter_filter, remaining]
  refine filter_congr fun token htoken => ?_
  -- by their ids the rows are known
  have hrowId : token.id = row.id ↔ token = row :=
    ⟨hunique.eq htoken (mem_append_left _ hrow), fun heq => heq ▸ rfl⟩
  have hexcessId : token.id ∈ ((ranking.ranked (db.sessions new.userId times.select ++ [new])).drop
      (max limit 1)).map (·.id) ↔
      token ∈ (ranking.ranked (db.sessions new.userId times.select ++ [new])).drop (max limit 1) := by
    constructor
    · intro hmem
      obtain ⟨other, hother, hsame⟩ := mem_map.1 hmem
      have hmem := (ranking.perm _).mem_iff.1 (mem_of_mem_drop hother)
      exact hunique.eq hmem htoken hsame ▸ hother
    · exact fun hmem => mem_map_of_mem hmem
  simp only [hrowId, hexcessId, Bool.decide_and, decide_not, ne_eq]
  exact Bool.and_comm _ _

end Rotation

/-- **Rotating a session keeps the others**, whatever the ranking of sessions created at the same time,
exactly when the user is below the limit, or the session that is rotated is the oldest one. -/
theorem rotation_keeps_sessions_iff (service : LocalService) (db : AuthDb)
    (hids : Unique RefreshToken.id db.refreshTokens) (token : String) (draw : Draw) (times : Times)
    (row : RefreshToken)
    (hrow : db.findLive (service.hashRefreshToken token) times.select = some row)
    (hsteady : Steady service db row.userId times)
    (hlimit : (db.sessions row.userId times.select).length ≤ max service.auth.refreshMaxSessions 1)
    (ranking : Ranking RefreshToken.createdAt) (pair : LocalTokenClaims × String)
    (hok : (service.rotateRefreshToken ranking db token draw times).2 = .ok pair) :
    (∀ ranking, KeepsSessions db (service.rotateRefreshToken ranking db token draw times).1
        row.userId times.finish row) ↔
      (db.sessions row.userId times.select).length < max service.auth.refreshMaxSessions 1 ∨
        (row.createdAt < times.insert ∧ ∀ other ∈ db.sessions row.userId times.select, other ≠ row →
            row.createdAt < other.createdAt) := by
  obtain ⟨hmem, -, hlive⟩ := findLive_some hrow
  have hsession : row ∈ db.sessions row.userId times.select := mem_sessions.2 ⟨hmem, rfl, hlive⟩
  obtain ⟨version, inserted, hinserted, hrotate⟩ := rotateRefreshToken_eq hrow hok
  let new := service.newRow row.userId version draw times.issue times.insert
  obtain ⟨hid, -, -, -⟩ := insertRefreshToken_ok.1 hinserted
  have hnot : new ∉ db.refreshTokens := fun h => hid (mem_map_of_mem h)
  have hnodup : (db.sessions row.userId times.select ++ [new]).Nodup := by
    refine (hids.nodup.filter _).append (nodup_singleton new) fun x hx hnew => ?_
    rw [mem_singleton.1 hnew] at hx
    exact hnot (mem_of_mem_filter hx)
  have hkeeps (R : Ranking RefreshToken.createdAt) :
      KeepsSessions db (service.rotateRefreshToken R db token draw times).1 row.userId times.finish
        row ↔
      Replaced (db.sessions row.userId times.select)
        ((R.ranked (db.sessions row.userId times.select ++ [new])).drop
          (max service.auth.refreshMaxSessions 1)) row new := by
    obtain ⟨replacementId, hresult⟩ := hrotate R
    have hafter : (service.rotateRefreshToken R db token draw times).1.sessions row.userId
        times.finish = remaining (db.sessions row.userId times.select)
          ((R.ranked (db.sessions row.userId times.select ++ [new])).drop
            (max service.auth.refreshMaxSessions 1)) row new := by
      rw [hresult]
      exact sessions_after hids hinserted rfl ⟨rfl, hsteady.new⟩ hsteady hsession R _
    rw [KeepsSessions, Replaced, hafter,
      sessions_eq hsteady (hsteady.enforce.trans hsteady.finish) le_rfl]
  simp only [hkeeps]
  rw [replaced_iff hnodup hsession hlimit]
  refine or_congr_right ⟨fun hmin => ⟨?_, fun other hother => ?_⟩, fun h other hother hne => ?_⟩
  · refine hmin new (mem_append_right _ mem_cons_self) ?_
    rintro heq
    exact hnot (heq ▸ hmem)
  · exact hmin other (mem_append_left _ hother)
  · obtain hother | hother := mem_append.1 hother
    · exact h.2 other hother hne
    · rw [mem_singleton.1 hother]
      exact h.1

/-- A service with room for two sessions. -/
def twoSessionService : LocalService :=
  { plainService with auth := { plainService.auth with refreshMaxSessions := 2 } }

/-- A user with two sessions. -/
def twoSessionsDb : AuthDb := plainDb [plainSession 11 "old" 1, plainSession 12 "recent" 2]

/-- Rotating the recent one of two sessions ends the old one as well. -/
theorem rotation_loses_session : (twoSessionsDb.sessions 1 3).map (·.tokenHash) = ["old", "recent"] ∧
      (twoSessionService.rotateRefreshToken plainRanking twoSessionsDb "recent"
        { id := 13, token := "new" } (.atOnce 3)).2.toOption.map (·.2) = some "new" ∧
      ((twoSessionService.rotateRefreshToken plainRanking twoSessionsDb "recent"
        { id := 13, token := "new" } (.atOnce 3)).1.sessions 1 3).map (·.tokenHash) = ["new"] := by
  refine ⟨?_, ?_, ?_⟩ <;> decide +kernel

/-- Rotating the old one keeps the recent one. -/
theorem rotation_keeps_session :
    ∃ pair, (twoSessionService.rotateRefreshToken plainRanking twoSessionsDb "old"
        { id := 13, token := "new" } (.atOnce 3)).2 = .ok pair ∧
      KeepsSessions twoSessionsDb (twoSessionService.rotateRefreshToken plainRanking twoSessionsDb
        "old" { id := 13, token := "new" } (.atOnce 3)).1 1 3 (plainSession 11 "old" 1) := by
  have hend : (twoSessionService.rotateRefreshToken plainRanking twoSessionsDb "old"
      { id := 13, token := "new" } (.atOnce 3)).2.toOption.isSome = true := by
    decide +kernel
  obtain ⟨pair, hok⟩ := Option.isSome_iff_exists.1 hend
  have hok := toOption_eq_some.1 hok
  refine ⟨pair, hok, ?_⟩
  refine (rotation_keeps_sessions_iff twoSessionService twoSessionsDb (by decide) "old"
    { id := 13, token := "new" } (.atOnce 3) (plainSession 11 "old" 1) (by decide +kernel)
    ⟨le_rfl, le_rfl, by decide +kernel, by decide⟩ (by decide +kernel) _ pair hok).2 (Or.inr ?_) _
  decide +kernel

/-! ### Calls that overlap -/

open LocalSessions (State Grant Event Step step_of_next)

lemma length_sessions_map {db : AuthDb} {f : RefreshToken → RefreshToken}
    (hf : ∀ token, f token = token ∨ (f token).revokedAt ≠ none) (userId : Uuid) (now : ℕ) :
    (AuthDb.sessions { db with refreshTokens := db.refreshTokens.map f } userId now).length ≤
      (db.sessions userId now).length := by
  rw [sessions_map (q := fun token => f token ≠ token) (fun token hne => (hf token).resolve_left hne)
    fun token => not_not.1]
  exact length_filter_le _ _

/-- Whatever the user had before, the limit is kept afterwards. -/
lemma length_sessions_enforce {db : AuthDb} (ranking : Ranking RefreshToken.createdAt) :
    ((db.enforceRefreshSessionLimit ranking limit userId now).sessions userId now).length ≤
      max limit 1 := by
  have hdrop : (excess db ranking limit userId now).filter
      (fun token => !decide (token.id ∈ (excess db ranking limit userId now).map (·.id))) = [] :=
    filter_eq_nil_iff.2 fun token htoken => by simpa using ⟨token, htoken, rfl⟩
  rw [sessions_enforceRefreshSessionLimit, ((ranking.perm _).symm.filter _).length_eq,
    ← take_append_drop (max limit 1) (ranking.ranked _), filter_append, ← excess, hdrop, append_nil]
  exact (length_filter_le _ _).trans (length_take_le _ _)

/-- A step that inserts a session. -/
def inserts : Event → Bool
  | .insert _ _ => true
  | _ => false

/-- Other steps do not add to the sessions of a user. -/
lemma length_sessions_step {s s' : State} (h : Step service s e s') (userId : Uuid) :
    (s'.db.sessions userId s'.clock).length ≤
      (s.db.sessions userId s.clock).length + [e].countP inserts := by
  cases h with
  | tick elapsed =>
    refine Nat.le_add_right_of_le (List.Sublist.length_le (monotone_filter_right _ fun token => ?_))
    simp only [RefreshToken.Live]
    grind
  | insert hi hdb =>
    obtain ⟨-, -, -, rfl⟩ := insertRefreshToken_ok.1 hdb
    rw [AuthDb.sessions, filter_append, length_append]
    exact Nat.add_le_add_left (length_filter_le _ _) _
  | revokeMismatch | finish | enforce | logout =>
    refine Nat.le_add_right_of_le (length_sessions_map (fun token => ?_) _ _)
    split <;> simp
  | _ => exact Nat.le_add_right _ _

/-- **The limit on sessions.** When it has been enforced for a user, whatever overlaps before and afterwards,
the live sessions of the user exceed it by no more than the sessions inserted since. -/
theorem sessions_within_limit (service : LocalService) (s t : State) (grant : Grant) (i : ℕ)
    (ranking : Ranking RefreshToken.createdAt) (es : List Event) (hi : s.grants[i]? = some grant)
    (hrun : Run.run (LocalSessions.next service) s (.enforce i ranking :: es) = some t) :
    (t.db.sessions grant.userId t.clock).length ≤
      max service.auth.refreshMaxSessions 1 + es.countP inserts := by
  obtain ⟨m, hnext, hrest⟩ := Run.run_cons.1 hrun
  have hlater := Run.measure_of_step (fun _ => True)
    (fun m => (m.db.sessions grant.userId m.clock).length) inserts
    (fun _ _ _ _ h => ⟨trivial, length_sessions_step (step_of_next h) _⟩) trivial hrest
  refine hlater.trans (Nat.add_le_add_right ?_ _)
  rw [LocalSessions.next] at hnext
  split at hnext <;> cases hnext
  rename_i hgrant
  cases hi.symm.trans hgrant
  exact length_sessions_enforce ranking

/-- One login enforces a limit of two sessions, and another one then adds its own. -/
theorem sessions_of_two_logins :
    let s : State := { LocalSessions.start 3
        (plainDb [plainSession 11 "old" 1, plainSession 12 "recent" 2, plainSession 13 "new" 3]) with
      grants := [⟨1, none, 0, .inserted "new"⟩, ⟨1, none, 0, .versioned 1 3⟩] }
    ∃ t, Run.run (LocalSessions.next twoSessionService) s
        [.enforce 0 plainRanking, .insert 1 { id := 14, token := "newer" }] = some t ∧
      (t.db.sessions 1 3).map (·.tokenHash) = ["recent", "new", "newer"] ∧
      (t.db.sessions 1 t.clock).length ≤ 3 := by
  intro s
  refine Run.exists_of_run (by decide +kernel) fun t hrun _ => ?_
  exact sessions_within_limit twoSessionService s t _ 0 plainRanking _ rfl hrun

end OpenDefender.System.SessionLimit
