import OpenDefender.System.LocalSessions

/-!
The lock after too many wrong passwords.

A login reads the counter, adds one in memory and writes it back together with the lock, so of logins that
overlap one undoes what another has written: attempts are not counted, and a lock is cleared. If the logins
of a user come one after the other, the lock holds: `lockout_holds`.

The invariant: the counter of a row is never below the number of `wrongTimes`, in the table and in what a
login has read; a login that has got past the lock has read a lock that is over.
-/

namespace OpenDefender.System.Lockout

open Lib Run Pool Table Admin LocalSessions List

/-- The wrong passwords of a user since the last right or new one. -/
def wrongTimes (userId : Uuid) (outcomes : List (Uuid × LoginOutcome)) : List ℕ :=
  outcomes.foldl (fun times outcome =>
    if outcome.1 = userId then
      match outcome.2 with
      | .wrong time => times ++ [time]
      | .right | .reset => []
    else times) []

/-- When the lock for a wrong password at this time is over. -/
def lockEnd (service : LocalService) (time : ℕ) : ℕ :=
  time + max service.auth.lockoutSeconds 1 * second

/-- The account is locked at this time. -/
def Locked (clock : ℕ) (row : IamUser) : Prop := ∃ time ∈ row.lockedUntil, clock < time

/-- The step verifies a password of the user. -/
def Verifies (s : State) (e : Event) (userId : Uuid) : Prop :=
  ∃ i password row hash, e = .verifyLogin i ∧
    s.logins[i]? = some ⟨password, row, .checked hash⟩ ∧ row.id = userId

/-- A login reads the row of a user while no other login of the user is under way. -/
def OneAtATime (s : State) : Event → Prop
  | .readLogin _ _ userId => ∀ login ∈ s.logins, login.row.id ≠ userId
  | _ => True

instance (s : State) (e : Event) : Decidable (OneAtATime s e) := by
  unfold OneAtATime
  split <;> infer_instance

/-! ### Wrong passwords -/

section WrongTimes

variable {userId : Uuid} {outcomes : List (Uuid × LoginOutcome)}

lemma wrongTimes_other (h : other ≠ userId) (outcome : LoginOutcome) :
    wrongTimes userId (outcomes ++ [(other, outcome)]) = wrongTimes userId outcomes := by
  simp [wrongTimes, foldl_append, h]

@[simp] lemma wrongTimes_wrong (time : ℕ) :
    wrongTimes userId (outcomes ++ [(userId, .wrong time)]) = wrongTimes userId outcomes ++ [time] := by
  simp [wrongTimes, foldl_append]

@[simp] lemma wrongTimes_right : wrongTimes userId (outcomes ++ [(userId, .right)]) = [] := by
  simp [wrongTimes, foldl_append]

@[simp] lemma wrongTimes_reset : wrongTimes userId (outcomes ++ [(userId, .reset)]) = [] := by
  simp [wrongTimes, foldl_append]

end WrongTimes

/-! ### The invariant -/

/-- The counter of a row is not below the number of wrong passwords, and enough of them have locked it. -/
structure Counted (service : LocalService) (outcomes : List (Uuid × LoginOutcome)) (row : IamUser) :
    Prop where
  attempts : (wrongTimes row.id outcomes).length ≤ row.failedLoginAttempts
  lock : service.auth.maxFailedAttempts ≤ (wrongTimes row.id outcomes).length →
    row.lockedUntil = (wrongTimes row.id outcomes).getLast?.map (lockEnd service)

/-- What a login has read is as the table has it, unless there is a new password. -/
structure Attempt (clock : ℕ) (users : List IamUser) (outcomes : List (Uuid × LoginOutcome))
    (login : Login) : Prop where
  attempts : (wrongTimes login.row.id outcomes).length ≤ login.row.failedLoginAttempts
  lock : ∀ row ∈ users, row.id = login.row.id →
    row.lockedUntil = login.row.lockedUntil ∨ row.lockedUntil = none
  expired : login.stage ≠ .read → ∀ time ∈ login.row.lockedUntil, time ≤ clock

/-- The logins are of different users. -/
def OtherUser (login other : Login) : Prop := login.row.id ≠ other.row.id

variable {login : Login}

lemma OtherUser.symm (h : OtherUser login other) : OtherUser other login :=
  Ne.symm h

structure Inv (service : LocalService) (s : State) : Prop where
  ids : Unique IamUser.id s.db.iam.users
  rows : ∀ row ∈ s.db.iam.users, Counted service s.outcomes row
  logins : ∀ login ∈ s.logins, Attempt s.clock s.db.iam.users s.outcomes login
  single : s.logins.Pairwise OtherUser

section Steps

variable {service : LocalService} {s s' : State}

/-- What has nothing to do with logins. -/
lemma Inv.frame (hinv : Inv service s) (husers : s'.db.iam.users = s.db.iam.users)
    (houtcomes : s'.outcomes = s.outcomes) (hclock : s.clock ≤ s'.clock)
    (hlogins : s'.logins.Sublist s.logins) : Inv service s' where
  ids := husers ▸ hinv.ids
  rows := by
    rw [husers, houtcomes]
    exact hinv.rows
  logins := by
    intro login hlogin
    have hattempt := hinv.logins login (hlogins.subset hlogin)
    refine ⟨houtcomes ▸ hattempt.attempts, husers ▸ hattempt.lock, fun hstage time htime => ?_⟩
    exact (hattempt.expired hstage time htime).trans hclock
  single := hinv.single.sublist hlogins

/-- A login goes on to its next stage. -/
lemma Inv.setLogin (hinv : Inv service s) (hi : s.logins[i]? = some login)
    (hrow : login'.row = login.row) (hexpired : ∀ time ∈ login.row.lockedUntil, time ≤ s.clock) :
    Inv service { s with logins := s.logins.set i login' } := by
  have hattempt := hinv.logins login (mem_of_getElem? hi)
  refine ⟨hinv.ids, hinv.rows, forall_set ⟨?_, ?_, ?_⟩ (forall_eraseIdx hinv.logins), ?_⟩
  · rw [hrow]
    exact hattempt.attempts
  · rw [hrow]
    exact hattempt.lock
  · rw [hrow]
    exact fun _ => hexpired
  · refine pairwise_set (fun _ _ => OtherUser.symm) hinv.single fun other hother => ?_
    have hne : OtherUser login other :=
      rel_of_mem_eraseIdx (fun _ _ => OtherUser.symm) hinv.single hi hother
    rw [OtherUser, hrow]
    exact hne

/-- The row of one user is written. -/
lemma Inv.write (hinv : Inv service s) {change : IamUser → IamUser} (husers : s'.db.iam.users =
      s.db.iam.users.map fun row => if row.id = userId then change row else row)
    (hid : ∀ row, (change row).id = row.id)
    (hothers : ∀ other, other ≠ userId → wrongTimes other s'.outcomes = wrongTimes other s.outcomes)
    (hclock : s'.clock = s.clock) (hlogins : s'.logins.Sublist s.logins)
    (hcounted : ∀ row ∈ s.db.iam.users, row.id = userId → Counted service s'.outcomes (change row))
    (hattempts : ∀ login ∈ s'.logins, login.row.id = userId →
      (wrongTimes userId s'.outcomes).length ≤ login.row.failedLoginAttempts ∧
        ∀ row ∈ s.db.iam.users, row.id = userId →
          (change row).lockedUntil = login.row.lockedUntil ∨ (change row).lockedUntil = none) :
    Inv service s' where
  ids := by
    rw [husers]
    refine hinv.ids.map fun row => ?_
    split
    · exact hid row
    · rfl
  rows := by
    rw [husers]
    intro row' hrow'
    obtain ⟨row, hrow, rfl⟩ := mem_map.1 hrow'
    by_cases huser : row.id = userId
    · rw [if_pos huser]
      exact hcounted row hrow huser
    · rw [if_neg huser]
      obtain ⟨hcount, hlock⟩ := hinv.rows row hrow
      exact ⟨by rw [hothers _ huser]; exact hcount, by rw [hothers _ huser]; exact hlock⟩
  logins := by
    intro login hlogin
    have hattempt := hinv.logins login (hlogins.subset hlogin)
    have hexpired : login.stage ≠ .read → ∀ time ∈ login.row.lockedUntil, time ≤ s'.clock :=
      hclock ▸ hattempt.expired
    by_cases huser : login.row.id = userId
    · obtain ⟨hcount, hlock⟩ := hattempts login hlogin huser
      refine ⟨by rw [huser]; exact hcount, fun row' hrow' hsame => ?_, hexpired⟩
      rw [husers] at hrow'
      obtain ⟨row, hrow, rfl⟩ := mem_map.1 hrow'
      by_cases hrowId : row.id = userId
      · rw [if_pos hrowId]
        exact hlock row hrow hrowId
      · rw [if_neg hrowId] at hsame
        exact absurd (hsame.trans huser) hrowId
    · refine ⟨by rw [hothers _ huser]; exact hattempt.attempts, fun row' hrow' hsame => ?_, hexpired⟩
      rw [husers] at hrow'
      obtain ⟨row, hrow, rfl⟩ := mem_map.1 hrow'
      by_cases hrowId : row.id = userId
      · rw [if_pos hrowId, hid, hrowId] at hsame
        exact absurd hsame.symm huser
      · rw [if_neg hrowId] at hsame ⊢
        exact hattempt.lock row hrow hsame
  single := hinv.single.sublist hlogins

/-- The logins of other users go on. -/
lemma Inv.other_of_mem_eraseIdx (hinv : Inv service s) (hi : s.logins[i]? = some login)
    (hother : other ∈ s.logins.eraseIdx i) : other.row.id ≠ login.row.id :=
  (rel_of_mem_eraseIdx (fun _ _ => OtherUser.symm) hinv.single hi hother).symm

lemma expired_of_hashToVerify {row : IamUser} {hash : String} (h : row.hashToVerify now = .ok hash) :
    ∀ time ∈ row.lockedUntil, time ≤ now := by
  rw [IamUser.hashToVerify] at h
  split at h
  · cases h
  · split at h
    · cases h
    · rename_i hfilter
      intro time htime
      have hnot := Option.filter_eq_none_iff.1 hfilter time htime
      simpa using hnot

lemma inv_loggedIn (hlimit : 0 < service.auth.maxFailedAttempts) (hinv : Inv service s)
    {password : String} (hi : s.logins[i]? = some ⟨password, row, .verified true time stamp⟩) :
    Inv service (s.loggedIn service i row stamp) := by
  refine hinv.write rfl (fun _ => rfl) (fun other hother => wrongTimes_other hother.symm _) rfl
    (eraseIdx_sublist _ _) (fun user huser hid => ?_) fun login hlogin hid => ?_
  · have hnone : wrongTimes user.id (s.outcomes ++ [(row.id, .right)]) = [] := by
      rw [hid, wrongTimes_right]
    refine ⟨?_, fun hmany => ?_⟩
    · rw [State.loggedIn, hnone]
      exact Nat.zero_le _
    · rw [State.loggedIn, hnone] at hmany
      exact absurd hlimit (Nat.not_lt.2 hmany)
  · exact absurd hid (hinv.other_of_mem_eraseIdx hi hlogin)

lemma inv_loginFailed (hinv : Inv service s) {password : String}
    (hi : s.logins[i]? = some ⟨password, row, .verified false time stamp⟩) :
    Inv service (s.loginFailed service i row time) := by
  have hattempt := hinv.logins _ (mem_of_getElem? hi)
  refine hinv.write rfl (fun _ => rfl) (fun other hother => wrongTimes_other hother.symm _) rfl
    (eraseIdx_sublist _ _) (fun user huser hid => ?_) fun login hlogin hid => ?_
  · have hwrong : wrongTimes user.id (s.outcomes ++ [(row.id, .wrong time)]) =
        wrongTimes row.id s.outcomes ++ [time] := by
      rw [hid, wrongTimes_wrong]
    have hlength : (wrongTimes row.id s.outcomes ++ [time]).length ≤ row.failedLoginAttempts + 1 := by
      rw [length_append, length_singleton]
      exact Nat.succ_le_succ hattempt.attempts
    refine ⟨?_, fun hmany => ?_⟩
    · rw [State.loginFailed, hwrong]
      exact hlength
    · rw [State.loginFailed, hwrong] at hmany ⊢
      -- the counter has reached the limit, so the lock was written
      rw [getLast?_concat]
      exact if_pos (hmany.trans hlength)
  · exact absurd hid (hinv.other_of_mem_eraseIdx hi hlogin)

/-- A new password starts the count again; the end of an account leaves it alone. -/
lemma inv_change (hlimit : 0 < service.auth.maxFailedAttempts) (hinv : Inv service s)
    {userId : Uuid} (huser : changedUser operation = some userId)
    (hwrite : operation.write s.db.iam none = .ok iam) :
    Inv service { s with
      db := { s.db with iam }
      changes := s.changes ++ [userId]
      outcomes := s.outcomes ++ resets operation } := by
  obtain ⟨change, husers, ⟨_, _, _, rfl, hrenewed⟩ | ⟨hresets, hended⟩⟩ := users_change huser hwrite
  · have hnone : wrongTimes userId (s.outcomes ++ [(userId, .reset)]) = [] := wrongTimes_reset
    refine hinv.write husers (fun row => (hrenewed row).id)
      (fun other hother => wrongTimes_other hother.symm _) rfl (List.Sublist.refl _)
      (fun row hrow hid => ⟨?_, fun hmany => ?_⟩) fun login hlogin hid => ⟨?_, fun row _ _ => ?_⟩
    · rw [(hrenewed row).id, hid, resets, hnone]
      exact Nat.zero_le _
    · rw [(hrenewed row).id, hid, resets, hnone] at hmany
      exact absurd hlimit (Nat.not_lt.2 hmany)
    · rw [resets, hnone]
      exact Nat.zero_le _
    · exact Or.inr (hrenewed row).lock
  · rw [hresets, append_nil]
    refine hinv.write husers (fun row => (hended row).id) (fun _ _ => rfl) rfl (List.Sublist.refl _)
      (fun row hrow hid => ⟨?_, ?_⟩) fun login hlogin hid => ?_
    · rw [(hended row).id, (hended row).attempts]
      exact (hinv.rows row hrow).attempts
    · rw [(hended row).id, (hended row).lock]
      exact (hinv.rows row hrow).lock
    · have hattempt := hinv.logins login hlogin
      refine ⟨hid ▸ hattempt.attempts, fun row hrow hrowId => ?_⟩
      rw [(hended row).lock]
      exact hattempt.lock row hrow (hrowId.trans hid.symm)

end Steps

lemma inv_next {service : LocalService} (hlimit : 0 < service.auth.maxFailedAttempts) (s : State)
    (e : Event) (s' : State) (hinv : Inv service s) (hok : OneAtATime s e)
    (h : next service s e = some s') : Inv service s' := by
  cases step_of_next h with
  | tick elapsed => exact hinv.frame rfl rfl (Nat.le_add_right _ _) (List.Sublist.refl _)
  | @readLogin identifier password row hrow hmatch =>
    have hattempt : Attempt s.clock s.db.iam.users s.outcomes ⟨password, row, .read⟩ := by
      refine ⟨(hinv.rows row hrow).attempts, fun other hother hid => ?_, fun hstage => ?_⟩
      · rw [hinv.ids.eq hother hrow hid]
        exact Or.inl rfl
      · exact absurd rfl hstage
    refine ⟨hinv.ids, hinv.rows, forall_concat hattempt hinv.logins, ?_⟩
    rw [pairwise_append]
    refine ⟨hinv.single, pairwise_singleton _ _, fun login hlogin other hother => ?_⟩
    rw [mem_singleton.1 hother]
    exact hok login hlogin
  | checkLogin hi hhash => exact hinv.setLogin hi rfl (expired_of_hashToVerify hhash)
  | verifyLogin hi =>
    have hattempt := hinv.logins _ (mem_of_getElem? hi)
    exact hinv.setLogin hi rfl (hattempt.expired (by simp))
  | loggedIn hi => exact inv_loggedIn hlimit hinv hi
  | loginFailed hi => exact inv_loginFailed hinv hi
  | change huser hwrite => exact inv_change hlimit hinv huser hwrite
  | insert hi hdb =>
    obtain ⟨-, -, -, rfl⟩ := insertRefreshToken_ok.1 hdb
    exact hinv.frame rfl rfl le_rfl (List.Sublist.refl _)
  | leaveLogin e i => exact hinv.frame rfl rfl le_rfl (eraseIdx_sublist _ _)
  | _ => exact hinv.frame rfl rfl le_rfl (List.Sublist.refl _)

/-! ### While the account is locked -/

section Locked

variable {service : LocalService} {s s' : State} {e : Event} {row : IamUser}

/-- No login of a locked account has got past the lock. -/
lemma Inv.stage_of_locked (hinv : Inv service s) (hrow : row ∈ s.db.iam.users)
    (hlocked : Locked s.clock row) (hlogin : login ∈ s.logins) (hid : login.row.id = row.id) :
    login.stage = .read := by
  by_contra hstage
  have hattempt := hinv.logins login hlogin
  obtain ⟨time, htime, hlt⟩ := hlocked
  obtain hsame | hnone := hattempt.lock row hrow hid.symm
  · rw [hsame] at htime
    exact absurd (hattempt.expired hstage time htime) (Nat.not_le.2 hlt)
  · rw [hnone] at htime
    cases htime

lemma Inv.not_verifies (hinv : Inv service s) (hrow : row ∈ s.db.iam.users)
    (hlocked : Locked s.clock row) : ¬ Verifies s e row.id := by
  rintro ⟨i, password, read, hash, -, hi, hid⟩
  have hstage := hinv.stage_of_locked hrow hlocked (mem_of_getElem? hi) hid
  cases hstage

/-- The row of a locked account is changed by nothing else than a change of the user. -/
lemma Inv.mem_of_locked (hinv : Inv service s) (hrow : row ∈ s.db.iam.users)
    (hlocked : Locked s.clock row) (h : Step service s e s')
    (hchange : ∀ operation, e ≠ .change operation) : row ∈ s'.db.iam.users := by
  have hkept {i : ℕ} {login : Login} (hi : s.logins[i]? = some login) (hstage : login.stage ≠ .read)
      (columns : LoginColumns) : row ∈ (s.db.iam.setLogin login.row.id columns).users := by
    have hne : row.id ≠ login.row.id := fun hid =>
      hstage (hinv.stage_of_locked hrow hlocked (mem_of_getElem? hi) hid.symm)
    exact mem_map.2 ⟨row, hrow, if_neg hne⟩
  cases h with
  | loggedIn hi => exact hkept hi (by simp) _
  | loginFailed hi => exact hkept hi (by simp) _
  | @change operation => exact absurd rfl (hchange operation)
  | insert hi hdb =>
    obtain ⟨-, -, -, rfl⟩ := insertRefreshToken_ok.1 hdb
    exact hrow
  | _ => exact hrow

end Locked

/-- **The lock holds.** In every run in which a login reads the row of a user only while no other login of
the user is under way: once as many wrong passwords as the limit allows have been written since the last
right or new one, the account is locked for the time of the lockout from the last one on; and while an
account is locked, no step verifies a password of it, and none but a change of the user touches its row. -/
theorem lockout_holds (service : LocalService) (hlimit : 0 < service.auth.maxFailedAttempts)
    (clock : ℕ) (db : AuthDb) (hids : Unique IamUser.id db.iam.users) (es : List Event)
    (hguard : Guarded (next service) OneAtATime (start clock db) es) (t : State)
    (hrun : run (next service) (start clock db) es = some t) :
    (∀ row ∈ t.db.iam.users,
      service.auth.maxFailedAttempts ≤ (wrongTimes row.id t.outcomes).length →
        ∃ time, (wrongTimes row.id t.outcomes).getLast? = some time ∧
          row.lockedUntil = some (lockEnd service time)) ∧
    ∀ row ∈ t.db.iam.users, Locked t.clock row → ∀ e t', next service t e = some t' →
      ¬ Verifies t e row.id ∧
        ((∀ operation, e ≠ .change operation) → row ∈ t'.db.iam.users) := by
  have hstart : Inv service (start clock db) := by
    refine ⟨hids, fun row _ => ⟨Nat.zero_le _, fun hmany => ?_⟩, by simp [start], List.Pairwise.nil⟩
    exact absurd hlimit (Nat.not_lt.2 hmany)
  have hinv : Inv service t := Guarded.invariant (Inv service) (inv_next hlimit) hstart hguard hrun
  refine ⟨fun row hrow hmany => ?_, fun row hrow hlocked e t' hnext => ?_⟩
  · have hne : wrongTimes row.id t.outcomes ≠ [] := ne_nil_of_length_pos (hlimit.trans_le hmany)
    have hlock := (hinv.rows row hrow).lock hmany
    rw [getLast?_eq_getLast_of_ne_nil hne] at hlock ⊢
    exact ⟨_, rfl, hlock⟩
  · exact ⟨hinv.not_verifies hrow hlocked, hinv.mem_of_locked hrow hlocked (step_of_next hnext)⟩

/-- A service that locks an account after two wrong passwords. -/
def twoAttemptService : LocalService :=
  { plainService with auth := { plainService.auth with maxFailedAttempts := 2 } }

/-- Two logins with a wrong password that both read the counter before either writes it. -/
def lostUpdate : List Event :=
  [.readLogin "first" "guess-1" 1, .readLogin "first" "guess-2" 1, .checkLogin 0, .checkLogin 1,
    .verifyLogin 0, .verifyLogin 1, .writeLogin 0, .writeLogin 0]

/-- One login has read the row and looked at the lock when two others lock the account. -/
def lockedMeanwhile : List Event :=
  [.readLogin "first" "guess-1" 1, .checkLogin 0,
    .readLogin "first" "guess-2" 1, .checkLogin 1, .verifyLogin 1, .writeLogin 1,
    .readLogin "first" "guess-3" 1, .checkLogin 1, .verifyLogin 1, .writeLogin 1]

/-- Two wrong passwords in a row do not lock the account; and in an account that is locked until 900
seconds a password is verified, and the lock cleared. The counter and the lock are shown. -/
theorem lock_lost :
    (run (next twoAttemptService) (start 0 (plainDb [])) lostUpdate).map (fun t =>
        (wrongTimes 1 t.outcomes,
          t.db.iam.users.map fun user => (user.failedLoginAttempts, user.lockedUntil))) =
      some ([0, 0], [(1, none)]) ∧
    (run (next twoAttemptService) (start 0 (plainDb [])) lockedMeanwhile).map (fun t =>
        t.db.iam.users.map fun user => (user.failedLoginAttempts, user.lockedUntil)) =
      some [(2, some (900 * second))] ∧
    (run (next twoAttemptService) (start 0 (plainDb []))
        (lockedMeanwhile ++ [.verifyLogin 0, .writeLogin 0])).map (fun t => (t.clock,
        t.db.iam.users.map fun user => (user.failedLoginAttempts, user.lockedUntil))) =
      some (0, [(1, none)]) := by
  refine ⟨?_, ?_, ?_⟩ <;> decide +kernel

/-- Two logins with a wrong password, one after the other. -/
def wrongInOrder : List Event :=
  [.readLogin "first" "guess-1" 1, .checkLogin 0, .verifyLogin 0, .writeLogin 0, .tick 5,
    .readLogin "first" "guess-2" 1, .checkLogin 0, .verifyLogin 0, .writeLogin 0]

/-- They lock the account. -/
theorem locked_in_order :
    ∃ t, run (next twoAttemptService) (start 0 (plainDb [])) wrongInOrder = some t ∧
      wrongTimes 1 t.outcomes = [0, 5] ∧
      ∃ row ∈ t.db.iam.users, row.id = 1 ∧ row.lockedUntil = some (5 + 900 * second) := by
  have hend : (run (next twoAttemptService) (start 0 (plainDb [])) wrongInOrder).any (fun t =>
      wrongTimes 1 t.outcomes = [0, 5] ∧ (t.db.iam.users.find? fun row => row.id = 1).isSome) =
        true := by
    decide +kernel
  obtain ⟨t, hrun, hresult⟩ := (Option.any_eq_true _ _).1 hend
  obtain ⟨htimes, hfind⟩ := of_decide_eq_true hresult
  obtain ⟨row, hfind⟩ := Option.isSome_iff_exists.1 hfind
  have hid : row.id = 1 := by simpa using find?_some hfind
  have hrow := mem_of_find?_eq_some hfind
  refine ⟨t, hrun, htimes, row, hrow, hid, ?_⟩
  have hholds := lockout_holds twoAttemptService (by decide) 0 (plainDb []) (by decide) wrongInOrder
    (by decide +kernel) t hrun
  obtain ⟨time, htime, hlock⟩ := hholds.1 row hrow (by rw [hid, htimes]; decide)
  rw [hid, htimes] at htime
  obtain rfl : 5 = time := Option.some.inj htime
  exact hlock

end OpenDefender.System.Lockout
