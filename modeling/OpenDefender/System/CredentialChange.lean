import OpenDefender.System.LocalSessions

/-!
What a new password or the end of an account is worth.

Every token has the version of its user, which each of these changes counts on; a token of another version
is not accepted. A login and an exchange read the version twice, once with the check of the credentials and
once more for the new refresh token. If a new password comes between the two, the refresh token has the new
version although it comes from the old credentials. Where this does not happen, no token is accepted after
a change that was complete later than the check it comes from: `accepted_is_current`.

The invariant says of each token that its version is not ahead of its user, and that it comes from a check
after the last change if it is the version of the user and the user is active (`Good`). What has still to
read the version must come from such a check whatever the version (`Fresh`), and who has seen the user
active has seen it at a version that is now past, or is right (`Seen`).
-/

namespace OpenDefender.System.CredentialChange

open Lib Run Pool Table Admin LocalSessions Lib.Outcome List

/-! ### Versions and stamps -/

/-- The version is not ahead of the user. -/
def Reached (users : List IamUser) (userId : Uuid) (version : ℕ) : Prop :=
  ∀ row ∈ users, row.id = userId → version ≤ row.tokenVersion

/-- As long as the user is active, all changes were complete at the check. -/
def Fresh (users : List IamUser) (changes : List Uuid) (userId : Uuid) (stamp : ℕ) : Prop :=
  ∀ row ∈ users, row.id = userId → row.status = "active" → stamp = changes.count userId

/-- The same, as long as the version is that of the user. -/
def Current (users : List IamUser) (changes : List Uuid) (userId : Uuid) (version stamp : ℕ) : Prop :=
  ∀ row ∈ users, row.id = userId → row.tokenVersion = version → row.status = "active" →
    stamp = changes.count userId

/-- As long as the version is that of the user, the user is active. -/
def Seen (users : List IamUser) (userId : Uuid) (version : ℕ) : Prop :=
  ∀ row ∈ users, row.id = userId → row.tokenVersion = version → row.status = "active"

/-- A token that is accepted only if it is good. -/
structure Good (users : List IamUser) (changes : List Uuid) (userId : Uuid) (version stamp : ℕ) :
    Prop where
  reached : Reached users userId version
  current : Current users changes userId version stamp

variable {users : List IamUser} {changes : List Uuid} {userId : Uuid}

lemma Fresh.current (h : Fresh users changes userId stamp) :
    Current users changes userId version stamp :=
  fun row hrow hid _ hactive => h row hrow hid hactive

lemma fresh_count :
    Fresh users changes userId (changes.count userId) :=
  fun _ _ _ _ => rfl

/-! ### How users move -/

/-- The row is the same for tokens. -/
structure Same (row row' : IamUser) : Prop where
  id : row'.id = row.id
  version : row'.tokenVersion = row.tokenVersion
  status : row'.status = row.status

/-- The version moves on, unless the user was not active. -/
structure Moved (row row' : IamUser) : Prop where
  id : row'.id = row.id
  le : row.tokenVersion ≤ row'.tokenVersion
  active : row'.status = "active" → row.tokenVersion < row'.tokenVersion
  same : row'.tokenVersion = row.tokenVersion → row.status ≠ "active"

lemma moved_of_renewed (h : Renewed row row') : Moved row row' where
  id := h.id
  le := h.version ▸ Nat.le_succ _
  active := fun _ => h.version ▸ Nat.lt_succ_self _
  same := fun heq => absurd (h.version.symm.trans heq) (Nat.succ_ne_self _)

lemma moved_of_ended (h : Ended row row') : Moved row row' where
  id := h.id
  le := by
    have hversion := h.version
    omega
  active := fun hactive => absurd hactive h.status
  same := fun heq => by
    obtain hversion | ⟨-, hstatus⟩ := h.version
    · omega
    · exact hstatus

/-- What is known of tokens carries over to the users and changes of a later state, and for some users
also that a check is fresh. -/
structure Carries (users : List IamUser) (changes : List Uuid) (users' : List IamUser)
    (changes' : List Uuid) (kept : Uuid → Prop) : Prop where
  reached : ∀ {userId version}, Reached users userId version → Reached users' userId version
  current : ∀ {userId version stamp}, Good users changes userId version stamp →
    Current users' changes' userId version stamp
  seen : ∀ {userId version}, Reached users userId version → Seen users userId version →
    Seen users' userId version
  fresh : ∀ {userId stamp}, kept userId → Fresh users changes userId stamp →
    Fresh users' changes' userId stamp

variable {users' : List IamUser}

lemma Carries.good {kept : Uuid → Prop} (h : Carries users changes users' changes' kept)
    (hgood : Good users changes userId version stamp) : Good users' changes' userId version stamp :=
  ⟨h.reached hgood.reached, h.current hgood⟩

/-- Everything carries over if the rows are the same for tokens. -/
lemma carries_same (hsame : ∀ row' ∈ users', ∃ row ∈ users, Same row row') :
    Carries users changes users' changes fun _ => True where
  reached := fun h row' hrow' hid => by
    obtain ⟨row, hrow, hrows⟩ := hsame row' hrow'
    rw [hrows.version]
    exact h row hrow (hrows.id ▸ hid)
  current := fun h row' hrow' hid hversion hactive => by
    obtain ⟨row, hrow, hrows⟩ := hsame row' hrow'
    exact h.current row hrow (hrows.id ▸ hid) (hrows.version ▸ hversion) (hrows.status ▸ hactive)
  seen := fun _ h row' hrow' hid hversion => by
    obtain ⟨row, hrow, hrows⟩ := hsame row' hrow'
    rw [hrows.status]
    exact h row hrow (hrows.id ▸ hid) (hrows.version ▸ hversion)
  fresh := fun _ h row' hrow' hid hactive => by
    obtain ⟨row, hrow, hrows⟩ := hsame row' hrow'
    exact h row hrow (hrows.id ▸ hid) (hrows.status ▸ hactive)

lemma count_concat_of_ne (h : userId ≠ changed) :
    (changes ++ [changed]).count userId = changes.count userId := by
  rw [count_append, count_singleton, if_neg (by simpa using h.symm), Nat.add_zero]

/-- Nothing but the freshness of a check is lost by a change: a version that was reached before is past
for a user who is still active. Freshness is kept by other users, and by one who is not active any more. -/
lemma carries_change (hrows : ∀ row' ∈ users', (row'.id ≠ changed ∧ row' ∈ users) ∨
      ∃ row ∈ users, row.id = changed ∧ Moved row row') :
    Carries users changes users' (changes ++ [changed]) fun userId =>
      userId ≠ changed ∨ ∀ row' ∈ users', row'.id = changed → row'.status ≠ "active" where
  reached := fun h row' hrow' hid => by
    obtain ⟨-, hrow⟩ | ⟨row, hrow, -, hmoved⟩ := hrows row' hrow'
    · exact h row' hrow hid
    · exact (h row hrow (hmoved.id ▸ hid)).trans hmoved.le
  current := fun h row' hrow' hid hversion hactive => by
    obtain ⟨hne, hrow⟩ | ⟨row, hrow, -, hmoved⟩ := hrows row' hrow'
    · rw [count_concat_of_ne (hid ▸ hne)]
      exact h.current row' hrow hid hversion hactive
    · have hle := h.reached row hrow (hmoved.id ▸ hid)
      have hlt := hmoved.active hactive
      omega
  seen := fun hreached h row' hrow' hid hversion => by
    obtain ⟨-, hrow⟩ | ⟨row, hrow, -, hmoved⟩ := hrows row' hrow'
    · exact h row' hrow hid hversion
    · have hle := hreached row hrow (hmoved.id ▸ hid)
      have hle' := hmoved.le
      have heq : row'.tokenVersion = row.tokenVersion := by omega
      have hactive := h row hrow (hmoved.id ▸ hid) (heq.symm.trans hversion)
      exact absurd hactive (hmoved.same heq)
  fresh := fun hkept h row' hrow' hid hactive => by
    obtain ⟨hne, hrow⟩ | ⟨row, hrow, hrowId, hmoved⟩ := hrows row' hrow'
    · rw [count_concat_of_ne (hid ▸ hne)]
      exact h row' hrow hid hactive
    · have hchanged : row'.id = changed := hmoved.id.trans hrowId
      obtain hne | hended := hkept
      · exact absurd (hid.symm.trans hchanged) hne
      · exact absurd hactive (hended row' hrow' hchanged)

/-! ### The invariant -/

structure LoginOk (users : List IamUser) (changes : List Uuid) (login : Login) : Prop where
  reached : Reached users login.row.id login.row.tokenVersion
  fresh : ∀ time stamp, login.stage = .verified true time stamp →
    Fresh users changes login.row.id stamp

structure GrantOk (users : List IamUser) (changes : List Uuid) (grant : Grant) : Prop where
  fresh : grant.stage = .start → Fresh users changes grant.userId grant.stamp
  good : ∀ version issue, grant.stage = .versioned version issue →
    Good users changes grant.userId version grant.stamp

structure ExchangeOk (users : List IamUser) (tokens : List RefreshToken) (exchange : Exchange) :
    Prop where
  row : ∃ row ∈ tokens, row.id = exchange.row.id ∧ row.userId = exchange.row.userId ∧
    row.tokenVersion = exchange.row.tokenVersion
  seen : ∀ user, exchange.stage = .active user →
    user.id = exchange.row.userId ∧ Seen users exchange.row.userId exchange.row.tokenVersion

structure AccessOk (users : List IamUser) (changes : List Uuid) (token : Issued) : Prop where
  good : Good users changes token.claims.sub token.claims.tokenVersion token.stamp
  seen : Seen users token.claims.sub token.claims.tokenVersion

/-- The stamp is that of a token, which is good with it. -/
structure OriginOk (users : List IamUser) (changes : List Uuid) (tokens : List RefreshToken)
    (origin : Uuid × ℕ) : Prop where
  mem : origin.1 ∈ tokens.map (·.id)
  current : ∀ row ∈ tokens, row.id = origin.1 →
    Current users changes row.userId row.tokenVersion origin.2

structure Inv (s : State) : Prop where
  ids : Unique IamUser.id s.db.iam.users
  tokens : ∀ row ∈ s.db.refreshTokens, Reached s.db.iam.users row.userId row.tokenVersion
  origins : ∀ origin ∈ s.origins, OriginOk s.db.iam.users s.changes s.db.refreshTokens origin
  logins : ∀ login ∈ s.logins, LoginOk s.db.iam.users s.changes login
  grants : ∀ grant ∈ s.grants, GrantOk s.db.iam.users s.changes grant
  exchanges : ∀ exchange ∈ s.exchanges, ExchangeOk s.db.iam.users s.db.refreshTokens exchange
  accesses : ∀ token ∈ s.accesses, AccessOk s.db.iam.users s.changes token
  issued : ∀ token ∈ s.issued,
    Good s.db.iam.users s.changes token.claims.sub token.claims.tokenVersion token.stamp
  accepted : ∀ pair ∈ s.accepted, pair.1 = pair.2

section Inv

variable {s : State}

/-- The version of an exchange is not ahead of the user. -/
lemma Inv.reached_exchange (hinv : Inv s) (h : exchange ∈ s.exchanges) :
    Reached s.db.iam.users exchange.row.userId exchange.row.tokenVersion := by
  obtain ⟨row, hrow, -, huser, hversion⟩ := (hinv.exchanges exchange h).row
  rw [← huser, ← hversion]
  exact hinv.tokens row hrow

/-- The invariant carries over to later users, where what has still to read a version stays fresh. -/
lemma Inv.carry (hinv : Inv s) {kept : Uuid → Prop}
    (h : Carries s.db.iam.users s.changes iam.users changes kept)
    (hids : Unique IamUser.id iam.users)
    (hlogins : ∀ login ∈ s.logins, ∀ time stamp, login.stage = .verified true time stamp →
      kept login.row.id) (hgrants : ∀ grant ∈ s.grants, grant.stage = .start → kept grant.userId) :
    Inv { s with db := { s.db with iam }, changes } where
  ids := hids
  tokens := fun row hrow => h.reached (hinv.tokens row hrow)
  origins := fun origin horigin => by
    obtain ⟨hmem, hcurrent⟩ := hinv.origins origin horigin
    exact ⟨hmem, fun row hrow hid => h.current ⟨hinv.tokens row hrow, hcurrent row hrow hid⟩⟩
  logins := fun login hlogin => by
    obtain ⟨hreached, hfresh⟩ := hinv.logins login hlogin
    exact ⟨h.reached hreached, fun time stamp hstage =>
      h.fresh (hlogins login hlogin time stamp hstage) (hfresh time stamp hstage)⟩
  grants := fun grant hgrant => by
    obtain ⟨hfresh, hgood⟩ := hinv.grants grant hgrant
    exact ⟨fun hstage => h.fresh (hgrants grant hgrant hstage) (hfresh hstage),
      fun version issue hstage => h.good (hgood version issue hstage)⟩
  exchanges := fun exchange hexchange => by
    obtain ⟨hrow, hseen⟩ := hinv.exchanges exchange hexchange
    refine ⟨hrow, fun user hstage => ⟨(hseen user hstage).1, ?_⟩⟩
    exact h.seen (hinv.reached_exchange hexchange) (hseen user hstage).2
  accesses := fun token htoken => by
    obtain ⟨hgood, hseen⟩ := hinv.accesses token htoken
    exact ⟨h.good hgood, h.seen hgood.reached hseen⟩
  issued := fun token htoken => h.good (hinv.issued token htoken)
  accepted := hinv.accepted

/-- The columns of a login do not matter. -/
lemma Inv.writeLogin (hinv : Inv s) (userId : Uuid) (columns : LoginColumns) :
    Inv { s with db := { s.db with iam := s.db.iam.setLogin userId columns } } := by
  refine hinv.carry (carries_same fun row' hrow' => ?_) (hinv.ids.map fun row => ?_)
    (fun _ _ _ _ _ => trivial) fun _ _ _ => trivial
  · obtain ⟨row, hrow, rfl⟩ := mem_map.1 hrow'
    refine ⟨row, hrow, ?_⟩
    split
    · exact ⟨rfl, rfl, rfl⟩
    · exact ⟨rfl, rfl, rfl⟩
  · split <;> rfl

/-- Revoking tokens does not matter. -/
lemma Inv.revoke (hinv : Inv s) (h : Revokes s.db db) : Inv { s with db } := by
  obtain ⟨f, hlater, rfl⟩ := h
  refine { hinv with tokens := ?_, origins := ?_, exchanges := ?_ }
  · intro row' hrow'
    obtain ⟨row, hrow, rfl⟩ := mem_map.1 hrow'
    rw [(hlater row).userId, (hlater row).tokenVersion]
    exact hinv.tokens row hrow
  · intro origin horigin
    obtain ⟨hmem, hcurrent⟩ := hinv.origins origin horigin
    refine ⟨?_, fun row' hrow' hid => ?_⟩
    · rw [map_key_map fun row => (hlater row).id]
      exact hmem
    · obtain ⟨row, hrow, rfl⟩ := mem_map.1 hrow'
      rw [(hlater row).userId, (hlater row).tokenVersion]
      exact hcurrent row hrow ((hlater row).id ▸ hid)
  · intro exchange hexchange
    obtain ⟨⟨row, hrow, hid, huser, hversion⟩, hseen⟩ := hinv.exchanges exchange hexchange
    have hsame := hlater row
    exact ⟨⟨f row, mem_map_of_mem hrow, hsame.id.trans hid, hsame.userId.trans huser,
      hsame.tokenVersion.trans hversion⟩, hseen⟩

/-- A new token that is good joins the others. -/
lemma Inv.insert (hinv : Inv s) (hid : new.id ∉ s.db.refreshTokens.map (·.id))
    (hgood : Good s.db.iam.users s.changes new.userId new.tokenVersion stamp) :
    Inv { s with
      db := { s.db with refreshTokens := s.db.refreshTokens ++ [new] }
      origins := s.origins ++ [(new.id, stamp)] } := by
  refine { hinv with tokens := forall_concat hgood.reached hinv.tokens, origins := ?_, exchanges := ?_ }
  · refine forall_concat ⟨?_, forall_concat (fun _ => hgood.current) fun row hrow heq => ?_⟩ ?_
    · rw [map_append]
      exact mem_append_right _ mem_cons_self
    · have heq : row.id = new.id := heq
      exact absurd (heq ▸ mem_map_of_mem hrow) hid
    · intro origin horigin
      obtain ⟨hmem, hcurrent⟩ := hinv.origins origin horigin
      refine ⟨?_, forall_concat (fun heq => absurd (heq ▸ hmem) hid) hcurrent⟩
      rw [map_append]
      exact mem_append_left _ hmem
  · intro exchange hexchange
    obtain ⟨⟨row, hrow, hsame⟩, hseen⟩ := hinv.exchanges exchange hexchange
    exact ⟨⟨row, mem_append_left _ hrow, hsame⟩, hseen⟩

/-- What has been accepted by an exchange was good. -/
lemma Inv.stamps_exchange (hinv : Inv s) (hexchange : exchange ∈ s.exchanges)
    (hstage : exchange.stage = .active user)
    (hversion : s.db.userTokenVersion exchange.row.userId = .ok exchange.row.tokenVersion) :
    ∀ stamp ∈ s.stampsOf exchange.row.id, stamp = s.changesOf exchange.row.userId := by
  intro stamp hstamp
  obtain ⟨origin, horigin, rfl⟩ := mem_map.1 hstamp
  obtain ⟨horigin, hid⟩ := mem_filter.1 horigin
  have hid : origin.1 = exchange.row.id := of_decide_eq_true hid
  obtain ⟨⟨row, hrow, hrowId, huser, hrowVersion⟩, hseen⟩ := hinv.exchanges exchange hexchange
  have hcurrent := (hinv.origins origin horigin).current row hrow (hrowId.trans hid.symm)
  rw [huser, hrowVersion] at hcurrent
  obtain ⟨current, hget, hsame⟩ := userTokenVersion_ok.1 hversion
  obtain ⟨hmem, hcurrentId⟩ := mem_of_getUser hget
  exact hcurrent current hmem hcurrentId hsame
    ((hseen user hstage).2 current hmem hcurrentId hsame)

lemma Inv.stamp_access (hinv : Inv s) (htoken : token ∈ s.accesses)
    (hversion : s.db.userTokenVersion token.claims.sub = .ok token.claims.tokenVersion) :
    token.stamp = s.changesOf token.claims.sub := by
  obtain ⟨hgood, hseen⟩ := hinv.accesses token htoken
  obtain ⟨current, hget, hsame⟩ := userTokenVersion_ok.1 hversion
  obtain ⟨hmem, hid⟩ := mem_of_getUser hget
  exact hgood.current current hmem hid hsame (hseen current hmem hid hsame)

/-- A version that was read is reached. -/
lemma Inv.reached_of_userTokenVersion (hinv : Inv s)
    (h : s.db.userTokenVersion userId = .ok version) : Reached s.db.iam.users userId version := by
  obtain ⟨current, hget, rfl⟩ := userTokenVersion_ok.1 h
  obtain ⟨hmem, hid⟩ := mem_of_getUser hget
  intro row hrow hrowId
  rw [hinv.ids.eq hrow hmem (hrowId.trans hid.symm)]

/-- A user who was read active is active. -/
lemma Inv.seen_of_getUser (hinv : Inv s) (h : s.db.iam.getUser userId = .ok user)
    (hactive : user.status = "active") (version : ℕ) : Seen s.db.iam.users userId version := by
  obtain ⟨hmem, hid⟩ := mem_of_getUser h
  intro row hrow hrowId _
  rw [hinv.ids.eq hrow hmem (hrowId.trans hid.symm)]
  exact hactive

end Inv

/-! ### Runs -/

/-- The login has checked the right password. -/
def passed (login : Login) : Bool :=
  match login.stage with
  | .verified true _ _ => true
  | _ => false

/-- The grant has still to read the version. -/
def unread (grant : Grant) : Bool :=
  match grant.stage with
  | .start => true
  | _ => false

/-- A new password is written only while no login or exchange of the user is between its check and the
version of its refresh token. -/
def Undisturbed (s : State) : Event → Prop
  | .change (.setUserPassword userId _ _ _) =>
    (∀ login ∈ s.logins, passed login = true → login.row.id ≠ userId) ∧
      ∀ grant ∈ s.grants, unread grant = true → grant.userId ≠ userId
  | _ => True

instance (s : State) (e : Event) : Decidable (Undisturbed s e) := by
  unfold Undisturbed
  split <;> infer_instance

lemma inv_change (hinv : Inv s) (hok : Undisturbed s (.change operation))
    (huser : changedUser operation = some userId) (hwrite : operation.write s.db.iam none = .ok iam) :
    Inv { s with db := { s.db with iam }, changes := s.changes ++ [userId] } := by
  obtain ⟨change, husers, hkind⟩ := users_change huser hwrite
  have hmoved : ∀ row, Moved row (change row) := by
    obtain ⟨_, _, _, -, hrenewed⟩ | ⟨-, hended⟩ := hkind
    · exact fun row => moved_of_renewed (hrenewed row)
    · exact fun row => moved_of_ended (hended row)
  have hrows : ∀ row' ∈ iam.users, (row'.id ≠ userId ∧ row' ∈ s.db.iam.users) ∨
      ∃ row ∈ s.db.iam.users, row.id = userId ∧ Moved row row' := by
    intro row' hrow'
    rw [husers] at hrow'
    obtain ⟨row, hrow, rfl⟩ := mem_map.1 hrow'
    by_cases hid : row.id = userId
    · rw [if_pos hid]
      exact Or.inr ⟨row, hrow, hid, hmoved row⟩
    · rw [if_neg hid]
      exact Or.inl ⟨hid, hrow⟩
  have hids : Unique IamUser.id iam.users := by
    rw [husers]
    refine hinv.ids.map fun row => ?_
    split
    · exact (hmoved row).id
    · rfl
  have hkept : (∃ password passwordHash mustChangePassword,
      operation = .setUserPassword userId password passwordHash mustChangePassword) ∨
      ∀ row' ∈ iam.users, row'.id = userId → row'.status ≠ "active" := by
    obtain ⟨password, passwordHash, mustChangePassword, hoperation, -⟩ | ⟨-, hended⟩ := hkind
    · exact Or.inl ⟨password, passwordHash, mustChangePassword, hoperation⟩
    · refine Or.inr fun row' hrow' hid => ?_
      rw [husers] at hrow'
      obtain ⟨row, -, rfl⟩ := mem_map.1 hrow'
      split at hid
      · rw [if_pos ‹_›]
        exact (hended row).status
      · contradiction
  refine hinv.carry (carries_change hrows) hids (fun login hlogin time stamp hstage => ?_)
    fun grant hgrant hstage => ?_
  · refine hkept.imp_left ?_
    rintro ⟨_, _, _, rfl⟩
    exact hok.1 login hlogin (by rw [passed, hstage])
  · refine hkept.imp_left ?_
    rintro ⟨_, _, _, rfl⟩
    exact hok.2 grant hgrant (by rw [unread, hstage])

lemma inv_next (s : State) (e : Event) (s' : State) (hinv : Inv s) (hok : Undisturbed s e)
    (h : next service s e = some s') : Inv s' := by
  cases step_of_next h with
  | stay e => exact hinv
  | tick elapsed => exact { hinv with }
  | @readLogin identifier password row hrow hmatch =>
    have hlogin : LoginOk s.db.iam.users s.changes ⟨password, row, .read⟩ := by
      refine ⟨fun other hother hid => ?_, fun _ _ hstage => nomatch hstage⟩
      rw [hinv.ids.eq hother hrow hid]
    exact { hinv with logins := forall_concat hlogin hinv.logins }
  | checkLogin hi hhash =>
    have hlogin := hinv.logins _ (mem_of_getElem? hi)
    exact { hinv with
      logins := forall_set ⟨hlogin.reached, fun _ _ hstage => nomatch hstage⟩
        (forall_eraseIdx hinv.logins) }
  | verifyLogin hi =>
    have hlogin := hinv.logins _ (mem_of_getElem? hi)
    refine { hinv with
      logins := forall_set ⟨hlogin.reached, fun time stamp hstage => ?_⟩
        (forall_eraseIdx hinv.logins) }
    -- the stamp is the number of changes now
    obtain ⟨-, -, rfl⟩ := LoginStage.verified.inj hstage
    exact fresh_count
  | @loggedIn i password row time stamp hi =>
    have hlogin := hinv.logins _ (mem_of_getElem? hi)
    have hfresh := hlogin.fresh time stamp rfl
    have hgood : Good s.db.iam.users s.changes row.id row.tokenVersion stamp :=
      ⟨hlogin.reached, hfresh.current⟩
    -- the tokens are good, and only then the columns are written
    have hinv' : Inv { s with
        logins := s.logins.eraseIdx i
        grants := s.grants ++ [{ userId := row.id, source := none, stamp, stage := .start }]
        issued := s.issued ++
          [{ claims := service.auth.issue (service.authenticatedUser s.db.iam row) s.clock, stamp }] } :=
      { hinv with
        logins := forall_eraseIdx hinv.logins
        grants := forall_concat ⟨fun _ => hfresh, fun _ _ hstage => nomatch hstage⟩ hinv.grants
        issued := forall_concat hgood hinv.issued }
    have hwritten := hinv'.writeLogin row.id afterSuccess
    exact { hwritten with }
  | @loginFailed i password row time stamp hi =>
    have hinv' := hinv.writeLogin row.id (service.auth.afterFailure row time)
    exact { hinv' with logins := forall_eraseIdx hinv'.logins }
  | @present token row hrow =>
    have hexchange : ExchangeOk s.db.iam.users s.db.refreshTokens ⟨token, row, .found⟩ :=
      ⟨⟨row, (findLive_some hrow).1, rfl, rfl, rfl⟩, fun _ hstage => nomatch hstage⟩
    exact { hinv with exchanges := forall_concat hexchange hinv.exchanges }
  | readStatus hi huser hactive =>
    have hexchange := hinv.exchanges _ (mem_of_getElem? hi)
    refine { hinv with
      exchanges := forall_set ⟨hexchange.row, fun user hstage => ?_⟩
        (forall_eraseIdx hinv.exchanges) }
    obtain rfl := ExchangeStage.active.inj hstage
    exact ⟨(mem_of_getUser huser).2, hinv.seen_of_getUser huser hactive _⟩
  | @exchanged i token row user hi hversion =>
    have hmem := mem_of_getElem? hi
    have hstamps := hinv.stamps_exchange hmem rfl hversion
    have huser : user.id = row.userId := ((hinv.exchanges _ hmem).seen user rfl).1
    have hgood : Good s.db.iam.users s.changes user.id row.tokenVersion
        (s.changes.count row.userId) := by
      rw [huser]
      exact ⟨hinv.reached_exchange hmem, fresh_count.current⟩
    refine { hinv with
      exchanges := forall_eraseIdx hinv.exchanges
      grants := forall_concat ⟨fun _ => fresh_count, fun _ _ hstage => nomatch hstage⟩ hinv.grants
      issued := forall_concat hgood hinv.issued
      accepted := fun pair hpair => ?_ }
    obtain hpair | hpair := mem_append.1 hpair
    · exact hinv.accepted pair hpair
    · obtain ⟨stamp, hstamp, rfl⟩ := mem_map.1 hpair
      exact hstamps stamp hstamp
  | mismatched hi =>
    have hexchange := hinv.exchanges _ (mem_of_getElem? hi)
    exact { hinv with
      exchanges := forall_set ⟨hexchange.row, fun _ hstage => nomatch hstage⟩
        (forall_eraseIdx hinv.exchanges) }
  | @revokeMismatch i token row hi =>
    have hinv' := hinv.revoke (revokes_revoke _ row.id s.clock "token_version_mismatch" none)
    exact { hinv' with exchanges := forall_eraseIdx hinv'.exchanges }
  | readVersion hi hversion =>
    have hgrant := hinv.grants _ (mem_of_getElem? hi)
    refine { hinv with
      grants := forall_set ⟨fun hstage => (nomatch hstage), fun version issue hstage => ?_⟩
        (forall_eraseIdx hinv.grants) }
    obtain ⟨rfl, -⟩ := GrantStage.versioned.inj hstage
    exact ⟨hinv.reached_of_userTokenVersion hversion, (hgrant.fresh rfl).current⟩
  | insert hi hdb =>
    have hgrant := hinv.grants _ (mem_of_getElem? hi)
    obtain ⟨hid, -, -, rfl⟩ := insertRefreshToken_ok.1 hdb
    have hinv' := hinv.insert hid (hgrant.good _ _ rfl)
    exact { hinv' with
      grants := forall_set ⟨fun hstage => (nomatch hstage), fun _ _ hstage => (nomatch hstage)⟩
        (forall_eraseIdx hinv'.grants) }
  | @enforce i ranking userId source stamp tokenHash hi =>
    have hinv' := hinv.revoke
      (revokes_enforce _ ranking service.auth.refreshMaxSessions userId s.clock)
    exact { hinv' with
      grants := forall_set ⟨fun hstage => (nomatch hstage), fun _ _ hstage => (nomatch hstage)⟩
        (forall_eraseIdx hinv'.grants) }
  | @finish i userId id replacementId token tokenHash stamp hi =>
    have hinv' := hinv.revoke (revokes_revoke _ id s.clock "rotated" (some replacementId))
    exact { hinv' with grants := forall_eraseIdx hinv'.grants }
  | logout token =>
    have hinv' := hinv.revoke (revokes_logout service _ token s.clock)
    exact { hinv' with }
  | change huser hwrite =>
    have hinv' := inv_change hinv hok huser hwrite
    exact { hinv' with }
  | request hi huser hactive =>
    have hgood := hinv.issued _ (mem_of_getElem? hi)
    exact { hinv with
      accesses := forall_concat ⟨hgood, hinv.seen_of_getUser huser hactive _⟩ hinv.accesses }
  | authorize hi hversion =>
    have hstamp := hinv.stamp_access (mem_of_getElem? hi) hversion
    exact { hinv with
      accesses := forall_eraseIdx hinv.accesses
      accepted := forall_concat hstamp hinv.accepted }
  | leaveLogin e i => exact { hinv with logins := forall_eraseIdx hinv.logins }
  | leaveExchange e i => exact { hinv with exchanges := forall_eraseIdx hinv.exchanges }
  | leaveGrant e i => exact { hinv with grants := forall_eraseIdx hinv.grants }
  | leaveAccess e i => exact { hinv with accesses := forall_eraseIdx hinv.accesses }

/-- **Tokens of old credentials.** Take any run from a state without sessions in which no new password of a
user is written while a login of this user with the right password, or an exchange that has compared the
versions, has yet to read the version of its refresh token. Whenever a token is accepted in it, all changes
of its user were already complete at the check of credentials it comes from. -/
theorem accepted_is_current (service : LocalService) (clock : ℕ) (iam : IamDb)
    (hids : Unique IamUser.id iam.users) (es : List Event)
    (hguard : Guarded (next service) Undisturbed (start clock { iam, refreshTokens := [] }) es)
    (t : State) (hrun : run (next service) (start clock { iam, refreshTokens := [] }) es = some t) :
    ∀ pair ∈ t.accepted, pair.1 = pair.2 := by
  have hstart : Inv (start clock { iam, refreshTokens := [] }) := by
    constructor
    case ids => exact hids
    all_goals exact fun _ h => absurd h not_mem_nil
  have hinv : Inv t := Guarded.invariant Inv inv_next hstart hguard hrun
  exact hinv.accepted

/-- A login with the password `password`, up to the access token. -/
def loginSteps : List Event :=
  [.readLogin "first" "password" 1, .checkLogin 0, .verifyLogin 0, .writeLogin 0]

/-- What follows for the refresh token. -/
def grantSteps (draw : Draw) : List Event :=
  [.readVersion 0, .insert 0 draw, .enforce 0 plainRanking, .finish 0]

/-- A new password for the user. -/
def newPassword : Event := .change (.setUserPassword 1 "new password" "new password" false)

/-- The password is changed after it was found right and before the version of the refresh token is read.
The refresh token is then accepted although the check it comes from was before the change. -/
theorem old_password_accepted :
    (run (next plainService) (start 0 (plainDb []))
      (loginSteps ++ [newPassword] ++ grantSteps { id := 21, token := "refresh-1" } ++
        [.present "refresh-1", .readStatus 0, .compare 0])).map (fun t => t.accepted) =
      some [(0, 1)] := by
  decide +kernel

/-- The login is complete when the password is changed. -/
def changedAfterLogin : List Event :=
  loginSteps ++ grantSteps { id := 21, token := "refresh-1" } ++
    [.request 0, .authorize 0, newPassword, .request 0, .authorize 0, .present "refresh-1",
      .readStatus 0, .compare 0, .revokeMismatch 0]

/-- Its access token is accepted before the change and not after it, and its refresh token is revoked. -/
theorem old_password_refused :
    ∃ t, run (next plainService) (start 0 (plainDb [])) changedAfterLogin = some t ∧
      t.accepted = [(0, 0)] ∧ ∀ pair ∈ t.accepted, pair.1 = pair.2 := by
  refine exists_of_run (by decide +kernel) fun t hrun _ => ?_
  exact accepted_is_current plainService 0 (plainDb []).iam (by decide) changedAfterLogin
    (by decide +kernel) t hrun

end OpenDefender.System.CredentialChange
