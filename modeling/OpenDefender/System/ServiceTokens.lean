import OpenDefender.Admin.ServiceAccounts
import OpenDefender.Lib.Run

/-!
The secrets of service accounts over whole sequences of operations. The ledger says, from the operations
alone, which secret an account was given last and which roles; `Represents` relates it to the tables.

`verifyServiceToken_exact` says which texts are accepted, for which account and with which roles. Hints of
different secrets may be the same, and nothing depends on the order in which candidates are tried.
-/

namespace OpenDefender.System.ServiceTokens

open Admin Lib Text Lib.Run Lib.Table List

/-! ### Sequences of operations -/

/-- What the operations say of an account: the secret issued last, and the roles given last. -/
structure LedgerEntry where
  id : Uuid
  secret : String
  roles : List String
  deriving DecidableEq, Repr

/-- The entry after a new secret was issued. -/
def LedgerEntry.rotate (draw : SecretDraw) (names : List String) (entry : LedgerEntry) : LedgerEntry :=
  { entry with
    secret := draw.token.text
    roles := if names = [] then entry.roles else names }

/-- The ledger after an operation. -/
def record (ledger : List LedgerEntry) : ServiceAccountOperation → List LedgerEntry
  | .create id draw payload =>
    ledger ++ [{ id := id, secret := draw.token.text, roles := payload.roles }]
  | .rotate draw id payload =>
    ledger.map fun entry =>
      if entry.id = id then entry.rotate draw (rolesOfUpdate payload) else entry
  | .disable _ => ledger

/-- The secret that an operation issues. -/
def secret? : ServiceAccountOperation → Option String
  | .create _ draw _ => some draw.token.text
  | .rotate draw _ _ => some draw.token.text
  | .disable _ => none

/-- The tables, and the ledger. -/
structure State where
  db : ServiceAccountDb
  ledger : List LedgerEntry

/-- An operation that succeeds, whichever statements the database is asked to fail. -/
def next (service : ServiceAccountService) (s : State) (event : ServiceAccountOperation × Faults) :
    Option State :=
  match service.perform s.db event.2 event.1 with
  | (.ok (), db) => some { db, ledger := record s.ledger event.1 }
  | (.error _, _) => none

/-- No accounts yet. -/
def start (roles : List IamRole) (roleKeys : Unique IamRole.id roles) : State :=
  { db := { roles, roleKeys, accounts := [], accountRoles := [] }, ledger := [] }

/-- The secrets that are issued in a run. -/
def secrets (events : List (ServiceAccountOperation × Faults)) : List String :=
  events.filterMap fun event => secret? event.1

variable {s : State}

lemma performs_of_next (h : next service s event = some s') :
    ∃ db, service.Performs s.db event.1 db ∧ s' = { db, ledger := record s.ledger event.1 } := by
  rw [next] at h
  split at h
  · rename_i db hperform
    exact ⟨db, ServiceAccountService.performs_of_perform hperform, (Option.some.inj h).symm⟩
  · cases h

/-! ### The ledger and the tables -/

variable {service : ServiceAccountService}

/-- A row has the hint and a hash of the secret in the ledger. -/
structure Stored (service : ServiceAccountService) (entry : LedgerEntry) (row : ServiceAccount) :
    Prop where
  id : row.id = entry.id
  hinted : (tokenHint entry.secret).isSome = true
  hint : row.tokenHint = tokenHint entry.secret
  hash : ∃ salt, row.tokenHash = service.hashing.hash salt entry.secret
  expires : row.expiresAt.isSome = true

variable {entry : LedgerEntry} {row : ServiceAccount}

lemma Stored.verify_iff (h : Stored service entry row) (token : String) :
    service.hashing.verify token row.tokenHash = true ↔ token = entry.secret := by
  obtain ⟨salt, hhash⟩ := h.hash
  rw [hhash]
  exact service.hashing.verify_hash salt entry.secret token

/-- Every account is in the ledger and in its table, with a secret of its own. -/
structure AccountsRepresented (service : ServiceAccountService) (accounts : List ServiceAccount)
    (ledger : List LedgerEntry) : Prop where
  stored : ∀ entry ∈ ledger, ∃ row ∈ accounts, Stored service entry row
  entered : ∀ row ∈ accounts, ∃ entry ∈ ledger, Stored service entry row
  rows : Unique ServiceAccount.id accounts
  ids : Unique LedgerEntry.id ledger
  secrets : Unique LedgerEntry.secret ledger

/-- The assignments are those of the roles in the ledger. -/
structure RolesRepresented (roles : List IamRole) (accountRoles : List (Uuid × Uuid))
    (ledger : List LedgerEntry) : Prop where
  assigned : ∀ entry ∈ ledger, ∀ role ∈ roles,
    (entry.id, role.id) ∈ accountRoles ↔ role.name ∈ entry.roles
  known : ∀ entry ∈ ledger, ∀ name ∈ entry.roles, name ∈ roles.map (·.name)
  owned : ∀ assignment ∈ accountRoles, assignment.1 ∈ ledger.map (·.id)

/-- The tables hold what the ledger says. -/
structure Represents (service : ServiceAccountService) (s : State) : Prop where
  accounts : AccountsRepresented service s.db.accounts s.ledger
  roles : RolesRepresented s.db.roles s.db.accountRoles s.ledger

/-! ### Accounts -/

variable {accounts : List ServiceAccount} {ledger : List LedgerEntry}

lemma AccountsRepresented.mem_ids_iff (h : AccountsRepresented service accounts ledger) (id : Uuid) :
    id ∈ ledger.map (·.id) ↔ id ∈ accounts.map (·.id) := by
  constructor
  · intro hmem
    obtain ⟨entry, hentry, rfl⟩ := mem_map.1 hmem
    obtain ⟨row, hrow, hstored⟩ := h.stored entry hentry
    exact hstored.id ▸ mem_map_of_mem hrow
  · intro hmem
    obtain ⟨row, hrow, rfl⟩ := mem_map.1 hmem
    obtain ⟨entry, hentry, hstored⟩ := h.entered row hrow
    exact hstored.id ▸ mem_map_of_mem hentry

/-- A new account with a secret that no other account has. -/
lemma AccountsRepresented.concat (h : AccountsRepresented service accounts ledger)
    (hstored : Stored service entry row) (hid : entry.id ∉ ledger.map (·.id))
    (hsecret : entry.secret ∉ ledger.map (·.secret)) :
    AccountsRepresented service (accounts ++ [row]) (ledger ++ [entry]) where
  stored := by
    intro other hother
    obtain hother | hother := mem_append.1 hother
    · obtain ⟨row', hrow', hstored'⟩ := h.stored other hother
      exact ⟨row', mem_append_left _ hrow', hstored'⟩
    · obtain rfl := mem_singleton.1 hother
      exact ⟨row, mem_append_right _ (mem_singleton_self row), hstored⟩
  entered := by
    intro other hother
    obtain hother | hother := mem_append.1 hother
    · obtain ⟨entry', hentry', hstored'⟩ := h.entered other hother
      exact ⟨entry', mem_append_left _ hentry', hstored'⟩
    · obtain rfl := mem_singleton.1 hother
      exact ⟨entry, mem_append_right _ (mem_singleton_self entry), hstored⟩
  rows := by
    refine h.rows.concat fun hmem => hid ?_
    rw [hstored.id] at hmem
    exact (h.mem_ids_iff entry.id).2 hmem
  ids := h.ids.concat hid
  secrets := h.secrets.concat hsecret

/-- A change of entries and rows that goes with it. -/
lemma AccountsRepresented.map (h : AccountsRepresented service accounts ledger)
    (hid : ∀ entry, (f entry).id = entry.id) (hsecrets : Unique LedgerEntry.secret (ledger.map f))
    (hrow : ∀ row, (g row).id = row.id)
    (hstored : ∀ entry row, Stored service entry row → Stored service (f entry) (g row)) :
    AccountsRepresented service (accounts.map g) (ledger.map f) where
  stored := by
    intro entry' hentry'
    obtain ⟨entry, hentry, rfl⟩ := mem_map.1 hentry'
    obtain ⟨row, hrow, hold⟩ := h.stored entry hentry
    exact ⟨g row, mem_map_of_mem hrow, hstored entry row hold⟩
  entered := by
    intro row' hrow'
    obtain ⟨row, hrow, rfl⟩ := mem_map.1 hrow'
    obtain ⟨entry, hentry, hold⟩ := h.entered row hrow
    exact ⟨f entry, mem_map_of_mem hentry, hstored entry row hold⟩
  rows := h.rows.map hrow
  ids := h.ids.map hid
  secrets := hsecrets

/-- One account gets a secret that none has had, and all secrets are still different. -/
lemma secrets_rotate (hids : Unique LedgerEntry.id ledger)
    (hsecrets : Unique LedgerEntry.secret ledger) (id : Uuid) (names : List String)
    (hnew : draw.token.text ∉ ledger.map (·.secret)) :
    Unique LedgerEntry.secret
      (ledger.map fun entry => if entry.id = id then entry.rotate draw names else entry) := by
  rw [Table.Unique, map_map]
  refine List.Nodup.map_on ?_ hids.nodup
  intro entry hentry other hother hsame
  simp only [Function.comp_apply] at hsame
  split_ifs at hsame with hid hid' hid'
  · exact hids.eq hentry hother (hid.trans hid'.symm)
  · exact absurd (mem_map.2 ⟨other, hother, hsame.symm⟩) hnew
  · exact absurd (mem_map.2 ⟨entry, hentry, hsame⟩) hnew
  · exact hsecrets.eq hentry hother hsame

/-! ### Roles -/

/-- Nothing is said of the roles but by entries that were there before. -/
lemma RolesRepresented.congr (h : RolesRepresented roles accountRoles ledger)
    (hsame : ∀ entry ∈ ledger', ∃ old ∈ ledger, old.id = entry.id ∧ old.roles = entry.roles)
    (hids : ∀ id ∈ ledger.map (·.id), id ∈ ledger'.map (·.id)) :
    RolesRepresented roles accountRoles ledger' where
  assigned := by
    intro entry hentry role hrole
    obtain ⟨old, hold, hid, hroles⟩ := hsame entry hentry
    rw [← hid, ← hroles]
    exact h.assigned old hold role hrole
  known := by
    intro entry hentry
    obtain ⟨old, hold, -, hroles⟩ := hsame entry hentry
    rw [← hroles]
    exact h.known old hold
  owned := fun assignment hmem => hids _ (h.owned assignment hmem)

/-- A new account without roles. -/
lemma RolesRepresented.concat (h : RolesRepresented roles accountRoles ledger)
    (hid : entry.id ∉ ledger.map (·.id)) (hroles : entry.roles = []) :
    RolesRepresented roles accountRoles (ledger ++ [entry]) where
  assigned := by
    intro other hother role hrole
    obtain hother | hother := mem_append.1 hother
    · exact h.assigned other hother role hrole
    · obtain rfl := mem_singleton.1 hother
      rw [hroles]
      exact iff_of_false (fun hmem => hid (h.owned _ hmem)) not_mem_nil
  known := by
    intro other hother
    obtain hother | hother := mem_append.1 hother
    · exact h.known other hother
    · obtain rfl := mem_singleton.1 hother
      rw [hroles]
      simp
  owned := by
    intro assignment hmem
    rw [map_append]
    exact mem_append_left _ (h.owned assignment hmem)

/-- The assignments of an account are those of the new roles, and the others stay. -/
lemma mem_assignmentsWith {db : ServiceAccountDb} (hrole : role ∈ db.roles) (other id : Uuid)
    (names : List String) :
    (other, role.id) ∈ db.assignmentsWith id names ↔
      if other = id then role.name ∈ names else (other, role.id) ∈ db.accountRoles := by
  simp only [ServiceAccountDb.assignmentsWith, ServiceAccountDb.rolesNamed, mem_append,
    mem_filter, mem_map, decide_eq_true_eq, Prod.mk.injEq]
  split_ifs with hid
  · subst hid
    constructor
    · rintro (⟨-, hne⟩ | ⟨found, ⟨hfound, hname⟩, -, hkey⟩)
      · exact absurd rfl hne
      · exact db.roleKeys.eq hfound hrole hkey ▸ hname
    · exact fun hname => Or.inr ⟨role, ⟨hrole, hname⟩, rfl, rfl⟩
  · constructor
    · rintro (⟨hmem, -⟩ | ⟨-, -, heq, -⟩)
      · exact hmem
      · exact absurd heq.symm hid
    · exact fun hmem => Or.inl ⟨hmem, hid⟩

/-- One account gets new roles. -/
lemma RolesRepresented.replace (db : ServiceAccountDb) {ledger' : List LedgerEntry}
    (h : RolesRepresented db.roles db.accountRoles ledger) {id : Uuid}
    (hknown : ∀ name ∈ names, name ∈ db.roles.map (·.name))
    (hown : ∀ entry ∈ ledger', entry.id = id → entry.roles = names)
    (hsame : ∀ entry ∈ ledger', entry.id ≠ id →
      ∃ old ∈ ledger, old.id = entry.id ∧ old.roles = entry.roles)
    (hids : ∀ other, other = id ∨ other ∈ ledger.map (·.id) → other ∈ ledger'.map (·.id)) :
    RolesRepresented db.roles (db.assignmentsWith id names) ledger' where
  assigned := by
    intro entry hentry role hrole
    rw [mem_assignmentsWith hrole]
    split_ifs with hid
    · rw [hown entry hentry hid]
    · obtain ⟨old, hold, hid', hroles⟩ := hsame entry hentry hid
      rw [← hid', ← hroles]
      exact h.assigned old hold role hrole
  known := by
    intro entry hentry
    by_cases hid : entry.id = id
    · rw [hown entry hentry hid]
      exact hknown
    · obtain ⟨old, hold, -, hroles⟩ := hsame entry hentry hid
      rw [← hroles]
      exact h.known old hold
  owned := by
    intro assignment hmem
    obtain hmem | hmem := mem_append.1 hmem
    · exact hids _ (Or.inr (h.owned assignment (mem_of_mem_filter hmem)))
    · obtain ⟨role, -, rfl⟩ := mem_map.1 hmem
      exact hids _ (Or.inl rfl)

/-! ### Whole runs -/

lemma represents_start (roles : List IamRole) (roleKeys : Unique IamRole.id roles) :
    Represents service (start roles roleKeys) where
  accounts :=
    { stored := by simp [start], entered := by simp [start]
      rows := nodup_nil, ids := nodup_nil, secrets := nodup_nil }
  roles := { assigned := by simp [start], known := by simp [start], owned := by simp [start] }

@[simp] lemma accounts_withRoles (db : ServiceAccountDb) (id : Uuid) (names : List String) :
    (db.withRoles id names).accounts = db.accounts := by
  rw [ServiceAccountDb.withRoles]
  split_ifs <;> rfl

@[simp] lemma roles_withRoles (db : ServiceAccountDb) (id : Uuid) (names : List String) :
    (db.withRoles id names).roles = db.roles := by
  rw [ServiceAccountDb.withRoles]
  split_ifs <;> rfl

lemma stored_newAccount (id : Uuid) (draw : SecretDraw) (payload : CreateServiceAccountRequest) :
    Stored service { id := id, secret := draw.token.text, roles := payload.roles }
      (service.newAccount id draw payload) where
  id := rfl
  hinted := draw.token.tokenHint_isSome
  hint := draw.token.tokenHint_text.symm
  hash := ⟨draw.salt, rfl⟩
  expires := rfl

lemma Represents.create (h : Represents service s) {id : Uuid} {draw : SecretDraw}
    (hid : id ∉ s.db.accounts.map (·.id))
    (hknown : ∀ name ∈ payload.roles, name ∈ s.db.roles.map (·.name))
    (hnew : draw.token.text ∉ s.ledger.map (·.secret)) :
    Represents service
      { db := { s.db with accounts := s.db.accounts ++ [service.newAccount id draw payload] }.withRoles
          id payload.roles
        ledger := record s.ledger (.create id draw payload) } := by
  have hid' : id ∉ s.ledger.map (·.id) := fun hmem => hid ((h.accounts.mem_ids_iff id).1 hmem)
  refine ⟨?_, ?_⟩
  · rw [accounts_withRoles]
    exact h.accounts.concat (stored_newAccount id draw payload) hid' hnew
  · rw [roles_withRoles, ServiceAccountDb.withRoles]
    split_ifs with hnames
    · exact h.roles.concat hid' hnames
    · refine h.roles.replace s.db hknown ?_ ?_ ?_
      · intro entry hentry hentryId
        obtain hold | hnew := mem_append.1 hentry
        · exact absurd (hentryId ▸ mem_map_of_mem hold) hid'
        · rw [mem_singleton.1 hnew]
      · intro entry hentry hentryId
        obtain hold | hnew := mem_append.1 hentry
        · exact ⟨entry, hold, rfl, rfl⟩
        · exact absurd (congrArg LedgerEntry.id (mem_singleton.1 hnew)) hentryId
      · intro other hother
        rw [record, map_append]
        obtain rfl | hother := hother
        · exact mem_append_right _ (mem_singleton_self _)
        · exact mem_append_left _ hother

lemma Stored.rotate (h : Stored service entry row) (draw : SecretDraw)
    (payload : Option UpdateServiceAccountRoles) (names : List String) :
    Stored service (entry.rotate draw names) (service.rotated draw payload row) where
  id := h.id
  hinted := draw.token.tokenHint_isSome
  hint := draw.token.tokenHint_text.symm
  hash := ⟨draw.salt, rfl⟩
  expires := rfl

lemma Represents.rotate (h : Represents service s) {id : Uuid} (hid : id ∈ s.db.accounts.map (·.id))
    (hknown : ∀ name ∈ rolesOfUpdate payload, name ∈ s.db.roles.map (·.name))
    (hnew : draw.token.text ∉ s.ledger.map (·.secret)) :
    Represents service
      { db := (s.db.updateAccount id (service.rotated draw payload)).2.withRoles id
          (rolesOfUpdate payload)
        ledger := record s.ledger (.rotate draw id payload) } := by
  have hids : ∀ entry : LedgerEntry,
      (if entry.id = id then entry.rotate draw (rolesOfUpdate payload) else entry).id = entry.id := by
    intro entry
    split_ifs <;> rfl
  have hkeys : (record s.ledger (.rotate draw id payload)).map LedgerEntry.id =
      s.ledger.map LedgerEntry.id := map_key_map hids s.ledger
  refine ⟨?_, ?_⟩
  · rw [accounts_withRoles]
    refine h.accounts.map hids ?_ (fun row => ?_) ?_
    · exact secrets_rotate h.accounts.ids h.accounts.secrets id (rolesOfUpdate payload) hnew
    · split_ifs <;> rfl
    · intro entry row hstored
      rw [hstored.id]
      split_ifs
      · exact hstored.rotate draw payload (rolesOfUpdate payload)
      · exact hstored
  · rw [roles_withRoles, ServiceAccountDb.withRoles]
    split_ifs with hnames
    · refine h.roles.congr ?_ fun other hother => hkeys ▸ hother
      intro entry hentry
      obtain ⟨old, hold, rfl⟩ := mem_map.1 hentry
      refine ⟨old, hold, (hids old).symm, ?_⟩
      split_ifs
      · rw [LedgerEntry.rotate, if_pos hnames]
      · rfl
    · refine h.roles.replace s.db hknown ?_ ?_ ?_
      · intro entry hentry hentryId
        obtain ⟨old, -, rfl⟩ := mem_map.1 hentry
        rw [hids old] at hentryId
        rw [if_pos hentryId, LedgerEntry.rotate, if_neg hnames]
      · intro entry hentry hentryId
        obtain ⟨old, hold, rfl⟩ := mem_map.1 hentry
        rw [hids old] at hentryId
        exact ⟨old, hold, by rw [if_neg hentryId], by rw [if_neg hentryId]⟩
      · intro other hother
        show other ∈ (record s.ledger (.rotate draw id payload)).map LedgerEntry.id
        rw [hkeys]
        obtain rfl | hother := hother
        · exact (h.accounts.mem_ids_iff other).2 hid
        · exact hother

lemma Represents.disable (h : Represents service s) (id : Uuid) :
    Represents service
      { db := (s.db.updateAccount id fun row => { row with status := "disabled" }).2
        ledger := record s.ledger (.disable id) } where
  accounts := by
    have hsame : s.ledger.map (fun entry => entry) = s.ledger := map_id' _
    have haccounts := h.accounts.map (f := fun entry => entry)
      (g := fun row => if row.id = id then { row with status := "disabled" } else row)
      (fun _ => rfl) (by rw [hsame]; exact h.accounts.secrets) (fun row => ?_) ?_
    · rwa [hsame] at haccounts
    · split_ifs <;> rfl
    · intro entry row hstored
      split_ifs
      · exact ⟨hstored.id, hstored.hinted, hstored.hint, hstored.hash, hstored.expires⟩
      · exact hstored
  roles := h.roles

/-- The ledger has only secrets that were issued. -/
lemma secrets_record (ledger : List LedgerEntry) (operation : ServiceAccountOperation) :
    ∀ secret ∈ (record ledger operation).map (·.secret),
      secret ∈ ledger.map (·.secret) ∨ secret? operation = some secret := by
  intro secret hmem
  cases operation with
  | create id draw payload =>
    rw [record, map_append] at hmem
    obtain hmem | hmem := mem_append.1 hmem
    · exact Or.inl hmem
    · exact Or.inr (congrArg some (mem_singleton.1 hmem).symm)
  | rotate draw id payload =>
    obtain ⟨entry, hentry, rfl⟩ := mem_map.1 hmem
    obtain ⟨old, hold, rfl⟩ := mem_map.1 hentry
    split_ifs
    · exact Or.inr rfl
    · exact Or.inl (mem_map_of_mem hold)
  | disable id => exact Or.inl hmem

/-- **One operation** that succeeds, with a secret that no account has. -/
lemma Represents.next {s' : State} {event : ServiceAccountOperation × Faults} (h : Represents service s)
    (hnext : next service s event = some s')
    (hnew : ∀ secret, secret? event.1 = some secret → secret ∉ s.ledger.map (·.secret)) :
    Represents service s' := by
  obtain ⟨operation, faults⟩ := event
  obtain ⟨db, hperforms, rfl⟩ := performs_of_next hnext
  cases hperforms with
  | create hid hknown => exact h.create hid hknown (hnew _ rfl)
  | rotate hid hknown => exact h.rotate hid hknown (hnew _ rfl)
  | disable hid => exact h.disable _

/-- **Whole runs**: with secrets that are all different, the tables hold what the ledger says. -/
lemma represents_of_run (h : Represents service s) (hrun : run (next service) s events = some t)
    (hnodup : (secrets events).Nodup)
    (hfresh : ∀ secret ∈ secrets events, secret ∉ s.ledger.map (·.secret)) :
    Represents service t := by
  induction events generalizing s with
  | nil =>
    cases hrun
    exact h
  | cons event events ih =>
    obtain ⟨s', hnext, hrest⟩ := run_cons.1 hrun
    have hcons : secrets (event :: events) = (secret? event.1).toList ++ secrets events := by
      rw [secrets, filterMap_cons]
      cases secret? event.1 <;> rfl
    rw [hcons] at hnodup hfresh
    obtain ⟨-, hnodup', hapart⟩ := nodup_append.1 hnodup
    have hmem : ∀ secret, secret? event.1 = some secret → secret ∈ (secret? event.1).toList :=
      fun secret hsecret => by simp [hsecret]
    refine ih (h.next hnext fun secret hsecret =>
      hfresh secret (mem_append_left _ (hmem secret hsecret))) hrest hnodup' ?_
    intro secret hsecret hledger
    obtain ⟨db, -, rfl⟩ := performs_of_next hnext
    obtain hold | hissued := secrets_record s.ledger event.1 secret hledger
    · exact hfresh secret (mem_append_right _ hsecret) hold
    · exact hapart secret (hmem secret hissued) secret hsecret rfl

/-! ### Checking a secret -/

/-- The text is the last secret of the account, which is active and not expired. -/
structure Valid (s : State) (now : ℤ) (token : String) (id : Uuid) : Prop where
  last : ∃ entry ∈ s.ledger, entry.id = id ∧ entry.secret = token
  usable : ∃ row ∈ s.db.accounts, row.id = id ∧ row.status = "active" ∧
    ∃ expiry ∈ row.expiresAt, now < expiry

/-- A secret is the last one of at most one account. -/
lemma Represents.id_of_last (h : Represents service s) {id id' : Uuid}
    (hlast : ∃ entry ∈ s.ledger, entry.id = id ∧ entry.secret = token)
    (hlast' : ∃ entry ∈ s.ledger, entry.id = id' ∧ entry.secret = token) : id = id' := by
  obtain ⟨entry, hentry, rfl, hsecret⟩ := hlast
  obtain ⟨entry', hentry', rfl, hsecret'⟩ := hlast'
  rw [h.accounts.secrets.eq hentry hentry' (hsecret.trans hsecret'.symm)]

/-- The candidates whose hash fits are the accounts that the text is valid for. -/
lemma Represents.fits_iff (h : Represents service s) (now : ℤ) (hhint : tokenHint token = some hint)
    (row : ServiceAccount) :
    row ∈ s.db.candidates now hint ∧ service.hashing.verify token row.tokenHash = true ↔
      row ∈ s.db.accounts ∧ Valid s now token row.id := by
  rw [ServiceAccountDb.candidates, mem_filter, decide_eq_true_eq]
  constructor
  · rintro ⟨⟨hrow, hactive, -, hexpiry⟩, hverify⟩
    obtain ⟨entry, hentry, hstored⟩ := h.accounts.entered row hrow
    obtain ⟨expiry, hsome⟩ := Option.isSome_iff_exists.1 hstored.expires
    have hlater : now < expiry := by simpa [hsome] using hexpiry
    refine ⟨hrow, ⟨entry, hentry, hstored.id.symm, ((hstored.verify_iff token).1 hverify).symm⟩, ?_⟩
    exact ⟨row, hrow, rfl, hactive, expiry, hsome, hlater⟩
  · rintro ⟨hrow, ⟨entry, hentry, hid, hsecret⟩, found, hfound, hfoundId, hactive, expiry, hexpiry,
      hlater⟩
    obtain rfl : found = row := h.accounts.rows.eq hfound hrow hfoundId
    obtain ⟨stored, hstoredRow, hstored⟩ := h.accounts.stored entry hentry
    obtain rfl : stored = found :=
      h.accounts.rows.eq hstoredRow hrow (hstored.id.trans hid)
    refine ⟨⟨hrow, hactive, ?_, ?_⟩, (hstored.verify_iff token).2 hsecret.symm⟩
    · rw [hstored.hint, hsecret, hhint]
    · rw [Option.mem_def.1 hexpiry]
      simpa using hlater

/-- The roles of an account are those in the ledger. -/
lemma Represents.roles_iff (h : Represents service s) (hentry : entry ∈ s.ledger) (name : String) :
    name ∈ (service.effectivePermissionsForServiceAccount s.db entry.id).roles ↔
      name ∈ entry.roles := by
  rw [ServiceAccountService.effectivePermissionsForServiceAccount, mem_dedup, mem_map]
  constructor
  · rintro ⟨role, hrole, rfl⟩
    obtain ⟨hrole, hassigned⟩ := mem_filter.1 hrole
    exact (h.roles.assigned entry hentry role hrole).1 (of_decide_eq_true hassigned)
  · intro hname
    obtain ⟨role, hrole, rfl⟩ := mem_map.1 (h.roles.known entry hentry name hname)
    have hassigned := (h.roles.assigned entry hentry role hrole).2 hname
    exact ⟨role, mem_filter.2 ⟨hrole, decide_eq_true hassigned⟩, rfl⟩

/-- A text is accepted for an account exactly if it is valid for it. -/
lemma Represents.accepted_iff (h : Represents service s) (scan : Scan) (now : ℤ) (token : String)
    (id : Uuid) :
    (∃ p, service.verifyServiceToken scan s.db now token = some (some p) ∧ p.id = id) ↔
      Valid s now token id := by
  rw [ServiceAccountService.verifyServiceToken]
  cases hhint : tokenHint token with
  | none =>
    refine iff_of_false (by simp) fun hvalid => ?_
    -- the hint of a secret that was issued is no panic
    obtain ⟨entry, hentry, -, rfl⟩ := hvalid.last
    obtain ⟨row, -, hstored⟩ := h.accounts.stored entry hentry
    have hinted := hstored.hinted
    rw [hhint] at hinted
    cases hinted
  | some hint =>
    have hfits := h.fits_iff now hhint
    constructor
    · rintro ⟨p, hverify, rfl⟩
      obtain ⟨row, hfind, rfl⟩ := Option.map_eq_some_iff.1 (Option.some.inj hverify)
      have hmem := (scan.perm _).mem_iff.1 (mem_of_find?_eq_some hfind)
      have hverify := find?_some hfind
      exact ((hfits row).1 ⟨hmem, hverify⟩).2
    · intro hvalid
      obtain ⟨row, hrow, rfl, -⟩ := hvalid.usable
      obtain ⟨hmem, hverify⟩ := (hfits row).2 ⟨hrow, hvalid⟩
      -- some candidate fits, and it is this one, since the secret has only one account
      cases hfind : (scan.arrange (s.db.candidates now hint)).find? fun row =>
          service.hashing.verify token row.tokenHash with
      | none =>
        exact absurd hverify (find?_eq_none.1 hfind row ((scan.perm _).mem_iff.2 hmem))
      | some found =>
        have hfound := (scan.perm _).mem_iff.1 (mem_of_find?_eq_some hfind)
        have hverify' := find?_some hfind
        have hvalid' := ((hfits found).1 ⟨hfound, hverify'⟩).2
        refine ⟨_, congrArg some (congrArg (Option.map _) hfind), ?_⟩
        exact h.id_of_last hvalid'.last hvalid.last

/-- What is accepted comes with the roles of its account. -/
lemma Represents.accepted_roles (h : Represents service s)
    (hverify : service.verifyServiceToken scan s.db now token = some (some p)) :
    ∃ entry ∈ s.ledger, entry.id = p.id ∧ ∀ name, name ∈ p.roles ↔ name ∈ entry.roles := by
  obtain ⟨entry, hentry, hid, -⟩ := ((h.accepted_iff scan now token p.id).1 ⟨p, hverify, rfl⟩).last
  obtain ⟨hint, -, hfind⟩ := Option.map_eq_some_iff.1 hverify
  obtain ⟨row, -, rfl⟩ := Option.map_eq_some_iff.1 hfind
  refine ⟨entry, hentry, hid, fun name => ?_⟩
  rw [← h.roles_iff hentry name, hid]

/-- **Secrets of service accounts.** After any sequence of operations that succeeded, with secrets that
are all different: a text is accepted for an account exactly if it is the account's last secret and the
account is active and not expired; this is so for one account at most, and it comes with exactly the roles
it was given last. -/
theorem verifyServiceToken_exact (service : ServiceAccountService) (roles : List IamRole)
    (roleKeys : Unique IamRole.id roles) (events : List (ServiceAccountOperation × Faults)) (s : State)
    (hrun : run (next service) (start roles roleKeys) events = some s)
    (hsecrets : (secrets events).Nodup) (scan : Scan) (now : ℤ) (token : String) :
    (∀ id, (∃ p, service.verifyServiceToken scan s.db now token = some (some p) ∧ p.id = id) ↔
      Valid s now token id) ∧
    (∀ id id', Valid s now token id → Valid s now token id' → id = id') ∧
    ∀ p, service.verifyServiceToken scan s.db now token = some (some p) →
      ∃ entry ∈ s.ledger, entry.id = p.id ∧ ∀ name, name ∈ p.roles ↔ name ∈ entry.roles := by
  have h : Represents service s :=
    represents_of_run (represents_start roles roleKeys) hrun hsecrets (by simp [start])
  refine ⟨h.accepted_iff scan now token, ?_, fun p => h.accepted_roles⟩
  intro id id' hvalid hvalid'
  exact h.id_of_last hvalid.last hvalid'.last

/-- Another secret, with the hint of `sampleToken`. -/
def otherToken : ServiceToken where
  text := "bbcdefghijklmnopqrstuvwxyzABCDEFGHIJKLMNOPQRSTUV"
  length_eq := by decide
  alphanumeric := all_eq_true.1 (by decide +kernel)

/-- Two accounts are created with secrets that have the same hint, and each secret is good for its own. -/
theorem colliding_hints_verified :
    let events : List (ServiceAccountOperation × Faults) :=
      [(.create 7 { token := sampleToken, salt := 0, now := 0 }
          { name := "ci", description := none, roles := ["auditor"], status := none, expiresAt := none },
          .none),
        (.create 8 { token := otherToken, salt := 0, now := 0 }
          { name := "cd", description := none, roles := [], status := none, expiresAt := none }, .none)]
    ∃ s, run (next plainAccounts) (start noAccounts.roles noAccounts.roleKeys) events = some s ∧
      (secrets events).Nodup ∧
      plainAccounts.verifyServiceToken ⟨id, fun _ => .refl _⟩ s.db 1 otherToken.text =
        some (some { id := 8, name := "cd", roles := [], permissions := [] }) ∧
      Valid s 1 otherToken.text 8 := by
  intro events
  have hsecrets : (secrets events).Nodup := by decide +kernel
  have hend : (run (next plainAccounts) (start noAccounts.roles noAccounts.roleKeys) events).any
      (fun s => plainAccounts.verifyServiceToken ⟨id, fun _ => .refl _⟩ s.db 1 otherToken.text =
        some (some { id := 8, name := "cd", roles := [], permissions := [] })) = true := by
    decide +kernel
  obtain ⟨s, hrun, hverify⟩ := (Option.any_eq_true _ _).1 hend
  have hverify := of_decide_eq_true hverify
  exact ⟨s, hrun, hsecrets, hverify,
    ((verifyServiceToken_exact plainAccounts _ _ events s hrun hsecrets ⟨id, fun _ => .refl _⟩ 1
      otherToken.text).1 8).1 ⟨_, hverify, rfl⟩⟩

end OpenDefender.System.ServiceTokens
