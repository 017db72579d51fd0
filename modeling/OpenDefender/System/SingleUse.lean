import OpenDefender.System.LocalSessions

/-!
How often a refresh token can be exchanged.

A rotation looks for a token that is not revoked when it starts, and revokes it when it ends, so of
rotations that overlap several return a pair for the same token. One that starts when no other is under
way with the token finds it revoked: `token_returned_once`. Once it is revoked, only those under way with
it return a pair: `returned_after_revocation`.

The invariant (`Inv`) is that the tokens under way and those for which a pair was returned are all
different, and the latter revoked.
-/

namespace OpenDefender.System.SingleUse

open Lib Run Pool Table Admin LocalSessions List
open scoped List

/-- The token that a grant takes. -/
def sourceToken (grant : Grant) : Option String := grant.source.map (·.1)

/-- The refresh tokens that rotations are under way with. -/
def underWay (exchanges : List Exchange) (grants : List Grant) : List String :=
  exchanges.map (·.token) ++ grants.filterMap sourceToken

/-- A rotation starts while no other is under way with its token. -/
def Alone (s : State) : Event → Prop
  | .present token => token ∉ underWay s.exchanges s.grants
  | _ => True

instance (s : State) (e : Event) : Decidable (Alone s e) := by
  unfold Alone
  split <;> infer_instance

/-! ### Tokens under way and tokens returned -/

/-- No token is twice under way or returned. -/
def Distinct (exchanges : List Exchange) (grants : List Grant) (returned : List String) : Prop :=
  (underWay exchanges grants ++ returned).Nodup

section Distinct

variable {exchanges : List Exchange} {grants : List Grant} {returned : List String} {i : ℕ}
  {x x' : Exchange} {g g' : Grant} {token : String}

lemma Distinct.present (h : Distinct exchanges grants returned)
    (hnew : x.token ∉ underWay exchanges grants ++ returned) :
    Distinct (exchanges ++ [x]) grants returned := by
  have hperm : (underWay (exchanges ++ [x]) grants ++ returned).Perm
      (x.token :: (underWay exchanges grants ++ returned)) := by
    simp only [underWay, map_append, map_cons, map_nil, append_assoc]
    exact perm_middle
  exact hperm.nodup_iff.2 (nodup_cons.2 ⟨hnew, h⟩)

lemma Distinct.setExchange (h : Distinct exchanges grants returned) (hi : exchanges[i]? = some x)
    (hx : x'.token = x.token) : Distinct (exchanges.set i x') grants returned := by
  rw [Distinct, underWay, map_set hi hx]
  exact h

lemma Distinct.setGrant (h : Distinct exchanges grants returned) (hi : grants[i]? = some g)
    (hg : sourceToken g' = sourceToken g) : Distinct exchanges (grants.set i g') returned := by
  rw [Distinct, underWay, filterMap_set hi hg]
  exact h

lemma Distinct.leaveExchange (h : Distinct exchanges grants returned) :
    Distinct (exchanges.eraseIdx i) grants returned := by
  refine h.sublist (List.Sublist.append_right (List.Sublist.append_right ?_ _) _)
  exact (eraseIdx_sublist exchanges i).map _

lemma Distinct.leaveGrant (h : Distinct exchanges grants returned) :
    Distinct exchanges (grants.eraseIdx i) returned := by
  refine h.sublist (List.Sublist.append_right (List.Sublist.append_left ?_ _) _)
  exact (eraseIdx_sublist grants i).filterMap _

lemma Distinct.login (h : Distinct exchanges grants returned) (hg : sourceToken g = none) :
    Distinct exchanges (grants ++ [g]) returned := by
  have hnone : [g].filterMap sourceToken = [] := by simp [hg]
  rw [Distinct, underWay, filterMap_append, hnone, append_nil]
  exact h

/-- A token goes from the exchanges to the grants. -/
lemma Distinct.exchanged (h : Distinct exchanges grants returned) (hi : exchanges[i]? = some x)
    (hg : sourceToken g = some x.token) :
    Distinct (exchanges.eraseIdx i) (grants ++ [g]) returned := by
  have hsome : [g].filterMap sourceToken = [x.token] := by simp [hg]
  have hperm : (underWay exchanges grants).Perm (underWay (exchanges.eraseIdx i) (grants ++ [g])) := by
    rw [underWay, underWay, filterMap_append, hsome, ← append_assoc]
    calc exchanges.map (·.token) ++ grants.filterMap sourceToken
        ~ (x :: exchanges.eraseIdx i).map (·.token) ++ grants.filterMap sourceToken :=
          ((perm_eraseIdx hi).map _).append_right _
      _ ~ ((exchanges.eraseIdx i).map (·.token) ++ grants.filterMap sourceToken) ++ [x.token] :=
          (perm_append_singleton _ _).symm
  exact (hperm.append_right returned).nodup_iff.1 h

/-- A token goes from the grants to those that a pair was returned for. -/
lemma Distinct.finish (h : Distinct exchanges grants returned) (hi : grants[i]? = some g)
    (hg : sourceToken g = some token) :
    Distinct exchanges (grants.eraseIdx i) (returned ++ [token]) := by
  have hcons : (g :: grants.eraseIdx i).filterMap sourceToken =
      token :: (grants.eraseIdx i).filterMap sourceToken := by simp [hg]
  have hperm : (underWay exchanges grants ++ returned).Perm
      (underWay exchanges (grants.eraseIdx i) ++ (returned ++ [token])) := by
    rw [underWay, underWay, ← append_assoc]
    calc exchanges.map (·.token) ++ grants.filterMap sourceToken ++ returned
        ~ exchanges.map (·.token) ++ (g :: grants.eraseIdx i).filterMap sourceToken ++ returned :=
          (((perm_eraseIdx hi).filterMap _).append_left _).append_right _
      _ = exchanges.map (·.token) ++ (token :: (grants.eraseIdx i).filterMap sourceToken) ++
            returned := by rw [hcons]
      _ ~ token :: (exchanges.map (·.token) ++ (grants.eraseIdx i).filterMap sourceToken) ++
            returned := perm_middle.append_right _
      _ ~ exchanges.map (·.token) ++ (grants.eraseIdx i).filterMap sourceToken ++ returned ++
            [token] := (perm_append_singleton _ _).symm
  exact hperm.nodup_iff.1 h

end Distinct

/-! ### The invariant -/

/-- The token is that of the row. -/
def HasRow (service : LocalService) (db : AuthDb) (token : String) (id : Uuid) : Prop :=
  ∃ row ∈ db.refreshTokens, row.id = id ∧ row.tokenHash = service.hashRefreshToken token

/-- The token is revoked. -/
def Spent (service : LocalService) (db : AuthDb) (token : String) : Prop :=
  ∃ row ∈ db.refreshTokens, row.tokenHash = service.hashRefreshToken token ∧ row.revokedAt ≠ none

structure Inv (service : LocalService) (s : State) : Prop where
  hashes : Unique RefreshToken.tokenHash s.db.refreshTokens
  exchanges : ∀ exchange ∈ s.exchanges, HasRow service s.db exchange.token exchange.row.id
  grants : ∀ grant ∈ s.grants, ∀ source ∈ grant.source, HasRow service s.db source.1 source.2
  returned : ∀ token ∈ s.returned, Spent service s.db token
  distinct : Distinct s.exchanges s.grants s.returned

section Step

variable {service : LocalService} {s s' : State} {e : Event}

lemma hashes_step (h : Step service s e s') (hinv : Inv service s) :
    Unique RefreshToken.tokenHash s'.db.refreshTokens := by
  obtain ⟨f, hlater, htokens⟩ | ⟨new, hhash, htokens⟩ := step_tokens h
  · rw [htokens]
    exact hinv.hashes.map fun row => (hlater row).tokenHash
  · rw [htokens]
    exact hinv.hashes.concat hhash

/-- Each row is still there. -/
lemma exists_later (h : Step service s e s') (hrow : row ∈ s.db.refreshTokens) :
    ∃ row' ∈ s'.db.refreshTokens, Later row row' := by
  obtain ⟨f, hlater, htokens⟩ | ⟨new, -, htokens⟩ := step_tokens h
  · rw [htokens]
    exact ⟨f row, mem_map_of_mem hrow, hlater row⟩
  · rw [htokens]
    exact ⟨row, mem_append_left _ hrow, .refl row⟩

lemma HasRow.step (h : Step service s e s') {id : Uuid} (hrow : HasRow service s.db token id) :
    HasRow service s'.db token id := by
  obtain ⟨row, hmem, hid, hhash⟩ := hrow
  obtain ⟨row', hmem', hlater⟩ := exists_later h hmem
  exact ⟨row', hmem', hlater.id.trans hid, hlater.tokenHash.trans hhash⟩

lemma Spent.step (h : Step service s e s') (hspent : Spent service s.db token) :
    Spent service s'.db token := by
  obtain ⟨row, hmem, hhash, hrevoked⟩ := hspent
  obtain ⟨row', hmem', hlater⟩ := exists_later h hmem
  exact ⟨row', hmem', hlater.tokenHash.trans hhash, hlater.revoked hrevoked⟩

/-- A live token has not been returned a pair for. -/
lemma not_mem_returned (hinv : Inv service s)
    (hrow : s.db.findLive (service.hashRefreshToken token) s.clock = some row) :
    token ∉ s.returned := by
  intro hmem
  obtain ⟨hlive, hhash, hrevoked, -⟩ := findLive_some hrow
  obtain ⟨row', hrow', hhash', hspent⟩ := hinv.returned token hmem
  rw [hinv.hashes.eq hrow' hlive (hhash'.trans hhash.symm)] at hspent
  exact hspent hrevoked

end Step

lemma inv_next (s : State) (e : Event) (s' : State) (hinv : Inv service s) (hok : Alone s e)
    (h : next service s e = some s') : Inv service s' := by
  have hstep := step_of_next h
  have hexchanges : ∀ exchange ∈ s.exchanges, HasRow service s'.db exchange.token exchange.row.id :=
    fun exchange hmem => (hinv.exchanges exchange hmem).step hstep
  have hgrants : ∀ grant ∈ s.grants, ∀ source ∈ grant.source, HasRow service s'.db source.1 source.2 :=
    fun grant hmem source hsource => (hinv.grants grant hmem source hsource).step hstep
  have hreturned : ∀ token ∈ s.returned, Spent service s'.db token :=
    fun token hmem => (hinv.returned token hmem).step hstep
  have hhashes := hashes_step hstep hinv
  cases hstep with
  | loggedIn hi =>
    exact ⟨hhashes, hexchanges, forall_concat (by simp) hgrants, hreturned, hinv.distinct.login rfl⟩
  | @present token row hrow =>
    obtain ⟨hmem, hhash, -⟩ := findLive_some hrow
    refine ⟨hhashes, forall_concat ⟨row, hmem, rfl, hhash⟩ hexchanges, hgrants, hreturned,
      hinv.distinct.present fun hmem => ?_⟩
    obtain hmem | hmem := mem_append.1 hmem
    · exact hok hmem
    · exact not_mem_returned hinv hrow hmem
  | readStatus hi | mismatched hi =>
    have hrow := hexchanges _ (mem_of_getElem? hi)
    exact ⟨hhashes, forall_set hrow (forall_eraseIdx hexchanges), hgrants, hreturned,
      hinv.distinct.setExchange hi rfl⟩
  | exchanged hi =>
    have hrow := hexchanges _ (mem_of_getElem? hi)
    refine ⟨hhashes, forall_eraseIdx hexchanges, forall_concat ?_ hgrants, hreturned,
      hinv.distinct.exchanged hi rfl⟩
    rintro _ ⟨⟩
    exact hrow
  | revokeMismatch hi | leaveExchange e i =>
    exact ⟨hhashes, forall_eraseIdx hexchanges, hgrants, hreturned, hinv.distinct.leaveExchange⟩
  | readVersion hi | insert hi | enforce hi =>
    have hsource := hgrants _ (mem_of_getElem? hi)
    exact ⟨hhashes, hexchanges, forall_set hsource (forall_eraseIdx hgrants), hreturned,
      hinv.distinct.setGrant hi rfl⟩
  | @finish i userId id replacementId token tokenHash stamp hi =>
    refine ⟨hhashes, hexchanges, forall_eraseIdx hgrants, forall_concat ?_ hreturned,
      hinv.distinct.finish hi rfl⟩
    -- the row of the token is revoked now
    obtain ⟨row, hrow, rfl, hhash⟩ := hinv.grants _ (mem_of_getElem? hi) _ rfl
    refine ⟨_, mem_map_of_mem hrow, ?_⟩
    rw [if_pos rfl]
    exact ⟨hhash, Option.some_ne_none _⟩
  | leaveGrant e i =>
    exact ⟨hhashes, hexchanges, forall_eraseIdx hgrants, hreturned, hinv.distinct.leaveGrant⟩
  | _ => exact ⟨hhashes, hexchanges, hgrants, hreturned, hinv.distinct⟩

/-- **A refresh token is exchanged once.** In every run in which a rotation starts only while no other is
under way with its token, at most one rotation returns a pair for a token. -/
theorem token_returned_once (service : LocalService) (clock : ℕ) (db : AuthDb)
    (hhashes : Unique RefreshToken.tokenHash db.refreshTokens) (es : List Event)
    (hguard : Guarded (next service) Alone (start clock db) es) (t : State)
    (hrun : run (next service) (start clock db) es = some t) (token : String) :
    t.returned.count token ≤ 1 := by
  have hstart : Inv service (start clock db) :=
    ⟨hhashes, by simp [start], by simp [start], by simp [start], by simp [start, Distinct, underWay]⟩
  have hinv : Inv service t := Guarded.invariant (Inv service) inv_next hstart hguard hrun
  have hnodup : t.returned.Nodup := hinv.distinct.of_append_right
  exact nodup_iff_count_le_one.1 hnodup token

/-- Two rotations of one token that overlap: both have found it before the first one revokes it. -/
def rotatedTwice : List Event :=
  [.present "old", .present "old", .readStatus 0, .readStatus 1, .compare 0, .compare 0,
    .readVersion 0, .insert 0 { id := 21, token := "new-1" }, .enforce 0 plainRanking, .finish 0,
    .readVersion 0, .insert 0 { id := 22, token := "new-2" }, .enforce 0 plainRanking, .finish 0]

/-- Both return a pair, and both new tokens are live. -/
theorem token_returned_twice :
    (run (next plainService) (start 3 (plainDb [plainSession 11 "old" 1])) rotatedTwice).map (fun t =>
        (t.returned, (t.db.sessions 1 3).map (·.tokenHash))) =
      some (["old", "old"], ["new-1", "new-2"]) := by
  decide +kernel

/-- The second rotation starts when the first one has returned. -/
def rotatedInOrder : List Event :=
  [.present "old", .readStatus 0, .compare 0, .readVersion 0,
    .insert 0 { id := 21, token := "new-1" }, .enforce 0 plainRanking, .finish 0, .present "old"]

/-- It does not find the token. -/
theorem token_returned_in_order :
    ∃ t, run (next plainService) (start 3 (plainDb [plainSession 11 "old" 1])) rotatedInOrder = some t ∧
      t.exchanges.length = 0 ∧ t.returned = ["old"] ∧ t.returned.count "old" ≤ 1 := by
  refine exists_of_any (fun t => t.exchanges.length = 0 ∧ t.returned = ["old"]) (by decide +kernel)
    fun t hrun hresult => ?_
  obtain ⟨hexchanges, hreturned⟩ := of_decide_eq_true hresult
  refine ⟨hexchanges, hreturned, ?_⟩
  exact token_returned_once plainService 3 _ (by decide) rotatedInOrder (by decide +kernel) t hrun "old"

/-! ### Revoked tokens -/

/-- How often a token is under way or was returned a pair for. -/
def uses (s : State) (token : String) : ℕ :=
  (s.exchanges.map (·.token)).count token + (s.grants.filterMap sourceToken).count token +
    s.returned.count token

/-- Only a rotation that finds a token live makes one more use of it. -/
lemma uses_step (h : Step service s e s')
    (hdead : ∀ now, s.db.findLive (service.hashRefreshToken token) now = none) :
    uses s' token ≤ uses s token := by
  have hexchange (i : ℕ) := ((eraseIdx_sublist s.exchanges i).map (·.token)).count_le token
  have hgrant (i : ℕ) := ((eraseIdx_sublist s.grants i).filterMap sourceToken).count_le token
  cases h with
  | @present other row hrow =>
    have hne : other ≠ token := by
      rintro rfl
      rw [hdead] at hrow
      cases hrow
    simp [uses, hne]
  | loggedIn hi => simp [uses, State.loggedIn, sourceToken, filterMap_cons]
  | readStatus hi | mismatched hi =>
    rw [uses, uses, map_set hi]
    rfl
  | readVersion hi | insert hi | enforce hi =>
    rw [uses, uses, filterMap_set hi]
    rfl
  | exchanged hi =>
    have hcount := ((perm_eraseIdx hi).map (·.token)).count_eq token
    simp [uses, State.exchanged, sourceToken, count_cons] at hcount ⊢
    omega
  | finish hi =>
    have hcount := ((perm_eraseIdx hi).filterMap sourceToken).count_eq token
    simp [uses, sourceToken, count_cons] at hcount ⊢
    omega
  | revokeMismatch hi => simpa [uses] using hexchange _
  | leaveExchange e i => simpa [uses, State.leaveExchange] using hexchange i
  | leaveGrant e i => simpa [uses, State.leaveGrant] using hgrant i
  | _ => exact le_rfl

/-- The token is known, and revoked. -/
def Revoked (service : LocalService) (db : AuthDb) (token : String) : Prop :=
  service.hashRefreshToken token ∈ db.refreshTokens.map (·.tokenHash) ∧
    ∀ row ∈ db.refreshTokens, row.tokenHash = service.hashRefreshToken token → row.revokedAt ≠ none

lemma Revoked.findLive (h : Revoked service db token) (now : ℕ) :
    db.findLive (service.hashRefreshToken token) now = none := by
  refine Option.eq_none_iff_forall_ne_some.2 fun row hrow => ?_
  obtain ⟨hmem, hhash, hlive, -⟩ := findLive_some hrow
  exact h.2 row hmem hhash hlive

/-- It stays so, as no new token can have its hash. -/
lemma Revoked.step (hstep : Step service s e s') (h : Revoked service s.db token) :
    Revoked service s'.db token := by
  obtain ⟨f, hlater, htokens⟩ | ⟨new, hhash, htokens⟩ := step_tokens hstep
  · rw [Revoked, htokens, map_key_map fun row => (hlater row).tokenHash]
    refine ⟨h.1, forall_mem_map.2 fun row hrow hsame => (hlater row).revoked (h.2 row hrow ?_)⟩
    exact (hlater row).tokenHash.symm.trans hsame
  · rw [Revoked, htokens, map_append]
    refine ⟨mem_append_left _ h.1, forall_concat (fun hsame => ?_) h.2⟩
    exact absurd (hsame ▸ h.1) hhash

/-- **A revoked token is not taken again.** Whatever overlaps: once a token is revoked, pairs are returned
for it only by the rotations that were under way with it. -/
theorem returned_after_revocation (service : LocalService) (s t : State) (es : List Event)
    (token : String) (hrevoked : Revoked service s.db token)
    (hrun : run (next service) s es = some t) :
    t.returned.count token ≤
      s.returned.count token + (underWay s.exchanges s.grants).count token := by
  have huses := measure_of_step (fun m => Revoked service m.db token) (uses · token) (fun _ => false)
    (fun m e m' hm hnext => ⟨hm.step (step_of_next hnext), uses_step (step_of_next hnext) hm.findLive⟩)
    hrevoked hrun
  simp only [uses, countP_false, Function.const_apply] at huses
  rw [underWay, count_append]
  omega

/-- A rotation is under way when its token is revoked; another that starts then does not find it. -/
theorem returned_after_logout :
    let s : State := { start 3 (plainDb [{ plainSession 11 "old" 1 with revokedAt := some 2 }]) with
      grants := [⟨1, some ("old", 11), 0, .start⟩] }
    ∃ t, run (next plainService) s [.present "old", .readVersion 0,
        .insert 0 { id := 21, token := "new" }, .enforce 0 plainRanking, .finish 0] = some t ∧
      t.returned = ["old"] ∧ t.returned.count "old" ≤ 1 := by
  intro s
  refine exists_of_run (by decide +kernel) fun t hrun _ => ?_
  exact returned_after_revocation plainService s t _ "old" ⟨by decide, by decide⟩ hrun

end OpenDefender.System.SingleUse
