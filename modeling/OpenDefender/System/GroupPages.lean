import OpenDefender.Admin.Iam
import OpenDefender.Admin.Pagination
import OpenDefender.Lib.Outcome

/-!
The pages of the groups (`list_groups_route` of `services/admin-api/src/iam.rs`).

Groups are listed by name and id, and a cursor holds the name and id of the last group of a page. The query
takes the empty name for the absence of a cursor. `create_group` refuses an empty name, but `update_group`
does not: with one group to a page, a group renamed to the empty text is a page whose cursor leads to that
same page again. `group_walk_iff` says that in all other cases a walk visits every group once and ends.
-/

namespace OpenDefender.System.GroupPages

open Admin Lib Lib.FirstMatch Lib.Keyset Text List

/-! ### The listing -/

/-- How the database compares texts: by keys that tell texts apart, the key of the empty text before
all others. -/
structure Collation where
  sortKey : String → List ℕ
  injective : Function.Injective sortKey
  sortKey_empty : sortKey "" = []

/-- `GroupCursor`. -/
structure GroupCursor where
  name : String
  id : Uuid
  deriving DecidableEq, Repr

variable (collation : Collation) (db : IamDb)

/-- `(name, id)`, in the order of SQL. -/
def GroupCursor.place (cursor : GroupCursor) : List ℕ ×ₗ Uuid :=
  toLex (collation.sortKey cursor.name, cursor.id)

/-- The cursor at a group. -/
def anchorOf (group : IamGroup) : GroupCursor where
  name := group.name
  id := group.id

/-- The place of a group in the listing. -/
def place (collation : Collation) (group : IamGroup) : List ℕ ×ₗ Uuid :=
  (anchorOf group).place collation

/-- The two queries of `list_groups_route`. Without a cursor the name is empty. -/
def selectGroups (groups : List IamGroup) (direction : CursorDirection)
    (anchor : Option GroupCursor) : List IamGroup :=
  let cursor := anchor.getD { name := "", id := Uuid.nil }
  match direction with
  | .prev => sortBy (OrderDual.toDual ∘ place collation) (groups.filter fun group =>
    cursor.name = "" ∨ place collation group < cursor.place collation)
  | .next => sortBy (place collation) (groups.filter fun group =>
    cursor.name = "" ∨ cursor.place collation < place collation group)

/-- `GroupDetails`. -/
structure GroupDetails where
  group : IamGroup
  members : List IamUser
  roles : List String
  deriving DecidableEq, Repr

/-- `list_group_members`: by email, those without one last. -/
def listGroupMembers (groupId : Uuid) : List IamUser :=
  let members := db.groupMembers.filterMap fun member =>
    if member.1 = groupId then db.users.find? (·.id = member.2) else none
  sortBy
    (fun user =>
      match user.email with
      | none => (⊤ : WithTop (List ℕ))
      | some email => collation.sortKey email)
    members

/-- `group_roles`. -/
def groupRoleNames (groupId : Uuid) : List String :=
  let roles := db.groupRoles.filterMap fun assigned =>
    if assigned.1 = groupId then db.roles.find? (·.id = assigned.2) else none
  sortBy collation.sortKey (roles.map (·.name))

/-- The details of a group. -/
def groupDetails (group : IamGroup) : GroupDetails where
  group := group
  members := listGroupMembers collation db group.id
  roles := groupRoleNames collation db group.id

/-- The answer to a request that is refused: status, code and message. -/
structure Refusal where
  status : ℕ
  code : String
  message : String
  deriving DecidableEq, Repr

variable {τ : Type}

/-- `list_groups_route`. -/
def listGroupsRoute (codec : CursorCodec GroupCursor τ) (collation : Collation) (db : IamDb)
    (limit : Option ℕ) (cursor : Option τ) : Except Refusal (CursorPaged GroupDetails τ) :=
  match cursorPage codec anchorOf (selectGroups collation db.groups) (cursorLimit limit) cursor with
  | .error message => .error { status := 400, code := "INVALID_CURSOR", message }
  | .ok page =>
    .ok { data := page.data.map (groupDetails collation db), pageMeta := page.pageMeta }

/-! ### Walks -/

/-- The pages from one page on by `next_cursor`, if the walk ends within so many of them. -/
def followNext {ρ ε : Type} (list : Option τ → Except ε (CursorPaged ρ τ)) :
    ℕ → CursorPaged ρ τ → Option (List (CursorPaged ρ τ))
  | 0, _ => none
  | fuel + 1, page =>
    match page.pageMeta.nextCursor with
    | none => some [page]
    | some cursor =>
      (list (some cursor)).toOption.bind fun page' => (followNext list fuel page').map (page :: ·)

/-- From the first page the walk ends, and has come to every group exactly once. -/
def VisitsEachOnce (codec : CursorCodec GroupCursor τ) (collation : Collation) (db : IamDb)
    (limit : Option ℕ) : Prop :=
  ∃ first fuel pages, listGroupsRoute codec collation db limit none = .ok first ∧
    followNext (listGroupsRoute codec collation db limit) fuel first = some pages ∧
    ((pages.flatMap (·.data)).map (·.group)).Perm db.groups

/-! ### Groups that can be stored -/

/-- The calls that write groups. -/
inductive GroupCall where
  | create (id : Uuid) (payload : CreateGroupRequest)
  | update (id : Uuid) (payload : UpdateGroupRequest)

/-- The operation of a call. -/
def GroupCall.operation : GroupCall → IamOperation
  | .create id payload => .createGroup id payload
  | .update id payload => .updateGroup id payload

/-- The tables after some calls. -/
def afterCalls (db : IamDb) (calls : List GroupCall) : IamDb :=
  calls.foldl (fun db call => db.after call.operation) db

/-- What the constraints of the table say. -/
structure GroupsUnique (groups : List IamGroup) : Prop where
  ids : Table.Unique (·.id) groups
  names : Table.Unique (·.name) groups

/-- A row that violates no constraint. -/
lemma violation_eq_none {others : List IamGroup} {group : IamGroup}
    (h : group.violation others = none) :
    group.id ∉ others.map (·.id) ∧ group.name ∉ others.map (·.name) := by
  rw [IamGroup.violation] at h
  split_ifs at h with hstatus hid hname
  exact ⟨hid, hname⟩

variable {db : IamDb}

lemma GroupsUnique.createGroup {db' : IamDb} {id : Uuid} (h : GroupsUnique db.groups)
    (hcreate : db.createGroup id payload = .ok db') : GroupsUnique db'.groups := by
  rw [IamDb.createGroup] at hcreate
  split at hcreate
  · cases hcreate
  · rename_i hnone
    cases hcreate
    obtain ⟨hid, hname⟩ := violation_eq_none hnone
    exact ⟨h.ids.concat hid, h.names.concat hname⟩

/-- A row changed in place keeps unique what is unique beside the others. -/
lemma unique_map_update {κ : Type} {key : IamGroup → κ} {change : IamGroup → IamGroup}
    (hids : Table.Unique (·.id) groups) (hkeys : Table.Unique key groups) (hgroup : group ∈ groups)
    (hnew : key (change group) ∉ (groups.filter fun other => other.id ≠ group.id).map key) :
    Table.Unique key (groups.map fun g => if g.id = group.id then change g else g) := by
  rw [Table.Unique, map_map]
  refine pairwise_map.2 ?_
  have hpairs : groups.Pairwise fun a b => a.id ≠ b.id ∧ key a ≠ key b :=
    (pairwise_map.1 hids).and (pairwise_map.1 hkeys)
  refine hpairs.imp_of_mem ?_
  intro a b ha hb hne
  have hother : ∀ g ∈ groups, g.id ≠ group.id → key g ≠ key (change group) := by
    intro g hg hgid heq
    refine hnew (heq ▸ mem_map_of_mem (mem_filter.2 ⟨hg, by simpa using hgid⟩))
  have hown : ∀ g ∈ groups, g.id = group.id → g = group := fun g hg hgid => hids.eq hg hgroup hgid
  dsimp only [Function.comp_apply]
  split_ifs with hag hbg hbg
  · exact absurd (hag.trans hbg.symm) hne.1
  · rw [hown a ha hag]
    exact (hother b hb hbg).symm
  · rw [hown b hb hbg]
    exact hother a ha hag
  · exact hne.2

lemma GroupsUnique.updateGroup {db' : IamDb} {id : Uuid} (h : GroupsUnique db.groups)
    (hupdate : db.updateGroup id payload = .ok db') : GroupsUnique db'.groups := by
  rw [IamDb.updateGroup] at hupdate
  split at hupdate
  · cases hupdate
  · rename_i group hfind
    split at hupdate
    · cases hupdate
    · rename_i hnone
      cases hupdate
      have hgroup := mem_of_find?_eq_some hfind
      obtain rfl : group.id = id := by simpa using find?_some hfind
      obtain ⟨-, hname⟩ := violation_eq_none hnone
      refine ⟨h.ids.map fun g => ?_, unique_map_update h.ids h.names hgroup hname⟩
      split_ifs <;> rfl

/-- A call keeps the groups unique. -/
lemma GroupsUnique.after (h : GroupsUnique db.groups) (call : GroupCall) :
    GroupsUnique (db.after call.operation).groups := by
  rw [IamDb.after]
  cases hperform : call.operation.perform db with
  | error _ => exact h
  | ok db' =>
    obtain ⟨-, -, hwrite⟩ := Outcome.bind_ok.1 hperform
    cases call with
    | create id payload => exact h.createGroup hwrite
    | update id payload => exact h.updateGroup hwrite

lemma GroupsUnique.afterCalls (h : GroupsUnique db.groups) (calls : List GroupCall) :
    GroupsUnique (afterCalls db calls).groups := by
  induction calls generalizing db with
  | nil => exact h
  | cons call calls ih => exact ih (h.after call)

lemma groupsUnique_afterCalls (hstart : db.groups = []) (calls : List GroupCall) :
    GroupsUnique (afterCalls db calls).groups :=
  GroupsUnique.afterCalls (by rw [hstart]; exact ⟨nodup_nil, nodup_nil⟩) calls

/-! ### Around a group -/

variable {codec : CursorCodec GroupCursor τ} {collation : Collation} {groups before after : List IamGroup}
  {group : IamGroup} {db : IamDb} {limit : Option ℕ} {i : ℕ}

/-- The groups in the order of the listing. -/
def byName (collation : Collation) (groups : List IamGroup) : List IamGroup :=
  sortBy (place collation) groups

lemma unique_place (hids : Table.Unique (·.id) groups) : Table.Unique (place collation) groups := by
  refine pairwise_map.2 ((pairwise_map.1 hids).imp fun hne heq => hne ?_)
  exact congrArg (fun spot => (ofLex spot).2) heq

lemma select_first : selectGroups collation groups .next none = byName collation groups := by
  rw [selectGroups, byName]
  rw [filter_eq_self.2 (by simp)]

/-- A cursor at a group without a name starts again. -/
lemma select_after_empty (hname : group.name = "") :
    selectGroups collation groups .next (some (anchorOf group)) = byName collation groups := by
  rw [selectGroups, byName]
  rw [filter_eq_self.2 (by simp [anchorOf, hname])]

lemma select_after (hids : Table.Unique (·.id) groups) (hname : group.name ≠ "")
    (hrows : byName collation groups = before ++ group :: after) :
    selectGroups collation groups .next (some (anchorOf group)) = after := by
  have hgreater := sortBy_greater (unique_place hids) hrows
  rw [selectGroups, ← hgreater]
  congr 1
  exact filter_congr fun other _ => decide_eq_decide.2 (or_iff_right hname)

/-- A group without a name comes first. -/
lemma before_eq_nil (hunique : GroupsUnique groups) (hname : group.name = "")
    (hrows : byName collation groups = before ++ group :: after) : before = [] := by
  rw [eq_nil_iff_forall_not_mem]
  intro other hother
  have hincreasing : Increasing (place collation) (sortBy (place collation) groups) :=
    increasing_sortBy (unique_place hunique.ids)
  have hmem : ∀ g ∈ before ++ group :: after, g ∈ groups := by
    rw [← hrows]
    exact fun g hg => mem_sortBy.1 hg
  rw [show sortBy (place collation) groups = before ++ group :: after from hrows, Increasing,
    pairwise_append] at hincreasing
  have hlt := hincreasing.2.2 other hother group mem_cons_self
  have hkey : collation.sortKey group.name = [] := by rw [hname, collation.sortKey_empty]
  rcases Prod.Lex.lt_iff.1 hlt with hfirst | ⟨hfirst, -⟩
  · -- nothing is smaller than the key of the empty text
    rw [show (ofLex (place collation group)).1 = [] from hkey] at hfirst
    exact absurd hfirst (not_lt_nil _)
  · have hsame : other.name = group.name := collation.injective hfirst
    have heq := hunique.names.eq (hmem other (by simp [hother])) (hmem group (by simp)) hsame
    rw [heq] at hlt
    exact absurd hlt (lt_irrefl _)

/-! ### The pages of a walk -/

/-- The page of the `i`-th block. -/
def groupPage (codec : CursorCodec GroupCursor τ) (collation : Collation) (db : IamDb)
    (limit : Option ℕ) (i : ℕ) : CursorPaged GroupDetails τ where
  data := (block (cursorLimit limit) i (byName collation db.groups)).map (groupDetails collation db)
  pageMeta := (blockPage codec anchorOf (byName collation db.groups) (cursorLimit limit) i).pageMeta

lemma listGroupsRoute_first :
    listGroupsRoute codec collation db limit none = .ok (groupPage codec collation db limit 0) := by
  rw [listGroupsRoute, cursorPage_first select_first]
  rfl

/-- The page behind a cursor at a named group is the next block. -/
lemma listGroupsRoute_next (hunique : GroupsUnique db.groups)
    (hmore : (i + 1) * cursorLimit limit < (byName collation db.groups).length)
    (hname : group.name ≠ "")
    (hrows : byName collation db.groups =
      before ++ group :: (byName collation db.groups).drop ((i + 1) * cursorLimit limit)) :
    listGroupsRoute codec collation db limit (some (codec.encode .next (anchorOf group))) =
      .ok (groupPage codec collation db limit (i + 1)) := by
  rw [listGroupsRoute, cursorPage_next (cursorLimit_pos limit)
    (select_after hunique.ids hname hrows) hmore]
  rfl

/-- One group to a page, the first of them without a name, and others behind it. -/
def Stuck (db : IamDb) (limit : Option ℕ) : Prop :=
  cursorLimit limit = 1 ∧ "" ∈ db.groups.map (·.name) ∧ 2 ≤ db.groups.length

instance (db : IamDb) (limit : Option ℕ) : Decidable (Stuck db limit) :=
  inferInstanceAs (Decidable (_ ∧ _ ∧ _))

lemma length_byName (collation : Collation) (groups : List IamGroup) :
    (byName collation groups).length = groups.length :=
  (sortBy_perm _ _).length_eq

/-- A page with others behind it ends in a named group. -/
lemma name_ne_empty_of_last (hunique : GroupsUnique db.groups) (hstuck : ¬Stuck db limit)
    (hmore : (i + 1) * cursorLimit limit < (byName collation db.groups).length)
    (hrows : byName collation db.groups =
      before ++ group :: (byName collation db.groups).drop ((i + 1) * cursorLimit limit)) :
    group.name ≠ "" := by
  intro hname
  have hbefore := before_eq_nil hunique hname hrows
  subst hbefore
  have hlength := congrArg List.length hrows
  rw [nil_append, length_cons, length_drop] at hlength
  have hlimit := cursorLimit_pos limit
  have hpage : (i + 1) * cursorLimit limit = i * cursorLimit limit + cursorLimit limit :=
    Nat.add_one_mul i _
  have hmem : group ∈ db.groups := by
    refine mem_sortBy.1 (?_ : group ∈ byName collation db.groups)
    rw [hrows]
    exact mem_append_right _ mem_cons_self
  refine hstuck ⟨by omega, mem_map.2 ⟨group, hmem, hname⟩, ?_⟩
  rw [← length_byName collation db.groups]
  omega

/-- With enough fuel the walk from a block on comes to the groups from there on. -/
lemma followNext_groupPage (codec : CursorCodec GroupCursor τ) (collation : Collation)
    (hunique : GroupsUnique db.groups) (hstuck : ¬Stuck db limit) (fuel : ℕ)
    (hfuel : (byName collation db.groups).length ≤ (i + fuel) * cursorLimit limit) :
    ∃ pages, followNext (listGroupsRoute codec collation db limit) (fuel + 1)
        (groupPage codec collation db limit i) = some pages ∧
      (pages.flatMap (·.data)).map (·.group) =
        (byName collation db.groups).drop (i * cursorLimit limit) := by
  have hgroups : ∀ page : List IamGroup,
      (page.map (groupDetails collation db)).map (·.group) = page := fun page => by
    simp [Function.comp_def, groupDetails]
  induction fuel generalizing i with
  | zero =>
    have hlast : ¬(i + 1) * cursorLimit limit < (byName collation db.groups).length := by
      rw [Nat.add_zero] at hfuel
      rw [Nat.add_one_mul]
      omega
    refine ⟨[groupPage codec collation db limit i], ?_, ?_⟩
    · rw [followNext, groupPage, blockPage, if_neg hlast]
    · rw [flatMap_singleton, groupPage, hgroups, block,
        drop_eq_nil_iff.2 (by simpa using hfuel), take_nil]
  | succ fuel ih =>
    by_cases hmore : (i + 1) * cursorLimit limit < (byName collation db.groups).length
    · obtain ⟨before, group, hend, hrows⟩ := exists_last_of_block (cursorLimit_pos limit)
        (show i * cursorLimit limit < (byName collation db.groups).length by
          rw [Nat.add_one_mul] at hmore
          omega)
      have hname := name_ne_empty_of_last hunique hstuck hmore hrows
      have hnext : listGroupsRoute codec collation db limit
          (some (codec.encode .next (anchorOf group))) = .ok (groupPage codec collation db limit (i + 1)) :=
        listGroupsRoute_next hunique hmore hname hrows
      obtain ⟨pages, hrun, hpages⟩ := ih (i := i + 1) (by
        rwa [show i + 1 + fuel = i + (fuel + 1) by omega])
      refine ⟨groupPage codec collation db limit i :: pages, ?_, ?_⟩
      · rw [followNext]
        have hcursor : (groupPage codec collation db limit i).pageMeta.nextCursor =
            some (codec.encode .next (anchorOf group)) := by
          rw [groupPage, blockPage, if_pos hmore, hend]
          rfl
        rw [hcursor]
        dsimp only
        rw [hnext]
        show (followNext _ (fuel + 1) _).map _ = _
        rw [hrun]
        rfl
      · rw [flatMap_cons, map_append, hpages, groupPage, hgroups, block_append_drop]
    · refine ⟨[groupPage codec collation db limit i], ?_, ?_⟩
      · rw [followNext, groupPage, blockPage, if_neg hmore]
      · have hrest : (byName collation db.groups).drop ((i + 1) * cursorLimit limit) = [] :=
          drop_eq_nil_iff.2 (by omega)
        rw [flatMap_singleton, groupPage, hgroups, ← block_append_drop (l := byName collation db.groups),
          hrest, append_nil]

/-- A page that ends in the group without a name never ends the walk. -/
lemma followNext_eq_none (hone : cursorLimit limit = 1) (hname : group.name = "")
    (hrows : byName collation db.groups = group :: after) (hafter : after ≠ [])
    (hpage : page.pageMeta.nextCursor = some (codec.encode .next (anchorOf group))) (fuel : ℕ) :
    followNext (listGroupsRoute codec collation db limit) fuel page = none := by
  induction fuel generalizing page with
  | zero => rfl
  | succ fuel ih =>
    have hdecode : decodeCursor codec (some (codec.encode .next (anchorOf group))) =
        .ok (.next, some (anchorOf group)) := by
      rw [decodeCursor, codec.decode_encode]
      rfl
    have hdata : (byName collation db.groups).take (cursorLimit limit) = [group] := by
      rw [hrows, hone]
      rfl
    have hmore : cursorLimit limit < (byName collation db.groups).length := by
      rw [hrows, hone, length_cons]
      have := length_pos_of_ne_nil hafter
      omega
    rw [followNext, hpage]
    dsimp only
    rw [listGroupsRoute, cursorPage_eq hdecode (select_after_empty hname) hdata]
    show (followNext _ fuel _).map _ = none
    rw [ih (by dsimp only; rw [if_pos hmore]; rfl)]
    rfl

lemma not_visitsEachOnce (codec : CursorCodec GroupCursor τ) (collation : Collation)
    (hunique : GroupsUnique db.groups) (hstuck : Stuck db limit) :
    ¬VisitsEachOnce codec collation db limit := by
  rintro ⟨first, fuel, pages, hfirst, hrun, -⟩
  obtain ⟨hone, hempty, htwo⟩ := hstuck
  obtain ⟨group, hgroup, hname⟩ := mem_map.1 hempty
  obtain ⟨before, after, hrows⟩ := append_of_mem
    (show group ∈ byName collation db.groups from mem_sortBy.2 hgroup)
  have hbefore := before_eq_nil hunique hname hrows
  subst hbefore
  rw [nil_append] at hrows
  have hlength := length_byName collation db.groups
  rw [hrows, length_cons] at hlength
  have hafter : after ≠ [] := ne_nil_of_length_pos (by omega)
  rw [listGroupsRoute_first] at hfirst
  cases hfirst
  have hcursor : (groupPage codec collation db limit 0).pageMeta.nextCursor =
      some (codec.encode .next (anchorOf group)) := by
    rw [groupPage, blockPage, hrows, hone, if_pos (by rw [length_cons]; omega)]
    rfl
  rw [followNext_eq_none hone hname hrows hafter hcursor] at hrun
  cases hrun

/-- **Walks over the groups.** From any groups that `create_group` and `update_group` have stored, following
`next_cursor` from the first page ends and visits every group exactly once, unless there is one group to a
page, a group has been renamed to the empty text, and there is another one. -/
theorem group_walk_iff {τ : Type} (codec : CursorCodec GroupCursor τ) (collation : Collation)
    (db : IamDb) (hstart : db.groups = []) (calls : List GroupCall) (limit : Option ℕ) :
    VisitsEachOnce codec collation (afterCalls db calls) limit ↔
      ¬(cursorLimit limit = 1 ∧ "" ∈ (afterCalls db calls).groups.map (·.name) ∧
        2 ≤ (afterCalls db calls).groups.length) := by
  have hunique : GroupsUnique (afterCalls db calls).groups := groupsUnique_afterCalls hstart calls
  generalize afterCalls db calls = db at hunique ⊢
  constructor
  · exact fun hvisits hstuck => not_visitsEachOnce codec collation hunique hstuck hvisits
  · intro hstuck
    obtain ⟨pages, hrun, hpages⟩ := followNext_groupPage codec collation (i := 0) hunique hstuck
      (byName collation db.groups).length (by
        rw [Nat.zero_add]
        exact Nat.le_mul_of_pos_right _ (cursorLimit_pos limit))
    refine ⟨_, _, pages, listGroupsRoute_first, hrun, ?_⟩
    rw [hpages, Nat.zero_mul, drop_zero]
    exact sortBy_perm _ _

/-! ### A group renamed to the empty text -/

/-- Texts in the order of their characters (the collation `C`). -/
def charCollation : Collation where
  sortKey := fun text => text.toList.map Char.toNat
  injective := by
    intro a b h
    refine String.toList_inj.1 (map_injective_iff.2 (fun c d hcd => ?_) h)
    exact Char.ext (UInt32.toNat_inj.1 hcd)
  sortKey_empty := rfl

/-- Cursors that are not encoded. -/
def plainGroupCodec : CursorCodec GroupCursor (CursorDirection × GroupCursor) where
  encode := fun direction anchor => (direction, anchor)
  decode := fun cursor => .ok cursor
  decode_encode := fun _ _ => rfl

/-- Two groups are created. -/
def twoGroups : List GroupCall :=
  [.create 1 { name := "alpha", description := none, status := none },
    .create 2 { name := "beta", description := none, status := none }]

/-- The first of them is renamed. -/
def renameFirst (name : String) : GroupCall :=
  .update 1 { name := some name, description := none, status := none }

/-- With two groups to a page the walk over the same groups ends. -/
theorem group_walk_two :
    VisitsEachOnce plainGroupCodec charCollation
      (afterCalls IamDb.empty (twoGroups ++ [renameFirst ""])) (some 2) :=
  (group_walk_iff plainGroupCodec charCollation IamDb.empty rfl (twoGroups ++ [renameFirst ""])
    (some 2)).2 (by decide +kernel)

/-- With one group to a page it does not: the page of the group without a name leads to itself. -/
theorem group_walk_stuck :
    (afterCalls IamDb.empty (twoGroups ++ [renameFirst ""])).groups.map (·.name) = ["", "beta"] ∧
      ¬VisitsEachOnce plainGroupCodec charCollation
        (afterCalls IamDb.empty (twoGroups ++ [renameFirst ""])) (some 1) := by
  refine ⟨by decide +kernel, ?_⟩
  exact not_visitsEachOnce plainGroupCodec charCollation
    (groupsUnique_afterCalls rfl (twoGroups ++ [renameFirst ""])) (by decide +kernel)

end OpenDefender.System.GroupPages
