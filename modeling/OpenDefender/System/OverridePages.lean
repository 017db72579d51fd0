import OpenDefender.Admin.Pagination
import OpenDefender.Engine.Overrides
import OpenDefender.Lib.Run

/-!
The pages of the overrides (`list_overrides` of `services/admin-api/src/main.rs`), and walks over them that
follow cursors either way.

From the first page on, the pages that `next_cursor` leads to are the blocks of the listing one after the
other, and a `prev_cursor` leads one block back. The page that a `prev_cursor` leads to has a `next_cursor`
exactly when rows come before it, though, not when rows follow: the first block, reached backwards, has none.
`walkSound_iff` says that this is all that goes wrong.
-/

namespace OpenDefender.System.OverridePages

open Admin Lib Lib.FirstMatch Lib.Keyset Lib.Run List

/-! ### The listing -/

/-- `OverrideCursor`. -/
structure OverrideCursor where
  createdAt : ℕ
  id : Uuid
  deriving DecidableEq, Repr

/-- `(created_at, id)`, in the order of SQL. -/
def OverrideCursor.position (cursor : OverrideCursor) : ℕ ×ₗ Uuid := toLex (cursor.createdAt, cursor.id)

/-- The cursor at a row. -/
def anchorOf (row : OverrideRow) : OverrideCursor where
  createdAt := row.createdAt
  id := row.id

/-- The place of a row in the listing. -/
def position (row : OverrideRow) : ℕ ×ₗ Uuid := (anchorOf row).position

/-- The two queries of `list_overrides`. -/
def selectOverrides (table : List OverrideRow) (direction : CursorDirection)
    (anchor : Option OverrideCursor) : List OverrideRow :=
  match direction with
  | .prev => sortBy position (table.filter fun row =>
    match anchor with
    | none => true
    | some cursor => cursor.position < position row)
  | .next => sortBy (OrderDual.toDual ∘ position) (table.filter fun row =>
    match anchor with
    | none => true
    | some cursor => position row < cursor.position)

/-- `list_overrides`; the error is the status `BAD_REQUEST`. -/
def listOverrides {τ : Type} (codec : CursorCodec OverrideCursor τ) (table : List OverrideRow)
    (limit : Option ℕ) (cursor : Option τ) : Except ℕ (CursorPaged OverrideRow τ) :=
  (cursorPage codec anchorOf (selectOverrides table) (cursorLimit limit) cursor).mapError fun _ => 400

/-- The rows in descending order of `(created_at, id)`. -/
def newestFirst (table : List OverrideRow) : List OverrideRow :=
  sortBy (OrderDual.toDual ∘ position) table

/-! ### What a walk should find -/

section Walks

variable {ρ τ ε : Type} (rows : List ρ) (limit : ℕ) (list : Option τ → Except ε (CursorPaged ρ τ))

/-- The page is a block of at most `limit` rows, it has a `next_cursor` exactly when rows follow, and the
cursor leads to the rows right behind the page. -/
def PageSound (page : CursorPaged ρ τ) : Prop :=
  ∃ before after, rows = before ++ page.data ++ after ∧ page.data.length ≤ limit ∧
    (page.pageMeta.nextCursor.isSome = true ↔ after ≠ []) ∧
    (after ≠ [] → ∃ following, followCursor list page .next = some following ∧
      following.data = after.take limit)

/-- From the page one gets back to the rows that were left. -/
def LeadsBack (left page : CursorPaged ρ τ) : Prop :=
  ∃ again, followCursor list page .next = some again ∧ again.data = left.data

/-- Every page of the walk is sound, and every one that is reached by a `prev_cursor` leads back. -/
def WalkSound : CursorPaged ρ τ → List CursorDirection → Prop
  | page, [] => PageSound rows limit list page
  | page, move :: moves =>
    PageSound rows limit list page ∧ ∀ page', followCursor list page move = some page' →
      (move = .prev → LeadsBack list page page') ∧ WalkSound page' moves

end Walks

/-- A walk from the `i`-th page on, counted from zero, follows a `prev_cursor` only from the third page and
those behind it. -/
def FromThird : ℕ → List CursorDirection → Prop
  | _, [] => True
  | i, .next :: moves => FromThird (i + 1) moves
  | i, .prev :: moves => 2 ≤ i ∧ FromThird (i - 1) moves

instance decidableFromThird : ∀ i moves, Decidable (FromThird i moves)
  | _, [] => isTrue trivial
  | i, .next :: moves => decidableFromThird (i + 1) moves
  | i, .prev :: moves =>
    have := decidableFromThird (i - 1) moves
    inferInstanceAs (Decidable (_ ∧ _))

/-! ### Around a row -/

variable {τ : Type} {codec : CursorCodec OverrideCursor τ} {table : List OverrideRow}
  {before after : List OverrideRow} {row : OverrideRow} {limit : Option ℕ} {i : ℕ}

/-- No two rows have the same place. -/
lemma unique_position (hids : Table.Unique (·.id) table) :
    Table.Unique (OrderDual.toDual ∘ position) table := by
  refine pairwise_map.2 ((pairwise_map.1 hids).imp fun hne heq => hne ?_)
  exact congrArg (fun place => (ofLex (OrderDual.ofDual place)).2) heq

lemma select_first : selectOverrides table .next none = newestFirst table := by
  rw [selectOverrides, newestFirst, filter_eq_self.2 (by simp)]

lemma select_after (hids : Table.Unique (·.id) table)
    (hrows : newestFirst table = before ++ row :: after) :
    selectOverrides table .next (some (anchorOf row)) = after :=
  sortBy_greater (unique_position hids) hrows

lemma select_before (hids : Table.Unique (·.id) table)
    (hrows : newestFirst table = before ++ row :: after) :
    selectOverrides table .prev (some (anchorOf row)) = before.reverse :=
  sortBy_smaller (unique_position hids) hrows

/-! ### The pages of a walk -/

/-- The page of the `i`-th block. -/
def overridePage (codec : CursorCodec OverrideCursor τ) (table : List OverrideRow) (limit : Option ℕ)
    (i : ℕ) : CursorPaged OverrideRow τ :=
  blockPage codec anchorOf (newestFirst table) (cursorLimit limit) i

lemma listOverrides_first :
    listOverrides codec table limit none = .ok (overridePage codec table limit 0) := by
  rw [listOverrides, cursorPage_first select_first]
  rfl

/-- Following `next_cursor` from a block that has rows behind it. -/
lemma follow_next (codec : CursorCodec OverrideCursor τ) (hids : Table.Unique (·.id) table)
    (hmore : (i + 1) * cursorLimit limit < (newestFirst table).length) :
    followCursor (listOverrides codec table limit) (overridePage codec table limit i) .next =
      some (overridePage codec table limit (i + 1)) := by
  have hlimit := cursorLimit_pos limit
  have hrows : i * cursorLimit limit < (newestFirst table).length := by
    rw [Nat.add_one_mul] at hmore
    omega
  obtain ⟨before, row, hlast, hsplit⟩ := exists_last_of_block hlimit hrows
  have hcursor : (overridePage codec table limit i).cursor .next =
      some (codec.encode .next (anchorOf row)) := by
    rw [overridePage, blockPage, CursorPaged.cursor, if_pos hmore, hlast]
    rfl
  rw [followCursor, hcursor, Option.bind_some, listOverrides,
    cursorPage_next hlimit (select_after hids hsplit) hmore]
  rfl

/-- A block without rows behind it has no `next_cursor`. -/
lemma follow_next_last (hlast : ¬(i + 1) * cursorLimit limit < (newestFirst table).length) :
    followCursor (listOverrides codec table limit) (overridePage codec table limit i) .next = none := by
  rw [followCursor, overridePage, blockPage, CursorPaged.cursor, if_neg hlast, Option.bind_none]

/-- The cursor that leads back from a block, and the rows of its query. -/
lemma prev_cursor (codec : CursorCodec OverrideCursor τ) (hids : Table.Unique (·.id) table)
    (hrows : (i + 1) * cursorLimit limit < (newestFirst table).length) :
    ∃ row, (overridePage codec table limit (i + 1)).cursor .prev =
        some (codec.encode .prev (anchorOf row)) ∧
      selectOverrides table .prev (some (anchorOf row)) =
        ((newestFirst table).take ((i + 1) * cursorLimit limit)).reverse := by
  obtain ⟨row, after, hfirst, hsplit⟩ := exists_first_of_block (cursorLimit_pos limit) hrows
  refine ⟨row, ?_, select_before hids hsplit⟩
  rw [overridePage, blockPage, CursorPaged.cursor, if_neg (Nat.succ_ne_zero i), hfirst]
  rfl

/-- Following `prev_cursor` from the third block or one behind it. -/
lemma follow_prev (codec : CursorCodec OverrideCursor τ) (hids : Table.Unique (·.id) table)
    (hrows : (i + 1) * cursorLimit limit < (newestFirst table).length) (hi : i ≠ 0) :
    followCursor (listOverrides codec table limit) (overridePage codec table limit (i + 1)) .prev =
      some (overridePage codec table limit i) := by
  obtain ⟨row, hcursor, hselect⟩ := prev_cursor codec hids hrows
  rw [followCursor, hcursor, Option.bind_some, listOverrides,
    cursorPage_prev (cursorLimit_pos limit) hselect hrows hi]
  rfl

/-- Following `prev_cursor` from the second block: the page has no `next_cursor`. -/
lemma follow_prev_second (codec : CursorCodec OverrideCursor τ) (hids : Table.Unique (·.id) table)
    (hrows : cursorLimit limit < (newestFirst table).length) :
    ∃ page, followCursor (listOverrides codec table limit) (overridePage codec table limit 1) .prev =
        some page ∧
      page.data = (newestFirst table).take (cursorLimit limit) ∧ page.pageMeta.nextCursor = none := by
  have hone : (0 + 1) * cursorLimit limit = cursorLimit limit := by omega
  obtain ⟨row, hcursor, hselect⟩ := prev_cursor codec (i := 0) hids (by rwa [hone])
  rw [hone] at hselect
  obtain ⟨page, hpage, hdata, hnext⟩ := cursorPage_prev_first codec hselect
  refine ⟨page, ?_, hdata, hnext⟩
  rw [followCursor, hcursor, Option.bind_some, listOverrides, hpage]
  rfl

/-- The first block has no `prev_cursor`. -/
lemma follow_prev_first :
    followCursor (listOverrides codec table limit) (overridePage codec table limit 0) .prev = none := rfl

/-- The page of a block is sound. -/
lemma pageSound_overridePage (codec : CursorCodec OverrideCursor τ) (limit : Option ℕ) (i : ℕ)
    (hids : Table.Unique (·.id) table) :
    PageSound (newestFirst table) (cursorLimit limit) (listOverrides codec table limit)
      (overridePage codec table limit i) := by
  have hafter : (newestFirst table).drop ((i + 1) * cursorLimit limit) ≠ [] ↔
      (i + 1) * cursorLimit limit < (newestFirst table).length := by
    rw [ne_eq, drop_eq_nil_iff, not_le]
  refine ⟨(newestFirst table).take (i * cursorLimit limit),
    (newestFirst table).drop ((i + 1) * cursorLimit limit), (take_append_block _ _ _).symm,
    length_block_le, ?_, fun hmore => ⟨_, follow_next codec hids (hafter.1 hmore), rfl⟩⟩
  rw [hafter]
  constructor
  · intro hsome
    by_contra hlast
    rw [overridePage, blockPage, if_neg hlast] at hsome
    cases hsome
  · intro hmore
    obtain ⟨cursor, hcursor, -⟩ := Option.bind_eq_some_iff.1 (follow_next codec hids hmore)
    rw [show (overridePage codec table limit i).pageMeta.nextCursor = some cursor from hcursor]
    rfl

/-- A walk from the page of a block on. -/
lemma walkSound_overridePage_iff (hids : Table.Unique (·.id) table) (moves : List CursorDirection)
    (hi : i ≠ 0 → i * cursorLimit limit < (newestFirst table).length)
    (hwalk : (run (followCursor (listOverrides codec table limit)) (overridePage codec table limit i)
      moves).isSome = true) :
    WalkSound (newestFirst table) (cursorLimit limit) (listOverrides codec table limit)
      (overridePage codec table limit i) moves ↔ FromThird i moves := by
  -- the walk is at the page of a block as long as it meets the condition
  induction moves generalizing i with
  | nil => exact iff_of_true (pageSound_overridePage codec limit i hids) trivial
  | cons move moves ih =>
    have hsound := pageSound_overridePage codec limit i hids
    cases move with
    | next =>
      by_cases hmore : (i + 1) * cursorLimit limit < (newestFirst table).length
      · have hfollow := follow_next codec hids hmore
        rw [run, hfollow] at hwalk
        have hrest := ih (fun _ => hmore) hwalk
        simp [WalkSound, FromThird, hsound, hfollow, hrest]
      · rw [run, follow_next_last hmore] at hwalk
        cases hwalk
    | prev =>
      rcases i with _ | _ | j
      · rw [run, follow_prev_first] at hwalk
        cases hwalk
      · -- the page has no cursor back to the second block
        have hrows : cursorLimit limit < (newestFirst table).length := by
          simpa using hi one_ne_zero
        obtain ⟨page, hfollow, -, hnext⟩ := follow_prev_second codec hids hrows
        refine iff_of_false (fun hwalkSound => ?_) (fun hthird => absurd hthird.1 (by decide))
        obtain ⟨again, hagain, -⟩ := (hwalkSound.2 page hfollow).1 rfl
        rw [followCursor, show page.cursor .next = none from hnext] at hagain
        cases hagain
      · have hrows := hi (by omega)
        have hback : (j + 1) * cursorLimit limit < (newestFirst table).length := by
          rw [Nat.add_one_mul] at hrows
          omega
        have hfollow := follow_prev codec hids hrows (Nat.succ_ne_zero j)
        have hleads : LeadsBack (listOverrides codec table limit)
            (overridePage codec table limit (j + 2)) (overridePage codec table limit (j + 1)) :=
          ⟨_, follow_next codec hids hrows, rfl⟩
        rw [run, hfollow] at hwalk
        have hrest := ih (fun _ => hback) hwalk
        simp [WalkSound, FromThird, hsound, hfollow, hrest, hleads]

/-- **Walks over the overrides.** In a walk that starts at the first page and follows cursors either way,
every page is a block of the listing with a `next_cursor` exactly when rows follow, which leads to the rows right
behind it, and every page reached by a `prev_cursor` leads back to the rows that were left, exactly when no
`prev_cursor` is followed from the second page. -/
theorem walkSound_iff {τ : Type} (codec : CursorCodec OverrideCursor τ) (table : List OverrideRow)
    (hids : Table.Unique (·.id) table) (limit : Option ℕ) (moves : List CursorDirection)
    (first : CursorPaged OverrideRow τ) (hfirst : listOverrides codec table limit none = .ok first)
    (hwalk : (run (followCursor (listOverrides codec table limit)) first moves).isSome = true) :
    WalkSound (newestFirst table) (cursorLimit limit) (listOverrides codec table limit) first moves ↔
      FromThird 0 moves := by
  rw [listOverrides_first] at hfirst
  cases hfirst
  exact walkSound_overridePage_iff hids moves (fun h => absurd rfl h) hwalk

/-! ### Three overrides, one to a page -/

/-- Cursors that are not encoded. -/
def plainCodec (α : Type) : CursorCodec α (CursorDirection × α) where
  encode := fun direction anchor => (direction, anchor)
  decode := fun cursor => .ok cursor
  decode_encode := fun _ _ => rfl

/-- An override of a domain. -/
def overrideAt (id : Uuid) (scopeValue : String) : OverrideRow where
  id := id
  scopeType := "domain"
  scopeValue := scopeValue
  action := "block"
  status := "active"
  createdAt := id
  updatedAt := id

/-- Three overrides. -/
def threeOverrides : List OverrideRow :=
  [overrideAt 1 "a.example", overrideAt 2 "b.example", overrideAt 3 "c.example"]

/-- A walk to the last of three pages, back to the second one and forward again. -/
theorem walkSound_third_page :
    (run (followCursor (listOverrides (plainCodec OverrideCursor) threeOverrides (some 1)))
        (overridePage (plainCodec OverrideCursor) threeOverrides (some 1) 0)
        [.next, .next, .prev, .next]).isSome = true ∧
      WalkSound (newestFirst threeOverrides) 1
        (listOverrides (plainCodec OverrideCursor) threeOverrides (some 1))
        (overridePage (plainCodec OverrideCursor) threeOverrides (some 1) 0)
        [.next, .next, .prev, .next] := by
  have hwalk : (run (followCursor (listOverrides (plainCodec OverrideCursor) threeOverrides (some 1)))
      (overridePage (plainCodec OverrideCursor) threeOverrides (some 1) 0)
      [.next, .next, .prev, .next]).isSome = true := by
    decide +kernel
  exact ⟨hwalk, (walkSound_iff (plainCodec OverrideCursor) threeOverrides (by decide) (some 1)
    [.next, .next, .prev, .next] _ listOverrides_first hwalk).2 (by decide)⟩

/-- From the second of three pages back to the first one: it has no `next_cursor`, though two rows follow. -/
theorem first_page_backwards :
    (((listOverrides (plainCodec OverrideCursor) threeOverrides (some 1) none).toOption.bind fun first =>
        run (followCursor (listOverrides (plainCodec OverrideCursor) threeOverrides (some 1))) first
          [.next, .prev]).map fun page => (page.data.map (·.id), page.pageMeta.nextCursor)) =
      some ([3], none) ∧
    (newestFirst threeOverrides).map (·.id) = [3, 2, 1] := by
  decide +kernel

end OpenDefender.System.OverridePages
