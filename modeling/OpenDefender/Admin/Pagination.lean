import OpenDefender.Lib.Keyset

/-!
Cursor pages of the admin API (`services/admin-api/src/pagination.rs`), and what its listings share.

A listing is a query for either direction, which starts behind the anchor of a cursor. `cursorPage` is
what `list_overrides` and `list_groups_route` do with such a query: they ask for one row more than the limit, to
know whether there are more, turn the rows of a backward page round, and make the cursors of the page.
`blockPage` is the page that the `i`-th block of the listing should be; `cursorPage_first`, `cursorPage_next` and
`cursorPage_prev` say when it is.

The encoding of cursors, in JSON and base64, is a `CursorCodec`: any encoding that decodes what it has
encoded.
-/

namespace OpenDefender.Admin

open Lib Lib.Keyset List

/-- `cursor_limit`. -/
def cursorLimit (limit : Option ℕ) : ℕ := max 1 (min (limit.getD 50) 200)

lemma cursorLimit_pos (limit : Option ℕ) : 0 < cursorLimit limit :=
  lt_of_lt_of_le Nat.zero_lt_one (le_max_left _ _)

/-- `CursorDirection`. -/
inductive CursorDirection where
  | next
  | prev
  deriving DecidableEq, Repr

/-- `encode_directional_cursor` and `decode_cursor_with_direction`, for anchors in `α` and cursors in `τ`. -/
structure CursorCodec (α τ : Type) where
  encode : CursorDirection → α → τ
  decode : τ → Except String (CursorDirection × α)
  decode_encode : ∀ direction anchor, decode (encode direction anchor) = .ok (direction, anchor)

/-- `CursorMeta`. -/
structure CursorMeta (τ : Type) where
  limit : ℕ
  hasMore : Bool
  nextCursor : Option τ
  prevCursor : Option τ
  deriving DecidableEq, Repr

/-- `CursorPaged`. -/
structure CursorPaged (ρ τ : Type) where
  data : List ρ
  pageMeta : CursorMeta τ
  deriving DecidableEq, Repr

/-- The cursor of a page that leads on in a direction. -/
def CursorPaged.cursor {ρ τ : Type} (page : CursorPaged ρ τ) : CursorDirection → Option τ
  | .next => page.pageMeta.nextCursor
  | .prev => page.pageMeta.prevCursor

variable {ρ α τ : Type}

/-- The direction and the anchor of a request. -/
def decodeCursor (codec : CursorCodec α τ) (cursor : Option τ) :
    Except String (CursorDirection × Option α) :=
  match cursor with
  | none => .ok (.next, none)
  | some text => (codec.decode text).map fun decoded => (decoded.1, some decoded.2)

/-- A page of a listing: `select` is its query in either direction, without the limit. -/
def cursorPage (codec : CursorCodec α τ) (anchorOf : ρ → α)
    (select : CursorDirection → Option α → List ρ) (limit : ℕ) (cursor : Option τ) :
    Except String (CursorPaged ρ τ) := do
  let (direction, anchor) ← decodeCursor codec cursor
  let rows := (select direction anchor).take (limit + 1)
  let hasMore := decide (limit < rows.length)
  let rows := if hasMore then rows.take limit else rows
  let data := if direction = .prev then rows.reverse else rows
  pure
    { data
      pageMeta :=
        { limit
          hasMore
          nextCursor :=
            if hasMore then data.getLast?.map fun row => codec.encode .next (anchorOf row) else none
          prevCursor :=
            if cursor.isSome ∧ data ≠ [] then
              data.head?.map fun row => codec.encode .prev (anchorOf row)
            else none } }

/-- Following a cursor of a page, if it has one in that direction. -/
def followCursor {ε : Type} (list : Option τ → Except ε (CursorPaged ρ τ)) (page : CursorPaged ρ τ)
    (direction : CursorDirection) : Option (CursorPaged ρ τ) :=
  (page.cursor direction).bind fun cursor => (list (some cursor)).toOption

/-! ### Blocks of a listing -/

/-- The `i`-th block of the rows as a page. -/
def blockPage (codec : CursorCodec α τ) (anchorOf : ρ → α) (rows : List ρ) (limit i : ℕ) :
    CursorPaged ρ τ where
  data := block limit i rows
  pageMeta :=
    { limit
      hasMore := decide ((i + 1) * limit < rows.length)
      nextCursor :=
        if (i + 1) * limit < rows.length then
          (block limit i rows).getLast?.map fun row => codec.encode .next (anchorOf row)
        else none
      prevCursor :=
        if i = 0 then none
        else (block limit i rows).head?.map fun row => codec.encode .prev (anchorOf row) }

/-- Asking for one row more than the limit: whether there are more, and the rows themselves. -/
lemma length_take_succ (rows : List ρ) (limit : ℕ) :
    limit < (rows.take (limit + 1)).length ↔ limit < rows.length := by
  rw [length_take]
  omega

lemma truncate_take_succ (rows : List ρ) (limit : ℕ) :
    (if limit < rows.length then (rows.take (limit + 1)).take limit else rows.take (limit + 1)) =
      rows.take limit := by
  split_ifs with h
  · rw [take_take, Nat.min_eq_left (Nat.le_succ limit)]
  · rw [take_of_length_le (by omega), take_of_length_le (by omega)]

/-- The page of a query, with the extra row out of the way. -/
lemma cursorPage_eq {codec : CursorCodec α τ} {anchorOf : ρ → α}
    {select : CursorDirection → Option α → List ρ} {limit : ℕ} {cursor : Option τ}
    {direction : CursorDirection} {anchor : Option α}
    (hcursor : decodeCursor codec cursor = .ok (direction, anchor)) {rows : List ρ}
    (hrows : select direction anchor = rows) {data : List ρ}
    (hdata : (if direction = .prev then (rows.take limit).reverse else rows.take limit) = data) :
    cursorPage codec anchorOf select limit cursor = .ok
      { data
        pageMeta :=
          { limit
            hasMore := decide (limit < rows.length)
            nextCursor :=
              if limit < rows.length then
                data.getLast?.map fun row => codec.encode .next (anchorOf row)
              else none
            prevCursor :=
              if cursor.isSome ∧ data ≠ [] then
                data.head?.map fun row => codec.encode .prev (anchorOf row)
              else none } } := by
  rw [cursorPage, hcursor]
  simp only [bind, Except.bind, hrows, length_take_succ, decide_eq_true_eq, truncate_take_succ, hdata]
  rfl

variable {codec : CursorCodec α τ} {anchorOf : ρ → α}
  {select : CursorDirection → Option α → List ρ} {rows : List ρ} {limit i : ℕ}

/-- Without a cursor the page is the first block. -/
lemma cursorPage_first (hrows : select .next none = rows) :
    cursorPage codec anchorOf select limit none = .ok (blockPage codec anchorOf rows limit 0) := by
  have hdata : rows.take limit = block limit 0 rows := by
    rw [block, Nat.zero_mul, drop_zero]
  rw [cursorPage_eq rfl hrows hdata, blockPage]
  simp

/-- Behind the last row of a block comes the next block. -/
lemma cursorPage_next (hlimit : 0 < limit)
    (hrows : select .next (some (anchorOf row)) = rows.drop ((i + 1) * limit))
    (hmore : (i + 1) * limit < rows.length) :
    cursorPage codec anchorOf select limit (some (codec.encode .next (anchorOf row))) =
      .ok (blockPage codec anchorOf rows limit (i + 1)) := by
  have hdecode : decodeCursor codec (some (codec.encode .next (anchorOf row))) =
      .ok (.next, some (anchorOf row)) := by
    rw [decodeCursor, codec.decode_encode]
    rfl
  have hdata : (rows.drop ((i + 1) * limit)).take limit = block limit (i + 1) rows := rfl
  have hne := block_ne_nil hlimit hmore
  have hlength : limit < (rows.drop ((i + 1) * limit)).length ↔
      (i + 1 + 1) * limit < rows.length := by
    rw [length_drop, Nat.add_one_mul (i + 1)]
    omega
  rw [cursorPage_eq hdecode hrows hdata, blockPage]
  simp only [hlength]
  simp [hne]

/-- Before the first row of a block comes the block before it, if it is not the first one: then the page is
the block, with a cursor that leads back. -/
lemma cursorPage_prev (hlimit : 0 < limit)
    (hrows : select .prev (some (anchorOf row)) = (rows.take ((i + 1) * limit)).reverse)
    (hmore : (i + 1) * limit < rows.length) (hi : i ≠ 0) :
    cursorPage codec anchorOf select limit (some (codec.encode .prev (anchorOf row))) =
      .ok (blockPage codec anchorOf rows limit i) := by
  have hdecode : decodeCursor codec (some (codec.encode .prev (anchorOf row))) =
      .ok (.prev, some (anchorOf row)) := by
    rw [decodeCursor, codec.decode_encode]
    rfl
  have hdata := reverse_take_reverse hmore.le
  have hne : block limit i rows ≠ [] := by
    refine block_ne_nil hlimit ?_
    rw [Nat.add_one_mul] at hmore
    omega
  have hlength : limit < ((rows.take ((i + 1) * limit)).reverse).length := by
    have hpos : 0 < i * limit := Nat.mul_pos (Nat.pos_of_ne_zero hi) hlimit
    rw [length_reverse, length_take, Nat.min_eq_left hmore.le, Nat.add_one_mul]
    omega
  rw [cursorPage_eq hdecode hrows hdata, blockPage]
  simp only [hlength, hmore]
  simp [hne, hi]

/-- A backward page that reaches the first row has no cursor that leads back. -/
lemma cursorPage_prev_first (codec : CursorCodec α τ)
    (hrows : select .prev (some (anchorOf row)) = (rows.take limit).reverse) :
    ∃ page, cursorPage codec anchorOf select limit (some (codec.encode .prev (anchorOf row))) = .ok page ∧
      page.data = rows.take limit ∧ page.pageMeta.nextCursor = none := by
  have hdecode : decodeCursor codec (some (codec.encode .prev (anchorOf row))) =
      .ok (.prev, some (anchorOf row)) := by
    rw [decodeCursor, codec.decode_encode]
    rfl
  have hdata : ((rows.take limit).reverse.take limit).reverse = rows.take limit := by
    rw [take_of_length_le (by simp), reverse_reverse]
  have hlength : ¬limit < ((rows.take limit).reverse).length := by
    simp
  refine ⟨_, cursorPage_eq hdecode hrows hdata, rfl, ?_⟩
  exact if_neg hlength

end OpenDefender.Admin
