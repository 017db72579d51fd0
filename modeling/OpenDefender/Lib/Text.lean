import Mathlib.Tactic
import Mathlib.Data.List.DropRight

/-!
Text operations with the behaviour of Rust's `str` methods, on `String` through its list of
characters.

* `trim`, `trimEndMatches`, `trimMatches` : removal of whitespace (Unicode `White_Space`) or of
  one character at the ends; `trim_isInfix` says that trimming cuts a piece out.
* `toAsciiLowercase`, `eqIgnoreAsciiCase` : ASCII case folding, the other characters kept.
* `stripPrefix`, `endsWith`, `contains` : with the characterisations `stripPrefix_eq_some`,
  `endsWith_iff` and `contains_iff`, which turn them into facts about `++` and infixes.
* `split`, `splitOnce`, `rsplitOnce`, `join` : pieces between separators.
-/

namespace Lib.Text

open List

/-! ### Case and whitespace of a character -/

variable (c : Char) (s : String)

/-- `char::is_whitespace`: the code points with the Unicode property `White_Space`. -/
def isWhitespace : Bool :=
  (9 ≤ c.toNat && c.toNat ≤ 13) || c.toNat == 32 || c.toNat == 0x85 || c.toNat == 0xA0 ||
    c.toNat == 0x1680 || (0x2000 ≤ c.toNat && c.toNat ≤ 0x200A) || c.toNat == 0x2028 ||
    c.toNat == 0x2029 || c.toNat == 0x202F || c.toNat == 0x205F || c.toNat == 0x3000

/-- `char::is_ascii_alphanumeric`. -/
def isAsciiAlphanumeric : Bool :=
  ('a' ≤ c && c ≤ 'z') || ('A' ≤ c && c ≤ 'Z') || ('0' ≤ c && c ≤ '9')

/-! ### Operations on strings -/

/-- `str::trim`. -/
def trim : String :=
  String.ofList ((s.toList.dropWhile isWhitespace).rdropWhile isWhitespace)

/-- `str::trim_end_matches(c)`. -/
def trimEndMatches : String :=
  String.ofList (s.toList.rdropWhile (· == c))

/-- `str::trim_matches(c)`. -/
def trimMatches : String :=
  String.ofList ((s.toList.dropWhile (· == c)).rdropWhile (· == c))

/-- `str::to_ascii_lowercase`. -/
def toAsciiLowercase : String :=
  String.ofList (s.toList.map Char.toLower)

/-- `str::eq_ignore_ascii_case`. -/
def eqIgnoreAsciiCase (a b : String) : Bool :=
  toAsciiLowercase a == toAsciiLowercase b

/-- `str::strip_prefix`. -/
def stripPrefix (p s : String) : Option String :=
  if p.toList.isPrefixOf s.toList then some (String.ofList (s.toList.drop p.toList.length)) else none

/-- `str::ends_with`. -/
def endsWith (s t : String) : Bool :=
  t.toList.isSuffixOf s.toList

/-- `str::contains` of a character. -/
def containsChar (c : Char) : Bool :=
  s.toList.contains c

/-- `str::contains` of a text: some tail of `s` starts with `t`. -/
def contains (s t : String) : Bool :=
  s.toList.tails.any t.toList.isPrefixOf

/-- `str::split` at every character satisfying `p`. -/
def split (p : Char → Bool) (s : String) : List String :=
  (s.toList.splitOnP p).map String.ofList

/-- `str::split_whitespace`. -/
def splitWhitespace : List String :=
  (split isWhitespace s).filter fun piece => !piece.isEmpty

/-- `str::lines`: the pieces between line feeds, without a last empty one and without a carriage
return at their ends. -/
def lines : List String :=
  let pieces := s.toList.splitOnP (· == '\n')
  let pieces := if pieces.getLast? = some [] then pieces.dropLast else pieces
  pieces.map fun l => String.ofList (if l.getLast? = some '\r' then l.dropLast else l)

/-- Cuts a list at the first occurrence of `pat`. -/
def cutAt (pat : List Char) : List Char → Option (List Char × List Char)
  | [] => if pat.isEmpty then some ([], []) else none
  | c :: cs =>
    if pat.isPrefixOf (c :: cs) then some ([], (c :: cs).drop pat.length)
    else (cutAt pat cs).map fun r => (c :: r.1, r.2)

/-- `str::split_once`. -/
def splitOnce (pat s : String) : Option (String × String) :=
  (cutAt pat.toList s.toList).map fun r => (String.ofList r.1, String.ofList r.2)

/-- `str::rsplit_once` at a character. -/
def rsplitOnce : Option (String × String) :=
  (cutAt [c] s.toList.reverse).map fun r =>
    (String.ofList r.2.reverse, String.ofList r.1.reverse)

/-- `[&str]::join`. -/
def join (sep : String) : List String → String
  | [] => ""
  | [s] => s
  | s :: t :: rest => s ++ sep ++ join sep (t :: rest)

/-! ### Characterisations -/

lemma toNat_of_alphanumeric {c : Char} (h : isAsciiAlphanumeric c = true) :
    48 ≤ c.toNat ∧ c.toNat ≤ 122 := by
  simp only [isAsciiAlphanumeric, Bool.or_eq_true, Bool.and_eq_true, decide_eq_true_eq,
    Char.le_def, UInt32.le_iff_toNat_le, Char.toNat_val] at h
  have ha : ('a' : Char).toNat = 97 := rfl
  have hz : ('z' : Char).toNat = 122 := rfl
  have hA : ('A' : Char).toNat = 65 := rfl
  have hZ : ('Z' : Char).toNat = 90 := rfl
  have h0 : ('0' : Char).toNat = 48 := rfl
  have h9 : ('9' : Char).toNat = 57 := rfl
  omega

lemma isWhitespace_eq_false {c : Char} (hlow : 48 ≤ c.toNat) (hhigh : c.toNat ≤ 122) : isWhitespace c = false := by
  simp only [isWhitespace, Bool.or_eq_false_iff, Bool.and_eq_false_iff, beq_eq_false_iff_ne, decide_eq_false_iff_not]
  omega

lemma isWhitespace_of_alphanumeric {c : Char} (h : isAsciiAlphanumeric c = true) : isWhitespace c = false := by
  obtain ⟨hlow, hhigh⟩ := toNat_of_alphanumeric h
  exact isWhitespace_eq_false hlow hhigh

lemma append_toList_ofList (p : String) (l : List Char) :
    p ++ String.ofList l = String.ofList (p.toList ++ l) := by
  rw [← String.toList_inj]
  simp

/-- A capital letter moves up by 32; the other characters stay. -/
lemma toLower_cases : c.toLower = c ∨ 65 ≤ c.toNat ∧ c.toNat ≤ 90 ∧ c.toLower.toNat = c.toNat + 32 := by
  by_cases h : c.val ≥ 'A'.val ∧ c.val ≤ 'Z'.val
  · right
    have hupper : c.toLower = ⟨c.val + ('a'.val - 'A'.val), _⟩ := dif_pos h
    have hlow : 65 ≤ c.toNat := UInt32.le_iff_toNat_le.1 h.1
    have hhigh : c.toNat ≤ 90 := UInt32.le_iff_toNat_le.1 h.2
    have hval : c.toLower.toNat = (c.toNat + 32) % 2 ^ 32 := by
      rw [hupper]
      exact UInt32.toNat_add _ _
    exact ⟨hlow, hhigh, by omega⟩
  · exact Or.inl (dif_neg h)

lemma toLower_toLower : c.toLower.toLower = c.toLower := by
  rcases toLower_cases c with h | ⟨hlow, -, hc⟩
  · rw [h, h]
  · rcases toLower_cases c.toLower with h | ⟨-, hhigh, -⟩
    · exact h
    · omega

/-- A character whose lower case is no lower-case letter is its own lower case. -/
lemma toLower_eq_self {c : Char} (h : c.toLower.isLower = false) : c.toLower = c := by
  rcases toLower_cases c with hc | ⟨hlow, hhigh, hc⟩
  · exact hc
  · have hletter : c.toLower.isLower = true := by
      rw [show c.toLower.isLower = (decide ('a'.val ≤ c.toLower.val) && decide (c.toLower.val ≤ 'z'.val)) from rfl]
      simp only [Bool.and_eq_true, decide_eq_true_eq, UInt32.le_iff_toNat_le]
      exact ⟨(by omega : 97 ≤ c.toLower.toNat), (by omega : c.toLower.toNat ≤ 122)⟩
    rw [h] at hletter
    cases hletter

/-- ASCII case folding is idempotent. -/
@[simp] lemma toAsciiLowercase_idem : toAsciiLowercase (toAsciiLowercase s) = toAsciiLowercase s := by
  unfold toAsciiLowercase
  rw [String.toList_ofList, map_map]
  congr 1
  exact map_congr_left fun c _ => toLower_toLower c

/-- What `strip_prefix` returns is exactly what follows the stripped text. -/
theorem stripPrefix_eq_some {p s r : String} : stripPrefix p s = some r ↔ s = p ++ r := by
  unfold stripPrefix
  constructor
  · intro h
    split at h
    · rename_i hp
      obtain ⟨t, ht⟩ := isPrefixOf_iff_prefix.1 hp
      cases h
      rw [← String.toList_inj]
      simp [← ht]
    · cases h
  · rintro rfl
    simp [String.toList_append]

@[simp] lemma stripPrefix_append (p r : String) : stripPrefix p (p ++ r) = some r :=
  stripPrefix_eq_some.2 rfl

/-- Nothing is stripped exactly when no rest completes the text. -/
lemma stripPrefix_eq_none {p s : String} : stripPrefix p s = none ↔ ∀ r, s ≠ p ++ r := by
  rw [Option.eq_none_iff_forall_ne_some]
  exact forall_congr' fun r => not_congr stripPrefix_eq_some

/-- `ends_with` says that the text is something followed by the suffix. -/
theorem endsWith_iff {s t : String} : endsWith s t = true ↔ ∃ u, s = u ++ t := by
  unfold endsWith
  rw [isSuffixOf_iff_suffix]
  constructor
  · rintro ⟨u, hu⟩
    exact ⟨String.ofList u, by rw [← String.toList_inj]; simp [hu]⟩
  · rintro ⟨u, rfl⟩
    exact ⟨u.toList, by simp⟩

lemma endsWith_append (u t : String) : endsWith (u ++ t) t = true :=
  endsWith_iff.2 ⟨u, rfl⟩

/-! ### Texts in texts -/

lemma contains_iff {s t : String} : contains s t = true ↔ t.toList <:+: s.toList := by
  simp [contains, infix_iff_prefix_suffix, and_comm]

/-! ### Trimming -/

lemma trim_isInfix : (trim s).toList <:+: s.toList := by
  rw [trim, String.toList_ofList]
  exact (List.rdropWhile_prefix _ _).isInfix.trans (dropWhile_suffix _).isInfix

/-- What is trimmed once has nothing left to trim. -/
@[simp] lemma trim_trim : trim (trim s) = trim s := by
  have hhead (l : List Char) : ((l.dropWhile isWhitespace).rdropWhile isWhitespace).dropWhile
      isWhitespace = (l.dropWhile isWhitespace).rdropWhile isWhitespace := by
    rw [dropWhile_eq_self_iff]
    intro hlen
    -- the first character is the one that stopped the trimming on the left
    have hprefix := rdropWhile_prefix isWhitespace (l.dropWhile isWhitespace)
    rw [List.IsPrefix.getElem hprefix hlen]
    exact dropWhile_get_zero_not _ _ _
  rw [trim, trim, String.toList_ofList, hhead, rdropWhile_idempotent]

/-- A text without whitespace is not trimmed. -/
lemma trim_eq_self {s : String} (h : ∀ c ∈ s.toList, isWhitespace c = false) : trim s = s := by
  have hdrop (l : List Char) (hl : ∀ c ∈ l, isWhitespace c = false) :
      l.dropWhile isWhitespace = l := by
    cases l with
    | nil => rfl
    | cons c l => simp [hl c mem_cons_self]
  unfold trim
  rw [hdrop _ h, List.rdropWhile, hdrop _ (by simpa using h), reverse_reverse,
    String.ofList_toList]

/-- A text that starts with something else than whitespace is not blank. -/
lemma trim_isEmpty_of_head {s : String} {c : Char} {l : List Char} (hs : s.toList = c :: l)
    (hc : isWhitespace c = false) : (trim s).isEmpty = false := by
  rw [Bool.eq_false_iff, ne_eq, String.isEmpty_iff, ← String.toList_inj]
  unfold trim
  rw [String.toList_ofList, hs, dropWhile_cons_of_neg (by simp [hc])]
  intro hnil
  have hall := rdropWhile_eq_nil_iff.1 hnil c mem_cons_self
  rw [hc] at hall
  cases hall

/-- A part of a text is the text or shorter. -/
lemma shrinks_of_isInfix {a s : String} (h : a.toList <:+: s.toList) : a = s ∨ a.length < s.length := by
  rcases Nat.lt_or_ge a.toList.length s.toList.length with hlt | hge
  · right
    rwa [String.length_toList, String.length_toList] at hlt
  · left
    exact String.toList_inj.1 (h.eq_of_length_le hge)

lemma trimEndMatches_isInfix : (trimEndMatches c s).toList <:+: s.toList := by
  rw [trimEndMatches, String.toList_ofList]
  exact (List.rdropWhile_prefix _ _).isInfix

/-- Nothing is left to remove at the end. -/
lemma trimEndMatches_ne_concat (s r : String) : trimEndMatches c s ≠ r ++ String.ofList [c] := by
  intro h
  rw [trimEndMatches, append_toList_ofList, String.ofList_inj] at h
  have hlast := rdropWhile_last_not (· == c) s.toList (by simp [h])
  simp [h] at hlast

/-- A text that does not end with the character is not changed. -/
lemma trimEndMatches_eq_self {c : Char} {s : String} (h : ∀ r, s ≠ r ++ String.ofList [c]) :
    trimEndMatches c s = s := by
  rw [trimEndMatches, rdropWhile_eq_self_iff.2, String.ofList_toList]
  intro hne hlast
  refine h (String.ofList s.toList.dropLast) ?_
  rw [append_toList_ofList, String.toList_ofList, ← String.toList_inj, String.toList_ofList,
    ← eq_of_beq hlast, dropLast_append_getLast]

@[simp] lemma toAsciiLowercase_append (a b : String) :
    toAsciiLowercase (a ++ b) = toAsciiLowercase a ++ toAsciiLowercase b := by
  unfold toAsciiLowercase
  rw [append_toList_ofList, String.toList_append, map_append, String.toList_ofList]

lemma toAsciiLowercase_ne_empty {s : String} (h : s ≠ "") : toAsciiLowercase s ≠ "" := by
  intro hempty
  apply h
  rw [← String.toList_inj] at hempty ⊢
  simpa [toAsciiLowercase] using hempty

@[simp] lemma length_toAsciiLowercase : (toAsciiLowercase s).length = s.length := by
  rw [toAsciiLowercase, String.length_ofList, length_map, String.length_toList]

/-- The parts of a text in lower case are in lower case. -/
lemma lower_of_append {a b : String} (h : toAsciiLowercase (a ++ b) = a ++ b) : toAsciiLowercase b = b := by
  rw [toAsciiLowercase_append] at h
  rw [← String.toList_inj, String.toList_append, String.toList_append] at h
  have hlen : (toAsciiLowercase a).toList.length = a.toList.length := by
    rw [String.length_toList, String.length_toList, length_toAsciiLowercase]
  exact String.toList_inj.1 (append_inj_right h hlen)

/-- A character that is no letter stands where it stands in lower case. -/
lemma exists_of_lower_eq_append {c : Char} (hc : c.isLower = false) {s a b : String}
    (h : toAsciiLowercase s = a ++ (String.ofList [c] ++ b)) :
    ∃ a' b', s = a' ++ (String.ofList [c] ++ b') ∧ toAsciiLowercase a' = a ∧ toAsciiLowercase b' = b := by
  rw [← String.toList_inj] at h
  simp only [toAsciiLowercase, String.toList_append, String.toList_ofList, singleton_append,
    map_eq_append_iff, map_eq_cons_iff] at h
  obtain ⟨u, _, hs, hu, d, v, rfl, rfl, hv⟩ := h
  refine ⟨String.ofList u, String.ofList v, ?_, ?_, ?_⟩ <;> rw [← String.toList_inj]
  · simp [hs, toLower_eq_self hc]
  · simp [toAsciiLowercase, hu]
  · simp [toAsciiLowercase, hv]

/-! ### Splitting and joining -/

/-- Joining two lists of pieces puts one separator between them. -/
lemma join_append (sep : String) {xs ys : List String} (hx : xs ≠ []) (hy : ys ≠ []) :
    join sep (xs ++ ys) = join sep xs ++ sep ++ join sep ys := by
  induction xs with
  | nil => exact absurd rfl hx
  | cons x xs ih =>
    cases xs with
    | nil =>
      cases ys with
      | nil => exact absurd rfl hy
      | cons y ys => rfl
    | cons x' xs =>
      have hrest := ih (cons_ne_nil x' xs)
      simp only [cons_append, join] at hrest ⊢
      rw [hrest]
      simp only [String.append_assoc]

lemma toList_join_ofList (l : List (List Char)) :
    (join (String.ofList [c]) (l.map String.ofList)).toList = [c].intercalate l := by
  induction l with
  | nil => rfl
  | cons x l ih =>
    cases l with
    | nil => simp [join, List.intercalate]
    | cons y l =>
      simp only [map_cons, join, String.toList_append, String.toList_ofList] at ih ⊢
      rw [ih]
      simp [List.intercalate]

/-- Joining the pieces of a text again gives the text. -/
lemma join_split : join (String.ofList [c]) (split (· == c) s) = s := by
  rw [← String.toList_inj]
  unfold split
  rw [toList_join_ofList]
  exact intercalate_splitOn c

/-- Splitting at a separator between two texts splits both. -/
lemma split_append_separator (a b : String) :
    split (· == c) (a ++ (String.ofList [c] ++ b)) = split (· == c) a ++ split (· == c) b := by
  have hcut := splitOnP_append_cons (p := (· == c)) a.toList b.toList (beq_self_eq_true c)
  simp only [split, String.toList_append, String.toList_ofList, singleton_append]
  rw [hcut, map_append]

/-- No piece contains a separator. -/
lemma not_mem_of_mem_split {p : Char → Bool} {s piece : String} (h : piece ∈ split p s) :
    ∀ c ∈ piece.toList, p c = false := by
  obtain ⟨l, hl, rfl⟩ := mem_map.1 h
  rw [String.toList_ofList]
  clear h
  generalize s.toList = cs at hl
  induction cs generalizing l with
  | nil =>
    obtain rfl : l = [] := by simpa using hl
    simp
  | cons c cs ih =>
    rw [splitOnP_cons_eq_if_modifyHead] at hl
    by_cases hc : p c = true
    · rw [if_pos hc] at hl
      rcases mem_cons.1 hl with rfl | hl
      · simp
      · exact ih l hl
    · rw [if_neg hc] at hl
      -- the first piece is longer by the character that is no separator
      cases hpieces : cs.splitOnP p with
      | nil => exact absurd hpieces (splitOnP_ne_nil p cs)
      | cons first rest =>
        rw [hpieces, modifyHead_cons] at hl
        rcases mem_cons.1 hl with rfl | hl
        · have hfirst := ih first (by rw [hpieces]; exact mem_cons_self)
          simpa [hc] using hfirst
        · exact ih l (by rw [hpieces]; exact mem_cons_of_mem _ hl)

/-- Splitting what was joined from pieces without the separator gives the pieces. -/
lemma split_join {c : Char} {pieces : List String} (hpieces : ∀ piece ∈ pieces, c ∉ piece.toList)
    (hne : pieces ≠ []) : split (· == c) (join (String.ofList [c]) pieces) = pieces := by
  have hlists : (pieces.map String.toList).map String.ofList = pieces := by
    simp [Function.comp_def]
  have hsplit : ([c].intercalate (pieces.map String.toList)).splitOn c =
      pieces.map String.toList :=
    splitOn_intercalate c (by simpa using hpieces) (by simpa using hne)
  have htext := toList_join_ofList c (pieces.map String.toList)
  rw [hlists] at htext
  rw [split, htext]
  exact (congrArg (List.map String.ofList) hsplit).trans hlists

/-- The lines of what was joined by line feeds from texts without line ends. -/
lemma lines_join {pieces : List String}
    (hpieces : ∀ piece ∈ pieces, piece ≠ "" ∧ '\n' ∉ piece.toList ∧ '\r' ∉ piece.toList) :
    lines (join "\n" pieces) = pieces := by
  cases pieces with
  | nil => rfl
  | cons first rest =>
    have hsplit : (join "\n" (first :: rest)).toList.splitOnP (· == '\n') =
        (first :: rest).map String.toList := by
      have hpieces' := split_join (fun piece h => (hpieces piece h).2.1) (cons_ne_nil first rest)
      refine map_injective_iff.2 (fun _ _ h => String.ofList_injective h) ?_
      rw [map_map]
      refine hpieces'.trans ?_
      simp [Function.comp_def]
    have hlast : ((first :: rest).map String.toList).getLast? ≠ some [] := by
      intro h
      obtain ⟨piece, hpiece, hnil⟩ := mem_map.1 (mem_of_getLast? h)
      exact (hpieces piece hpiece).1 (String.toList_inj.1 hnil)
    rw [lines, hsplit, if_neg hlast, map_map]
    refine (map_congr_left fun piece hpiece => ?_).trans (map_id _)
    rw [Function.comp_apply, if_neg, String.ofList_toList, id]
    exact fun h => (hpieces piece hpiece).2.2 (mem_of_getLast? h)

end Lib.Text
