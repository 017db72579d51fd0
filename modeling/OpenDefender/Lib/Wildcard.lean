import Mathlib.Tactic

/-!
Wildcard patterns, the common part of Redis key patterns and of SQL `LIKE`.

A pattern is a list of tokens: any text, any one character, or one fixed character. `accepts` is
the matcher; `accepts_any` and `accepts_literal` describe it by cutting the text, and
`accepts_literal_any_literal` is the shape the key patterns of a store have. `glob` and `like`
read the two concrete notations; `globMatches_append` composes patterns. A text in a `LIKE` pattern stands
for itself if it `ReadsLiterally`; if not, the `shortest` text that fits tells the two apart.
-/

namespace Lib.Wildcard

open List

/-- One token of a pattern. -/
inductive Token where
  /-- Any text, also the empty one. -/
  | any
  /-- Any one character. -/
  | one
  /-- This character. -/
  | lit (c : Char)
  deriving DecidableEq, Repr

/-- The matcher. -/
def accepts : List Token → List Char → Bool
  | [], cs => cs.isEmpty
  | .any :: ts, cs => cs.tails.any (accepts ts)
  | .one :: ts, cs => match cs with
    | [] => false
    | _ :: cs => accepts ts cs
  | .lit c :: ts, cs => match cs with
    | [] => false
    | d :: cs => c == d && accepts ts cs

/-- The tokens of a fixed text. -/
def literal (s : String) : List Token :=
  s.toList.map .lit

/-- Redis key patterns: `*` is any text, `?` any one character. (Redis also knows bracketed
classes and backslash escapes.) -/
def glob (pattern : String) : List Token :=
  pattern.toList.map fun c => if c = '*' then .any else if c = '?' then .one else .lit c

/-- The tokens of an SQL `LIKE` pattern, given by its characters: `%` is any text, `_` any one
character, and a backslash makes the next character stand for itself. -/
def likeTokens : List Char → List Token
  | [] => []
  | '\\' :: c :: cs => .lit c :: likeTokens cs
  | '%' :: cs => .any :: likeTokens cs
  | '_' :: cs => .one :: likeTokens cs
  | c :: cs => .lit c :: likeTokens cs

/-- SQL `s LIKE pattern`. -/
def like (pattern s : String) : Bool :=
  accepts (likeTokens pattern.toList) s.toList

/-- `s` matches the Redis pattern. -/
def globMatches (pattern s : String) : Bool :=
  accepts (glob pattern) s.toList

/-! ### Cutting the text at a token -/

/-- Any text, then the rest of the pattern: the text is cut somewhere. -/
lemma accepts_any (ts : List Token) (cs : List Char) :
    accepts (.any :: ts) cs = true ↔ ∃ u v, cs = u ++ v ∧ accepts ts v = true := by
  simp only [accepts, any_eq_true, mem_tails]
  constructor
  · rintro ⟨v, ⟨u, rfl⟩, hv⟩
    exact ⟨u, v, rfl, hv⟩
  · rintro ⟨u, v, rfl, hv⟩
    exact ⟨v, ⟨u, rfl⟩, hv⟩

/-- A fixed text, then the rest of the pattern: the text starts with it. -/
lemma accepts_literal (l : List Char) (ts : List Token) (cs : List Char) :
    accepts (l.map .lit ++ ts) cs = true ↔ ∃ r, cs = l ++ r ∧ accepts ts r = true := by
  induction l generalizing cs with
  | nil => simp
  | cons c l ih =>
    cases cs with
    | nil => simp [accepts]
    | cons d cs =>
      simp only [map_cons, cons_append, accepts, Bool.and_eq_true, beq_iff_eq, ih]
      constructor
      · rintro ⟨rfl, r, rfl, hr⟩
        exact ⟨r, rfl, hr⟩
      · rintro ⟨r, h, hr⟩
        obtain ⟨rfl, rfl⟩ := List.cons.inj h
        exact ⟨rfl, r, rfl, hr⟩

/-- A fixed text, anything, a fixed text. -/
lemma accepts_literal_any_literal (a b cs : List Char) :
    accepts (a.map .lit ++ .any :: b.map .lit) cs = true ↔ ∃ m, cs = a ++ m ++ b := by
  have hb (v : List Char) : accepts (b.map .lit) v = true ↔ v = b := by
    have h := accepts_literal b [] v
    simpa [accepts] using h
  rw [accepts_literal]
  simp only [accepts_any, hb]
  constructor
  · rintro ⟨r, rfl, u, v, rfl, rfl⟩
    exact ⟨u, (append_assoc a u v).symm⟩
  · rintro ⟨m, rfl⟩
    exact ⟨m ++ b, append_assoc a m b, m, b, rfl, rfl⟩

/-- Two patterns one after the other accept two texts one after the other. -/
lemma accepts_append {ts us : List Token} {cs ds : List Char} (h : accepts ts cs = true)
    (h' : accepts us ds = true) : accepts (ts ++ us) (cs ++ ds) = true := by
  induction ts generalizing cs with
  | nil =>
    obtain rfl : cs = [] := by simpa [accepts] using h
    exact h'
  | cons t ts ih =>
    cases t with
    | any =>
      obtain ⟨u, v, rfl, hv⟩ := (accepts_any ts cs).1 h
      exact (accepts_any _ _).2 ⟨u, v ++ ds, append_assoc u v ds, ih hv⟩
    | one =>
      cases cs with
      | nil => cases h
      | cons c cs => exact ih h
    | lit c =>
      cases cs with
      | nil => cases h
      | cons d cs =>
        simp only [accepts, Bool.and_eq_true] at h
        simp only [cons_append, accepts, Bool.and_eq_true]
        exact ⟨h.1, ih h.2⟩

/-- Redis patterns one after the other. -/
lemma globMatches_append {p q s t : String} (h : globMatches p s = true)
    (h' : globMatches q t = true) : globMatches (p ++ q) (s ++ t) = true := by
  have happend := accepts_append h h'
  unfold globMatches glob at happend ⊢
  rw [String.toList_append, String.toList_append, map_append]
  exact happend

lemma globMatches_star (s : String) : globMatches "*" s = true :=
  (accepts_any [] s.toList).2 ⟨s.toList, [], (append_nil _).symm, rfl⟩

/-- A text, read as a Redis pattern, fits itself. -/
lemma globMatches_self (s : String) : globMatches s s = true := by
  have key (l : List Char) : accepts (l.map fun c =>
      if c = '*' then .any else if c = '?' then .one else .lit c) l = true := by
    induction l with
    | nil => rfl
    | cons c l ih =>
      rw [map_cons]
      split
      · exact (accepts_any _ _).2 ⟨[c], l, rfl, ih⟩
      · split
        · exact ih
        · simpa [accepts] using ih
  exact key s.toList

/-! ### `LIKE` patterns that are read literally -/

/-- `LIKE` reads the character as itself. -/
def isPlain (c : Char) : Bool := c != '%' && c != '_' && c != '\\'

lemma likeTokens_cons {c : Char} (h : isPlain c = true) (cs : List Char) :
    likeTokens (c :: cs) = .lit c :: likeTokens cs := by
  conv_lhs => unfold likeTokens
  split <;> simp_all [isPlain]

lemma likeTokens_append {l : List Char} (h : ∀ c ∈ l, isPlain c = true) (rest : List Char) :
    likeTokens (l ++ rest) = l.map .lit ++ likeTokens rest := by
  induction l with
  | nil => rfl
  | cons c l ih =>
    rw [forall_mem_cons] at h
    rw [cons_append, likeTokens_cons h.1, ih h.2]
    rfl

/-- A plain text, then `%`: the texts that start with it. -/
lemma like_plain_percent {p : String} (h : ∀ c ∈ p.toList, isPlain c = true) {s : String} :
    like (p ++ "%") s = true ↔ ∃ r, s = p ++ r := by
  rw [like, String.toList_append, likeTokens_append h, accepts_literal]
  constructor
  · rintro ⟨r, hr, -⟩
    exact ⟨String.ofList r, by rw [← String.toList_inj, hr]; simp⟩
  · rintro ⟨r, rfl⟩
    exact ⟨r.toList, String.toList_append, (accepts_any [] _).2 ⟨r.toList, [], by simp, rfl⟩⟩

/-- `LIKE` reads the whole text as itself; a backslash at its end has nothing to escape. -/
def ReadsLiterally (s : String) : Prop :=
  (∀ c ∈ s.toList, c ≠ '%' ∧ c ≠ '_') ∧ '\\' ∉ s.toList.dropLast

instance (s : String) : Decidable (ReadsLiterally s) := inferInstanceAs (Decidable (_ ∧ _))

lemma ReadsLiterally.likeTokens_eq {s : String} (h : ReadsLiterally s) : likeTokens s.toList = literal s := by
  rw [literal]
  obtain ⟨hplain, hlast⟩ := h
  generalize s.toList = l at hplain hlast
  rcases eq_nil_or_concat l with rfl | ⟨front, c, rfl⟩
  · rfl
  · rw [concat_eq_append, dropLast_concat] at *
    have hfront : ∀ d ∈ front, isPlain d = true := by
      intro d hd
      have hne : d ≠ '\\' := fun h => hlast (h ▸ hd)
      simpa [isPlain, hne] using hplain d (mem_append_left _ hd)
    obtain ⟨hany, hone⟩ := hplain c (by simp)
    rw [likeTokens_append hfront, map_append]
    unfold likeTokens
    split <;> simp_all [likeTokens]

/-- The shortest text that fits, with the given character for any one. -/
def shortest (x : Char) : List Token → List Char
  | [] => []
  | .any :: ts => shortest x ts
  | .one :: ts => x :: shortest x ts
  | .lit c :: ts => c :: shortest x ts

lemma accepts_shortest (x : Char) (ts : List Token) : accepts ts (shortest x ts) = true := by
  induction ts with
  | nil => rfl
  | cons t ts ih =>
    cases t with
    | any => exact (accepts_any _ _).2 ⟨[], _, rfl, ih⟩
    | one => exact ih
    | lit c => simpa [accepts, shortest] using ih

lemma length_shortest_le (x : Char) (l : List Char) : (shortest x (likeTokens l)).length ≤ l.length := by
  fun_induction likeTokens l <;> simp only [shortest, length_cons, length_nil] <;> omega

/-- The shortest text is the pattern itself only if the pattern is read literally; a backslash at the end stands for
itself. -/
lemma plain_of_shortest {x : Char} (hx : x ≠ '_') {l : List Char} (h : shortest x (likeTokens l) = l) :
    ReadsLiterally (String.ofList l) := by
  rw [ReadsLiterally, String.toList_ofList]
  fun_induction likeTokens l with
  | case1 => simp
  | case2 c cs ih =>
    have hlen := length_shortest_le x cs
    have heq := congrArg List.length h
    simp only [shortest, length_cons] at heq
    omega
  | case3 cs ih =>
    have hlen := length_shortest_le x cs
    have heq := congrArg List.length h
    simp only [shortest, length_cons] at heq
    omega
  | case4 cs ih => exact absurd (List.cons.inj h).1 hx
  | case5 c cs hescape hany hone ih =>
    obtain ⟨hplain, hlast⟩ := ih (List.cons.inj h).2
    refine ⟨forall_mem_cons.2 ⟨⟨hany, hone⟩, hplain⟩, ?_⟩
    cases cs with
    | nil => simp
    | cons d cs =>
      rw [dropLast_cons_cons, mem_cons, not_or]
      exact ⟨fun hc => hescape d cs hc.symm rfl, hlast⟩

/-- Likewise for a pattern that ends with `%`, which a backslash before it would make literal. -/
lemma shortest_percent {x : Char} (hx : x ≠ '_') (l : List Char) :
    (shortest x (likeTokens (l ++ ['%']))).length ≤ l.length ∧
      (l <+: shortest x (likeTokens (l ++ ['%'])) → ∀ c ∈ l, isPlain c = true) := by
  fun_induction likeTokens l with
  | case1 => simp [likeTokens, shortest]
  | case2 c cs ih =>
    simp only [cons_append, likeTokens, shortest, length_cons]
    refine ⟨by omega, fun hprefix => absurd hprefix.length_le ?_⟩
    simp only [length_cons]
    omega
  | case3 cs ih =>
    simp only [cons_append, likeTokens, shortest, length_cons]
    refine ⟨by omega, fun hprefix => absurd hprefix.length_le ?_⟩
    simp only [length_cons]
    omega
  | case4 cs ih =>
    simp only [cons_append, likeTokens, shortest, length_cons, cons_prefix_cons]
    exact ⟨by omega, fun hprefix => absurd hprefix.1.symm hx⟩
  | case5 c cs hescape hany hone ih =>
    by_cases hc : c = '\\'
    · cases cs with
      | nil => simp [hc, likeTokens, shortest]
      | cons d cs => exact absurd rfl (hescape d cs hc)
    · have hplain : isPlain c = true := by simpa [isPlain, hc] using ⟨hany, hone⟩
      rw [cons_append, likeTokens_cons hplain]
      simp only [shortest, length_cons, cons_prefix_cons]
      exact ⟨by omega, fun hprefix => forall_mem_cons.2 ⟨hplain, ih.2 hprefix.2⟩⟩

end Lib.Wildcard
