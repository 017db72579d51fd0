import OpenDefender.Lib.JsonText

/-!
The JSON object in what a model returns (`extract_balanced_json_object` of `workers/llm-worker/src/main.rs`).

The scanner counts braces outside strings and offers to the JSON parser what lies between the first brace and the one that
closes it. The delimiters are ASCII, so a scan of the bytes and a scan of the characters stop at the same places.

`Passes` says of a text that the scanner, inside an object, comes out of it as it went in. All texts of the grammar
do (`passes_of_derives`), so that the scanner ends an object where the grammar ends it
(`extractBalancedJsonObject_spec`).
-/

namespace OpenDefender.Worker

open Lib.JsonText List

/-- The variables of the scan. -/
structure ScanState where
  start : Option ℕ
  depth : ℕ
  inString : Bool
  escaped : Bool
  deriving DecidableEq, Repr

/-- The variables after one more character. -/
def ScanState.next (s : ScanState) (idx : ℕ) (b : Char) : ScanState :=
  if s.inString then
    if s.escaped then { s with escaped := false }
    else if b = '\\' then { s with escaped := true }
    else if b = '"' then { s with inString := false }
    else s
  else if b = '"' then { s with inString := true }
  else if b = '{' then { s with start := if s.depth = 0 then some idx else s.start, depth := s.depth + 1 }
  else if b = '}' then
    if s.depth = 0 then s
    else { s with start := if s.depth = 1 then none else s.start, depth := s.depth - 1 }
  else s

/-- Where the object begins that the character closes. -/
def ScanState.closes (s : ScanState) (b : Char) : Option ℕ :=
  if s.inString = false ∧ b = '}' ∧ s.depth = 1 then s.start else none

/-- The loop over the characters from `idx` on; `accepts` is the JSON parser. -/
def scanObject (accepts : String → Bool) (text : List Char) (s : ScanState) (idx : ℕ) : List Char → Option String
  | [] => none
  | b :: rest =>
    match ((s.closes b).map fun start => String.ofList ((text.take (idx + 1)).drop start)).filter accepts with
    | some candidate => some candidate
    | none => scanObject accepts text (s.next idx b) (idx + 1) rest

/-- `extract_balanced_json_object`. -/
def extractBalancedJsonObject (accepts : String → Bool) (text : String) : Option String :=
  scanObject accepts text.toList ⟨none, 0, false, false⟩ 0 text.toList

variable {accepts : String → Bool} {text l l' rest : List Char} {s : ScanState} {idx start depth : ℕ} {c : Char}

/-- A character that closes no object. -/
lemma scanObject_cons (h : s.closes c = none) :
    scanObject accepts text s idx (c :: rest) = scanObject accepts text (s.next idx c) (idx + 1) rest := by
  rw [scanObject, h]
  rfl

/-! ### Inside an object -/

/-- The state inside an object. -/
def inObject (start depth : ℕ) : ScanState := ⟨some start, depth + 1, false, false⟩

/-- The scanner comes out of the text as it went in, if that is inside an object. -/
def Passes (l : List Char) : Prop :=
  ∀ accepts text start depth idx rest, scanObject accepts text (inObject start depth) idx (l ++ rest) =
    scanObject accepts text (inObject start depth) (idx + l.length) rest

lemma Passes.append (h : Passes l) (h' : Passes l') : Passes (l ++ l') := by
  intro accepts text start depth idx rest
  rw [append_assoc, h, h', length_append, Nat.add_assoc]

/-- Outside strings, only quotes and braces matter. -/
lemma passes_of_plain (h : ∀ c ∈ l, c ≠ '"' ∧ c ≠ '{' ∧ c ≠ '}') : Passes l := by
  induction l with
  | nil => exact fun _ _ _ _ _ _ => rfl
  | cons c l ih =>
    obtain ⟨⟨hquote, hopen, hclose⟩, hl⟩ := forall_mem_cons.1 h
    intro accepts text start depth idx rest
    rw [cons_append, scanObject_cons (by simp [ScanState.closes, hclose])]
    have hnext : (inObject start depth).next idx c = inObject start depth := by
      simp [ScanState.next, inObject, hquote, hopen, hclose]
    rw [hnext, ih hl, length_cons, Nat.add_right_comm, Nat.add_assoc]

/-- The scan of the rest of a string. -/
lemma scanObject_string (h : StringBody l) :
    scanObject accepts text ⟨some start, depth + 1, true, false⟩ idx (l ++ '"' :: rest) =
      scanObject accepts text (inObject start depth) (idx + l.length + 1) rest := by
  induction h generalizing idx with
  | nil =>
    rw [nil_append, scanObject_cons (by simp [ScanState.closes])]
    rfl
  | @char c l hquote hescape hl ih =>
    rw [cons_append, scanObject_cons (by simp [ScanState.closes])]
    simp only [ScanState.next, hquote, hescape, if_true, if_false, Bool.false_eq_true]
    rw [ih, length_cons, Nat.add_right_comm idx 1]
    rfl
  | @escape c l hl ih =>
    rw [cons_append, cons_append, scanObject_cons (by simp [ScanState.closes]),
      scanObject_cons (by simp [ScanState.closes, ScanState.next])]
    simp only [ScanState.next, if_true, if_false, Bool.false_eq_true]
    rw [ih]
    congr 1
    simp only [length_cons]
    omega

lemma passes_quoted (h : StringBody l) : Passes (quoted l) := by
  intro accepts text start depth idx rest
  rw [quoted, cons_append, append_assoc, scanObject_cons (by simp [ScanState.closes])]
  refine (scanObject_string h).trans ?_
  congr 1
  simp
  omega

/-- An object inside an object. -/
lemma Passes.braces (h : Passes l) : Passes ('{' :: (l ++ ['}'])) := by
  intro accepts text start depth idx rest
  rw [cons_append, append_assoc, scanObject_cons (by simp [ScanState.closes])]
  have hopen : (inObject start depth).next idx '{' = inObject start (depth + 1) := by
    simp [ScanState.next, inObject]
  have hclose : (inObject start (depth + 1)).next (idx + 1 + l.length) '}' = inObject start depth := by
    simp [ScanState.next, inObject]
  rw [hopen, h, singleton_append, scanObject_cons (by simp [ScanState.closes, inObject]), hclose]
  congr 1
  simp
  omega

lemma passes_blank (h : Blank l) : Passes l :=
  passes_of_plain fun c hc => by rcases h c hc with rfl | rfl | rfl | rfl <;> decide

lemma Passes.brackets (h : Passes l) : Passes ('[' :: (l ++ [']'])) :=
  ((passes_of_plain (l := ['[']) (by simp)).append h).append (passes_of_plain (by simp))

/-- **The scanner passes every text of the grammar.** -/
lemma passes_of_derives (h : Derives n l) : Passes l := by
  have hcomma : Passes [','] := passes_of_plain (by simp)
  induction h with
  | scalar hl =>
    refine passes_of_plain fun c hc => ?_
    rcases hl c hc with h | rfl | rfl | rfl
    · refine ⟨?_, ?_, ?_⟩ <;> rintro rfl <;> cases h
    all_goals decide
  | string hl => exact passes_quoted hl
  | emptyArray hw => exact (passes_blank hw).brackets
  | array _ ih => exact ih.brackets
  | emptyObject hw => exact (passes_blank hw).braces
  | object _ ih => exact ih.braces
  | element hw _ hw' ih => exact ((passes_blank hw).append ih).append (passes_blank hw')
  | elements hw _ hw' _ ih ih' =>
    exact ((((passes_blank hw).append ih).append (passes_blank hw')).append hcomma).append ih'
  | member hw hk hw' hu _ hu' ih =>
    have hname := ((passes_blank hw).append (passes_quoted hk)).append (passes_blank hw')
    have hcolon : Passes [':'] := passes_of_plain (by simp)
    exact (((hname.append hcolon).append (passes_blank hu)).append ih).append (passes_blank hu')
  | members _ ih => exact ih
  | moreMembers _ _ ih ih' => exact (ih.append hcomma).append ih'

/-! ### The object -/

/-- Between the braces of an object. -/
lemma passes_inside (h : IsObject l) : ∃ inside, l = '{' :: (inside ++ ['}']) ∧ Passes inside := by
  obtain ⟨hvalue, hhead⟩ := h
  cases hvalue with
  | scalar hl =>
    have hopen := hl '{' (mem_of_mem_head? hhead)
    simp at hopen
  | string hl => simp [quoted] at hhead
  | emptyArray hw => simp at hhead
  | array hl => simp at hhead
  | emptyObject hw => exact ⟨_, rfl, passes_blank hw⟩
  | object hl => exact ⟨_, rfl, passes_of_derives hl⟩

/-- Before the object nothing happens. -/
lemma scanObject_before (h : ∀ c ∈ l, c ≠ '"' ∧ c ≠ '{') :
    scanObject accepts text ⟨none, 0, false, false⟩ idx (l ++ rest) =
      scanObject accepts text ⟨none, 0, false, false⟩ (idx + l.length) rest := by
  induction l generalizing idx with
  | nil => rfl
  | cons c l ih =>
    obtain ⟨⟨hquote, hopen⟩, hl⟩ := forall_mem_cons.1 h
    rw [cons_append, scanObject_cons (by simp [ScanState.closes])]
    simp only [ScanState.next, hquote, hopen, if_true, if_false, Bool.false_eq_true, ite_self]
    rw [ih hl, length_cons, Nat.add_right_comm, Nat.add_assoc]

/-- What the scanner returns is a part of the text that the parser accepts. -/
lemma scanObject_sound (h : scanObject accepts text s idx l = some o) :
    o.toList <:+: text ∧ accepts o = true := by
  induction l generalizing s idx with
  | nil => cases h
  | cons c l ih =>
    rw [scanObject] at h
    split at h
    · rename_i candidate hcandidate
      obtain rfl := Option.some.inj h
      obtain ⟨hsome, haccepts⟩ := Option.filter_eq_some_iff.1 hcandidate
      obtain ⟨start, -, rfl⟩ := Option.map_eq_some_iff.1 hsome
      refine ⟨?_, haccepts⟩
      rw [String.toList_ofList]
      exact (drop_suffix _ _).isInfix.trans (List.take_prefix _ _).isInfix
    · exact ih h

/-- **The object in a text.** Whatever the JSON parser is: where no quote and no opening brace stands before an object that
the parser accepts, the scanner returns this object; and whatever it returns is a part of the text that the parser
accepts. -/
theorem extractBalancedJsonObject_spec (accepts : String → Bool) :
    (∀ p o s : String, '"' ∉ p.toList → '{' ∉ p.toList → IsObject o.toList → accepts o = true →
        extractBalancedJsonObject accepts (p ++ o ++ s) = some o) ∧
      ∀ text o : String, extractBalancedJsonObject accepts text = some o →
        o.toList <:+: text.toList ∧ accepts o = true := by
  refine ⟨fun p o s hquote hopen ho haccepts => ?_, fun text o h => scanObject_sound h⟩
  obtain ⟨inside, hinside, hpasses⟩ := passes_inside ho
  have hbefore : ∀ c ∈ p.toList, c ≠ '"' ∧ c ≠ '{' :=
    fun c hc => ⟨fun h => hquote (h ▸ hc), fun h => hopen (h ▸ hc)⟩
  rw [extractBalancedJsonObject]
  generalize htext : (p ++ o ++ s).toList = text
  have hcut : text = p.toList ++ ('{' :: (inside ++ ('}' :: s.toList))) := by
    rw [← htext]
    simp [hinside]
  have hslice : String.ofList ((text.take (p.toList.length + 1 + inside.length + 1)).drop p.toList.length) = o := by
    have hlen : p.toList.length + 1 + inside.length + 1 = (p.toList ++ o.toList).length := by
      simp only [hinside, length_append, length_cons, length_nil]
      omega
    rw [hlen, ← htext, String.toList_append, String.toList_append, take_left, drop_left, String.ofList_toList]
  have hcloses : (inObject p.toList.length 0).closes '}' = some p.toList.length := by
    simp [ScanState.closes, inObject]
  nth_rewrite 2 [hcut]
  rw [scanObject_before hbefore, scanObject_cons (by simp [ScanState.closes]), Nat.zero_add]
  refine (hpasses accepts text p.toList.length 0 _ _).trans ?_
  rw [scanObject, hcloses, Option.map_some, hslice, Option.filter_some, if_pos haccepts]

/-- A brace before the object that closes nothing. -/
theorem extractBalancedJsonObject_empty :
    extractBalancedJsonObject (fun _ => true) "\x7d is \x7b\x7d, \x7b" = some "\x7b\x7d" := by
  have hobject : IsObject "\x7b\x7d".toList := ⟨.emptyObject (w := []) (by simp [Blank]), rfl⟩
  exact (extractBalancedJsonObject_spec fun _ => true).1 "\x7d is " "\x7b\x7d" ", \x7b" (by decide) (by decide)
    hobject rfl

/-- A brace in a string does not end the object. -/
example : extractBalancedJsonObject (fun _ => true) "\x7b\"a\": \x7b\"b\": \"\x7d\\\"\"\x7d\x7d \x7d" =
    some "\x7b\"a\": \x7b\"b\": \"\x7d\\\"\"\x7d\x7d" := by
  decide +kernel

end OpenDefender.Worker
