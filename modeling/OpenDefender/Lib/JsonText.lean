import Mathlib.Data.List.Infix
import Mathlib.Tactic

/-!
The grammar of JSON texts, as far as strings, brackets and braces go: the texts of numbers and literal names are any
texts of their characters, and an escape in a string is a backslash with any character.
-/

namespace Lib.JsonText

/-- Whitespace. -/
def Blank (l : List Char) : Prop := ∀ c ∈ l, c = ' ' ∨ c = '\t' ∨ c = '\n' ∨ c = '\r'

/-- The text of a number or a literal name. -/
def Scalar (l : List Char) : Prop := ∀ c ∈ l, c.isAlphanum = true ∨ c = '-' ∨ c = '+' ∨ c = '.'

/-- What stands between the quotes of a string. -/
inductive StringBody : List Char → Prop
  | nil : StringBody []
  | char {c : Char} {l : List Char} (hquote : c ≠ '"') (hescape : c ≠ '\\') (hl : StringBody l) : StringBody (c :: l)
  | escape {c : Char} {l : List Char} (hl : StringBody l) : StringBody ('\\' :: c :: l)

/-- A string with its quotes. -/
def quoted (l : List Char) : List Char := '"' :: (l ++ ['"'])

/-- The kinds of text the grammar derives. -/
inductive Nonterminal where
  | value
  | elements
  | member
  | members
  deriving DecidableEq, Repr

/-- The texts of each kind. -/
inductive Derives : Nonterminal → List Char → Prop
  | scalar {l : List Char} (hl : Scalar l) : Derives .value l
  | string {l : List Char} (hl : StringBody l) : Derives .value (quoted l)
  | emptyArray {w : List Char} (hw : Blank w) : Derives .value ('[' :: (w ++ [']']))
  | array {l : List Char} (hl : Derives .elements l) : Derives .value ('[' :: (l ++ [']']))
  | emptyObject {w : List Char} (hw : Blank w) : Derives .value ('{' :: (w ++ ['}']))
  | object {l : List Char} (hl : Derives .members l) : Derives .value ('{' :: (l ++ ['}']))
  | element {w v w' : List Char} (hw : Blank w) (hv : Derives .value v) (hw' : Blank w') :
      Derives .elements (w ++ v ++ w')
  | elements {w v w' l : List Char} (hw : Blank w) (hv : Derives .value v) (hw' : Blank w')
      (hl : Derives .elements l) : Derives .elements (w ++ v ++ w' ++ [','] ++ l)
  | member {w k w' u v u' : List Char} (hw : Blank w) (hk : StringBody k) (hw' : Blank w') (hu : Blank u)
      (hv : Derives .value v) (hu' : Blank u') : Derives .member (w ++ quoted k ++ w' ++ [':'] ++ u ++ v ++ u')
  | members {m : List Char} (hm : Derives .member m) : Derives .members m
  | moreMembers {m l : List Char} (hm : Derives .member m) (hl : Derives .members l) :
      Derives .members (m ++ [','] ++ l)

/-- The text of an object, from its opening to its closing brace. -/
def IsObject (l : List Char) : Prop := Derives .value l ∧ l.head? = some '{'

end Lib.JsonText
