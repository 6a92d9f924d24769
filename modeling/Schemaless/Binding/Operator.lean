import Schemaless.Failure
import Schemaless.Text.Blank
import Schemaless.Text.Pieces

/-!
# Comparison operators

The operators of conditions, their text, their inverse, and the predicate that each builds from a
bound value. Only `=` and `IN` have an inverse.
-/

namespace Schemaless

/-- A comparison or membership operator. -/
inductive Operator where
  | equal
  | notEqual
  | less
  | lessEqual
  | greater
  | greaterEqual
  | isIn
  | notIn
deriving DecidableEq

namespace Operator

/-- All operators. -/
def all : List Operator :=
  [equal, notEqual, less, lessEqual, greater, greaterEqual, isIn, notIn]

/-- The text of an operator. -/
def text : Operator → String
  | equal => "="
  | notEqual => "!="
  | less => "<"
  | lessEqual => "<="
  | greater => ">"
  | greaterEqual => ">="
  | isIn => "IN"
  | notIn => "NOT IN"

/-- The name of an operator in a predicate. -/
def name : Operator → String
  | equal => "$eq"
  | notEqual => "$ne"
  | less => "$lt"
  | lessEqual => "$lte"
  | greater => "$gt"
  | greaterEqual => "$gte"
  | isIn => "$in"
  | notIn => "$nin"

/-- Whether the operator takes a list. -/
def isMembership : Operator → Bool
  | isIn => true
  | notIn => true
  | _ => false

/-- The capital of a letter as far as operators go: of ASCII letters and of the dotless `ı`. -/
def capital (c : Char) : Char := if c = 'ı' then 'I' else c.toUpper

/-- An operator's text with single blanks and in capitals. -/
def normalized (cs : List Char) : List Char :=
  (([' '].intercalate (Text.words cs))).map capital

/-- The operator that a text writes, whatever its blanks and its case. -/
def ofText? (cs : List Char) : Option Operator :=
  all.find? fun o => o.text.toList == normalized cs

/-- The operator of a text, or the failure that names the text. -/
def parse (text : String) : Except Failure Operator :=
  match ofText? text.toList with
  | some o => .ok o
  | none => .error (.unsupportedOperator text)

/-- The operator that `NOT` makes of an operator. -/
def inverse : Operator → Except Failure Operator
  | equal => .ok notEqual
  | isIn => .ok notIn
  | o => .error (.unsupportedOperator ("NOT " ++ o.text))

/-- The operator of a text and an inverse flag. -/
def resolve (text : String) (inverted : Bool) : Except Failure Operator :=
  match parse text with
  | .error e => .error e
  | .ok o => if inverted then o.inverse else .ok o

/-- The operand of a membership operator: the trimmed parts of a text between its commas, the list
itself, or a list of one. -/
def asList : Value → List Value
  | .str s =>
    (Text.pieces ',' [] none s.toList).map fun part => .str (String.ofList (Text.trimmed part))
  | .arr items => items
  | v => [v]

/-- The operand of an operator for a bound value. -/
def operand (o : Operator) (v : Value) : Value := if o.isMembership then .arr (asList v) else v

/-- The condition that an operator makes of a bound value. -/
def build (o : Operator) (v : Value) : Value := .obj [(o.name, o.operand v)]

theorem ofText?_text (o : Operator) : ofText? o.text.toList = some o := by
  cases o <;> decide +kernel

end Operator

end Schemaless
