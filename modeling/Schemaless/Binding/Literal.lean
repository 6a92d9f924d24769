import Schemaless.Failure
import Schemaless.Text.Blank
import Schemaless.Text.Quoted
import Schemaless.Text.Pieces

/-!
# The values of literals

A literal is a text in single quotes, a truth value in any case, a number with a point, or a whole
number of 64 bits. A list of literals is separated by commas outside quotes; one literal alone is
not a list.
-/

namespace Schemaless

/-- Whether two texts agree but for the case of ASCII letters. -/
def equalsIgnoringCase (a b : List Char) : Bool := a.map Char.toLower == b.map Char.toLower

namespace Literal

/-- The value of a text without blanks at its ends. -/
def ofTrimmed (cs : List Char) : Except CoercionFault Value :=
  if cs.head? = some '\'' then
    match Text.unquoted cs with
    | some s => .ok (.str (String.ofList s))
    | none => .error (.unterminated (String.ofList cs))
  else if equalsIgnoringCase cs "true".toList then .ok (.bool true)
  else if equalsIgnoringCase cs "false".toList then .ok (.bool false)
  else if cs.contains '.' then
    match (Decimal.parse? cs).bind Decimal.toBinary64? with
    | some x => .ok (.num (.float x))
    | none => .error (.notFloat (String.ofList cs))
  else
    match (parseWhole? cs).filter fitsInt64 with
    | some n => .ok (.num (.int n))
    | none => .error (.notInteger (String.ofList cs))

/-- The value of a literal. -/
def value (cs : List Char) : Except CoercionFault Value := ofTrimmed (Text.trimmed cs)

/-- The literals of a list. -/
def items (cs : List Char) : List (List Char) := Text.pieces ',' ['\''] none cs

/-- The value of a list of literals. -/
def listValue (cs : List Char) : Except CoercionFault Value :=
  match items cs with
  | [single] => value single
  | many => (many.mapM value).map .arr

end Literal

end Schemaless
