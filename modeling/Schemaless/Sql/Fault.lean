import Schemaless.Sql.Token.Basic
import Schemaless.Sql.Statement.Basic

/-!
# What can be wrong with a statement

The faults of a statement's text and the faults of running a statement of the wrong kind, each with
its message.
-/

namespace Schemaless.Sql

/-- What stands at a place of a statement. -/
inductive Expected where
  | token (t : Token)
  | identifier
  | statement
  | endOfStatement
  | inAfterNot
  | comparison
  | numberAfterMinus
  | operand
deriving DecidableEq

/-- The words for what was expected. -/
def Expected.message : Expected → String
  | token t => Token.shown (some t)
  | identifier => "identifier"
  | statement => "SELECT, INSERT, UPDATE or DELETE"
  | endOfStatement => "end of statement"
  | inAfterNot => "IN after NOT"
  | comparison => "comparison operator"
  | numberAfterMinus => "number after '-'"
  | operand => "operand"

/-- A fault of a statement. -/
inductive ParseFault where
  | unterminatedText
  | unterminatedIdentifier
  | unexpectedCharacter (c : Char)
  | badNumber (digits : String) (c : Char)
  | unsupported (word : String)
  | unexpected (expected : Expected) (found : Option Token)
  | negatedGroup
  | manyRows
  | valueCount (table : String) (columns values : Nat)
  | notModification (table : String)
  | notSelect (table : String) (kind : StatementKind)
deriving DecidableEq

namespace ParseFault

/-- The fault of meeting another token than the one expected. -/
def expected (e : Expected) : List Token → ParseFault
  | .unsupported word :: _ => .unsupported word
  | ts => .unexpected e ts.head?

/-- The message of a fault. -/
def message : ParseFault → String
  | unterminatedText => "Unterminated string"
  | unterminatedIdentifier => "Unterminated quoted identifier"
  | unexpectedCharacter c => "Unexpected character: " ++ c.toString
  | badNumber digits c => "Invalid number: " ++ digits ++ c.toString
  | unsupported word => word ++ " is not supported"
  | unexpected e found => "Expected " ++ e.message ++ ", found " ++ Token.shown found
  | negatedGroup => "NOT applied to a group of conditions is not supported"
  | manyRows => "Multi-row VALUES is not supported"
  | valueCount table columns values =>
    "INSERT into " ++ table ++ " has " ++ toString columns ++ " columns but " ++ toString values ++
      " values"
  | notModification table => "expected INSERT, UPDATE or DELETE on " ++ table ++ ", found SELECT"
  | notSelect table kind => "expected SELECT on " ++ table ++ ", found " ++ kind.name

end ParseFault

end Schemaless.Sql
