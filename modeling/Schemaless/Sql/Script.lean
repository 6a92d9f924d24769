import Schemaless.Text.Blank
import Schemaless.Text.Pieces

/-!
# Scripts

A script holds statements that semicolons separate. A semicolon inside quotes belongs to its
statement. Statements are trimmed, and blank ones are skipped.
-/

namespace Schemaless.Sql

/-- The characters that open and close quoted text in a script. -/
def scriptQuotes : List Char := ['\'', '"', Char.ofNat 0x60]

/-- The pieces of a script between the semicolons outside quotes. -/
def scriptPieces (script : List Char) : List (List Char) :=
  Text.pieces ';' scriptQuotes none script

/-- The statements of a script. -/
def statementsOf (script : String) : List String :=
  (((scriptPieces script.toList).map Text.trimmed).filter (· ≠ [])).map String.ofList

end Schemaless.Sql
