import Schemaless.Text.Shown

/-!
# Tokens of a statement

A statement is a list of tokens: keywords, names, numbers and quoted texts, and symbols. Keywords
that belong to larger dialects are recognised so that a message can name them; they have no place
in a statement. A token is shown in messages by the name of its variant, with its text in quotes.
-/

namespace Schemaless.Sql

/-- The keywords of the supported statements. -/
inductive Keyword where
  | SELECT | FROM | WHERE | INSERT | INTO | VALUES | UPDATE | SET | DELETE
  | AS | AND | OR | NOT | IN | TRUE | FALSE
deriving DecidableEq

/-- The marks between names and values. -/
inductive Mark where
  | placeholder
  | equal
  | notEqual
  | less
  | lessEqual
  | greater
  | greaterEqual
  | minus
  | star
  | comma
  | dot
  | leftParen
  | rightParen
  | semicolon
deriving DecidableEq

/-- One token. Numbers keep their text; quoted texts and names are given without their quotes. -/
inductive Token where
  | keyword (k : Keyword)
  | unsupported (word : String)
  | identifier (name : String)
  | number (text : String)
  | text (value : String)
  | mark (m : Mark)
deriving DecidableEq

namespace Keyword

/-- The keywords by their spelling in capitals. -/
def table : List (String × Keyword) :=
  [("SELECT", SELECT), ("FROM", FROM), ("WHERE", WHERE), ("INSERT", INSERT), ("INTO", INTO),
   ("VALUES", VALUES), ("UPDATE", UPDATE), ("SET", SET), ("DELETE", DELETE), ("AS", AS),
   ("AND", AND), ("OR", OR), ("NOT", NOT), ("IN", IN), ("TRUE", TRUE), ("FALSE", FALSE)]

/-- Keywords that are known and refused. -/
def unsupported : List String :=
  ["JOIN", "LEFT", "RIGHT", "INNER", "OUTER", "ON", "GROUP", "ORDER", "HAVING", "LIMIT", "OFFSET",
   "UNION", "LIKE", "BETWEEN", "IS", "DISTINCT"]

/-- The name under which a keyword is shown. -/
def variant : Keyword → String
  | SELECT => "Select"
  | FROM => "From"
  | WHERE => "Where"
  | INSERT => "Insert"
  | INTO => "Into"
  | VALUES => "Values"
  | UPDATE => "Update"
  | SET => "Set"
  | DELETE => "Delete"
  | AS => "As"
  | AND => "And"
  | OR => "Or"
  | NOT => "Not"
  | IN => "In"
  | TRUE => "True"
  | FALSE => "False"

end Keyword

/-- The name under which a mark is shown. -/
def Mark.variant : Mark → String
  | placeholder => "Placeholder"
  | equal => "Equal"
  | notEqual => "NotEqual"
  | less => "LessThan"
  | lessEqual => "LessThanEq"
  | greater => "GreaterThan"
  | greaterEqual => "GreaterThanEq"
  | minus => "Minus"
  | star => "Star"
  | comma => "Comma"
  | dot => "Dot"
  | leftParen => "LeftParen"
  | rightParen => "RightParen"
  | semicolon => "Semicolon"

namespace Token

/-- The name of a token's variant. -/
def variant : Token → String
  | keyword k => k.variant
  | unsupported _ => "Unsupported"
  | identifier _ => "Identifier"
  | number _ => "Number"
  | text _ => "String"
  | mark m => m.variant

/-- The text that a token carries, if it carries one. -/
def carried? : Token → Option String
  | unsupported s => some s
  | identifier s => some s
  | number s => some s
  | text s => some s
  | keyword _ => none
  | mark _ => none

/-- The name of what stands after the last token. -/
def endVariant : String := "Eof"

/-- A token, or the end, as a message shows it. -/
def shown : Option Token → String
  | none => endVariant
  | some t =>
    match t.carried? with
    | none => t.variant
    | some s => t.variant ++ "(" ++ Text.shown s ++ ")"

end Token

end Schemaless.Sql
