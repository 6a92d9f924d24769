import Schemaless.Binding.Cursor
import Schemaless.Binding.Literal

/-!
# The values of expressions

An expression without placeholders is a literal. One placeholder takes one parameter; if that is a
text, it is put in the place of the placeholder, so `'Name ?'` is a template. Several placeholders
take as many parameters and make a list.
-/

namespace Schemaless

/-- The mark of a placeholder in an expression. -/
def placeholder : Char := '?'

/-- Whether an expression holds a placeholder. -/
def hasPlaceholder (text : String) : Bool := text.toList.contains placeholder

/-- The number of placeholders of an expression. -/
def placeholderCount (text : String) : Nat := text.toList.count placeholder

/-- Puts a text in the place of the first placeholder. -/
def substituted (inserted : List Char) : List Char → List Char
  | [] => []
  | c :: r => if c = placeholder then inserted ++ r else c :: substituted inserted r

/-- The template of an expression: what stands between its quotes, or the whole of it. -/
def template (text : String) : List Char :=
  let cs := Text.trimmed text.toList
  (Text.unquoted cs).getD cs

/-- The value of an expression whose one placeholder takes `parameter`. -/
def filled (text : String) (parameter : Value) : Value :=
  match parameter with
  | .str s => .str (String.ofList (substituted s.toList (template text)))
  | v => v

/-- The value of an expression without placeholders. -/
def literalValue (membership : Bool) (text : String) : Except Failure Value :=
  let value := if membership then Literal.listValue text.toList else Literal.value text.toList
  value.mapError .coercion

/-- The value of an expression; in a membership condition a literal may be a list. -/
def bindExpression (membership : Bool) (text : String) : Binding Value :=
  match placeholderCount text with
  | 0 => Effect.ofExcept (literalValue membership text)
  | 1 => do
    let v ← Binding.next
    pure (filled text v)
  | n => do
    let vs ← Binding.take n
    pure (.arr vs)

end Schemaless
