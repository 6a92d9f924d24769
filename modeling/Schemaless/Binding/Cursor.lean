import Schemaless.Effect

/-!
# The parameters of a statement

The placeholders of a statement take its parameters from left to right. A cursor holds the
parameters and counts those taken; the count stays where it is when binding fails.
-/

namespace Schemaless

/-- Parameters, and how many of them are taken. -/
structure Cursor where
  parameters : List Value
  position : Nat := 0

/-- The number of parameters not yet taken. -/
def Cursor.remaining (c : Cursor) : Nat := c.parameters.length - c.position

/-- A computation that takes parameters and may fail. -/
abbrev Binding (α : Type) : Type := Effect Cursor α

namespace Binding

/-- Takes the next parameter. -/
def next : Binding Value := fun c =>
  match c.parameters[c.position]? with
  | some v => (.ok v, { c with position := c.position + 1 })
  | none => (.error (.binding c.position c.parameters.length), c)

/-- Takes the next `n` parameters. -/
def take : Nat → Binding (List Value)
  | 0 => pure []
  | n + 1 => do
    let v ← next
    let vs ← take n
    pure (v :: vs)

end Binding

end Schemaless
