/-!
# Readers of written values

A reader of a part of a text takes what is left of the text and answers with the part and the rest.
Lists share one shape in all notations: items separated by commas up to a closing character, with
gaps between the parts.
-/

namespace Schemaless.Text

/-- A reader of a part of a text: the part, and the rest of the text. -/
abbrev Reader (α : Type) : Type := List Char → Option (α × List Char)

/-- Puts a character in front of the text that was read. -/
def prepend (c : Char) (read : Option (List Char × List Char)) : Option (List Char × List Char) :=
  read.map fun p => (c :: p.1, p.2)

theorem prepend_eq_some_iff {c : Char} {read : Option (List Char × List Char)}
    {text rest : List Char} :
    prepend c read = some (text, rest) ↔ ∃ t, text = c :: t ∧ read = some (t, rest) := by
  cases read with
  | none => simp [prepend]
  | some p => obtain ⟨t, r⟩ := p; simp [prepend]; grind

/-- Reads one item or more up to the closing character, at most `limit` items; no text has more
items than characters. `skip` drops the gaps after an item and after a comma; `trailing` allows a
comma in front of the closing character. -/
def listing {α : Type} (item : Reader α) (skip : List Char → List Char) (close : Char)
    (trailing : Bool) : (limit : Nat) → Reader (List α)
  | 0, _ => none
  | limit + 1, cs =>
    match item cs with
    | none => none
    | some (a, rest) =>
      match skip rest with
      | [] => none
      | c :: r =>
        if c = close then some ([a], r)
        else if c ≠ ',' then none
        else
          let r := skip r
          if trailing && r.head? == some close then some ([a], r.drop 1)
          else (listing item skip close trailing limit r).map fun (as, rest) => (a :: as, rest)

end Schemaless.Text
