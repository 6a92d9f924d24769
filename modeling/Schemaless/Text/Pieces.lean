/-!
# Pieces between separators

`pieces` cuts a text at a separator that stands outside quotes. A quote character opens quoted text
when none is open and closes the text that it opened. Nothing is lost: the pieces joined by the
separator are the text again (`joined_pieces`).
-/

namespace Schemaless.Text

/-- The open quote after one more character. -/
def nextQuote (quotes : List Char) (opened : Option Char) (c : Char) : Option Char :=
  match opened with
  | none => if quotes.contains c then some c else none
  | some q => if q = c then none else some q

/-- The pieces between the separators outside quotes; `opened` is the quote open in front. -/
def pieces (separator : Char) (quotes : List Char) (opened : Option Char) :
    List Char → List (List Char)
  | [] => [[]]
  | c :: r =>
    if c = separator ∧ opened = none then [] :: pieces separator quotes none r
    else
      match pieces separator quotes (nextQuote quotes opened c) r with
      | [] => [[c]]
      | first :: rest => (c :: first) :: rest

/-- Joins pieces, the separator between them. -/
def joined (separator : Char) : List (List Char) → List Char
  | [] => []
  | [single] => single
  | first :: rest => first ++ separator :: joined separator rest

theorem pieces_ne_nil (separator : Char) (quotes : List Char) (opened : Option Char)
    (cs : List Char) : pieces separator quotes opened cs ≠ [] := by
  cases cs with
  | nil => simp [pieces]
  | cons c r => rw [pieces]; split <;> (try split) <;> simp

theorem joined_cons (separator : Char) (first : List Char) {rest : List (List Char)}
    (h : rest ≠ []) :
    joined separator (first :: rest) = first ++ separator :: joined separator rest := by
  cases rest with
  | nil => exact absurd rfl h
  | cons _ _ => rfl

theorem joined_cons_cons (separator c : Char) (first : List Char) (rest : List (List Char)) :
    joined separator ((c :: first) :: rest) = c :: joined separator (first :: rest) := by
  cases rest <;> rfl

theorem joined_pieces (separator : Char) (quotes : List Char) (opened : Option Char)
    (cs : List Char) : joined separator (pieces separator quotes opened cs) = cs := by
  induction cs generalizing opened with
  | nil => rfl
  | cons c r ih =>
    rw [pieces]
    split
    · next h => rw [joined_cons _ _ (pieces_ne_nil _ _ _ _), ih, h.1]; rfl
    · split
      · next h => exact absurd h (pieces_ne_nil _ _ _ _)
      · next first rest h => rw [joined_cons_cons, ← h, ih]

end Schemaless.Text
