/-!
# Doubled quotes

Inside quoted text the closing quote is written twice. `doubled` writes it so and `collapsed` reads
pairs back; `collapsed_doubled` says that nothing is lost.
-/

namespace Schemaless.Text

/-- Writes every `q` twice. -/
def doubled (q : Char) : List Char → List Char
  | [] => []
  | c :: r => if c = q then q :: q :: doubled q r else c :: doubled q r

/-- Reads pairs of `q`, from the left, as one. -/
def collapsed (q : Char) : List Char → List Char
  | [] => []
  | [c] => [c]
  | c :: d :: r => if c = q ∧ d = q then q :: collapsed q r else c :: collapsed q (d :: r)

theorem collapsed_cons_of_ne {q c : Char} (h : c ≠ q) (r : List Char) :
    collapsed q (c :: r) = c :: collapsed q r := by
  cases r <;> simp [collapsed, h]

theorem collapsed_doubled (q : Char) (cs : List Char) : collapsed q (doubled q cs) = cs := by
  induction cs with
  | nil => rfl
  | cons c r ih =>
    rw [doubled]
    split
    · next h => subst h; simp [collapsed, ih]
    · next h => rw [collapsed_cons_of_ne h, ih]

/-- The text between single quotes, quotes inside it doubled. -/
def singleQuoted (s : String) : String :=
  String.ofList ('\'' :: (doubled '\'' s.toList ++ ['\'']))

/-- What stands between single quotes, doubled quotes read as one; `none` without both quotes. -/
def unquoted : List Char → Option (List Char)
  | '\'' :: r =>
    match r.reverse with
    | '\'' :: inner => some (collapsed '\'' inner.reverse)
    | _ => none
  | _ => none

theorem unquoted_singleQuoted (s : String) :
    unquoted (singleQuoted s).toList = some s.toList := by
  simp [singleQuoted, unquoted, collapsed_doubled]

end Schemaless.Text
