/-!
# Blank space

Blanks are the characters of the Unicode property White_Space. Operands, configuration values and
statements of a script are trimmed of blanks at both ends, and the words of an operator are what
stands between blanks.
-/

namespace Schemaless.Text

/-- A character of the Unicode property White_Space. -/
def isBlank (c : Char) : Bool :=
  let n := c.toNat
  (9 ≤ n && n ≤ 13) || n == 0x20 || n == 0x85 || n == 0xA0 || n == 0x1680 ||
    (0x2000 ≤ n && n ≤ 0x200A) || n == 0x2028 || n == 0x2029 || n == 0x202F || n == 0x205F ||
    n == 0x3000

/-- Drops the blanks at the end. -/
def dropTrailing : List Char → List Char
  | [] => []
  | c :: r =>
    match dropTrailing r with
    | [] => if isBlank c then [] else [c]
    | kept => c :: kept

/-- Drops the blanks at both ends. -/
def trimmed (cs : List Char) : List Char := dropTrailing (cs.dropWhile isBlank)

/-- Drops the blanks at both ends of a text. -/
def trim (s : String) : String := String.ofList (trimmed s.toList)

/-- The words between blanks. -/
def words : List Char → List (List Char)
  | [] => []
  | c :: r =>
    if isBlank c then words r
    else
      match r, words r with
      | [], _ => [[c]]
      | d :: _, w :: ws => if isBlank d then [c] :: w :: ws else (c :: w) :: ws
      | _ :: _, [] => [[c]]

/-- Trimming leaves a text alone whose ends are not blank. -/
theorem dropTrailing_append_of_not_isBlank (cs : List Char) {c : Char} (h : isBlank c = false) :
    dropTrailing (cs ++ [c]) = cs ++ [c] := by
  induction cs with
  | nil => simp [dropTrailing, h]
  | cons d r ih =>
    rw [List.cons_append, dropTrailing, ih]
    cases hr : r ++ [c] with
    | nil => simp at hr
    | cons x y => rfl

/-- Only blanks are dropped at the end. -/
theorem dropTrailing_append_blanks (cs : List Char) :
    ∃ blanks, (∀ c ∈ blanks, isBlank c = true) ∧ dropTrailing cs ++ blanks = cs := by
  induction cs with
  | nil => exact ⟨[], by simp, rfl⟩
  | cons c r ih =>
    obtain ⟨blanks, hblanks, hr⟩ := ih
    rw [dropTrailing]
    split
    · next hnone =>
      rw [hnone, List.nil_append] at hr
      subst hr
      split
      · next hc => exact ⟨c :: blanks, by simpa [hc] using hblanks, rfl⟩
      · exact ⟨blanks, hblanks, rfl⟩
    · exact ⟨blanks, hblanks, congrArg (c :: ·) hr⟩

end Schemaless.Text
