import Schemaless.Toml.Scalar

/-!
# Reading TOML

A text is a sequence of lines: blank lines, comments, headers and assignments. `parse?` answers
with the table that the lines describe, or nothing if a line is malformed or contradicts an earlier
one.
-/

namespace Schemaless.Toml

open Text (Reader)

/-- A character of a key without quotes. -/
def isBare (c : Char) : Bool := c.isAlphanum || c == '_' || c == '-'

/-- The greatest number of levels of values, and of names in a key, plus one. -/
def levels : Nat := 80

/-- Reads one name of a key. -/
def name? (cs : List Char) : Option (String × List Char) :=
  match cs with
  | '"' :: _ => (quoted? cs).map fun (s, rest) => (String.ofList s, rest)
  | '\'' :: _ => (quoted? cs).map fun (s, rest) => (String.ofList s, rest)
  | cs =>
    let bare := cs.takeWhile isBare
    if bare.isEmpty then none else some (String.ofList bare, cs.dropWhile isBare)

/-- Reads the names of a key, joined by points; blanks may stand around each. -/
def names? : Nat → Reader (List String)
  | 0, _ => none
  | fuel + 1, cs =>
    match name? (cs.dropWhile isSpace) with
    | none => none
    | some (name, rest) =>
      match rest.dropWhile isSpace with
      | '.' :: r => (names? fuel r).map fun (more, rest) => (name :: more, rest)
      | r => some ([name], r)

/-- Reads a key. -/
def key? : Reader (List String) := names? (levels - 1)

/-- Drops the gaps of a list: blanks, line endings and comments. -/
def skipGaps : List Char → List Char
  | ' ' :: r => skipGaps r
  | '\t' :: r => skipGaps r
  | '\n' :: r => skipGaps r
  | '\r' :: '\n' :: r => skipGaps r
  | '#' :: r => skipGaps (r.dropWhile isPrintable)
  | r => r
termination_by cs => cs.length
decreasing_by
  · simp
  · simp
  · simp
  · simp only [List.length_cons]; omega
  · exact Nat.lt_succ_of_le (List.dropWhile_sublist isPrintable).length_le

/-- Reads an assignment inside an inline table. -/
def assignment? (value : Reader Node) : Reader (List String × Node) := fun cs => do
  let (key, r) ← key? cs
  let r ← mark? '=' r
  let (node, r) ← value (r.dropWhile isSpace)
  return ((key, node), r)

/-- The inline table of some assignments. -/
def inlineTable? (assignments : List (List String × Node)) : Option Node := do
  let t ← assignments.foldlM (fun t a => Table.assign? t a.1 a.2) ⟨.given, []⟩
  return .inline t.entries

/-- Reads a value of at most `depth` levels of lists and inline tables, each of at most `limit`
items. -/
def value? (limit depth : Nat) (cs : List Char) : Option (Node × List Char) :=
  match cs with
  | '[' :: r =>
    match depth with
    | 0 => none
    | depth + 1 =>
      match skipGaps r with
      | ']' :: rest => some (.list [], rest)
      | r => (Text.listing (value? limit depth) skipGaps ']' true limit r).map fun (nodes, rest) =>
          (.list nodes, rest)
  | c :: r =>
    if c = Value.openBrace then
      match depth with
      | 0 => none
      | depth + 1 =>
        let r := r.dropWhile isSpace
        if r.head? = some Value.closeBrace then some (.inline [], r.drop 1)
        else do
          let (assignments, rest) ←
            Text.listing (assignment? (value? limit depth)) (·.dropWhile isSpace) Value.closeBrace
              false limit r
          let node ← inlineTable? assignments
          return (node, rest)
    else scalarNode? (c :: r)
  | [] => none

/-- The rest of the text after the end of a line: blanks, a comment, and a line ending unless the
text ends. -/
def lineEnd? (cs : List Char) : Option (List Char) :=
  let r := cs.dropWhile isSpace
  let r := match r with
    | '#' :: r => r.dropWhile isPrintable
    | r => r
  if r.isEmpty then some [] else newline? r

/-- Applies one line that is not blank: what it makes of the draft, and the rest of the text. -/
def line? (d : Draft) (cs : List Char) : Option (Draft × List Char) :=
  match cs with
  | '#' :: _ => some (d, cs)
  | '[' :: '[' :: r => do
    let (path, r) ← key? r
    let r ← mark? ']' r
    let r ← mark? ']' r
    let root ← d.close?
    let d ← openRepeated? root path
    return (d, r)
  | '[' :: r => do
    let (path, r) ← key? r
    let r ← mark? ']' r
    let root ← d.close?
    let d ← openTable? root path
    return (d, r)
  | cs => do
    let ((path, node), r) ← assignment? (value? cs.length (levels - 1)) cs
    let current ← d.current.assign? path node
    return ({ d with current }, r)

/-- Applies the lines of a text; `fuel` bounds their number. -/
def lines? : Nat → Draft → List Char → Option Table
  | 0, _, _ => none
  | fuel + 1, d, cs =>
    match skipBreaks cs with
    | [] => d.close?
    | cs =>
      match line? d cs with
      | none => none
      | some (d, rest) => (lineEnd? rest).bind (lines? fuel d)

/-- The table that a text describes. A byte order mark may stand in front. -/
def parse? (text : String) : Option Entries :=
  let cs := text.toList
  let cs := if cs.head? = some (Char.ofNat 0xFEFF) then cs.drop 1 else cs
  (lines? (cs.length + 1) {} cs).map (·.entries)

end Schemaless.Toml
