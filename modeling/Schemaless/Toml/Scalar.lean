import Schemaless.Number.Decimal
import Schemaless.Text.Reader
import Schemaless.Toml.Basic
import Schemaless.Value.Reader

/-!
# TOML scalars

Texts in four kinds of quotes, whole numbers in four bases, numbers with a fraction or an exponent,
dates and times, and truth values.
-/

namespace Schemaless.Toml

open Text (Reader prepend)

/-! ## Texts -/

/-- A character that may stand in a line of text: no control character but the tab. -/
def isPrintable (c : Char) : Bool := c == '\t' || (0x20 ≤ c.toNat && c.toNat ≠ 0x7F)

/-- A blank inside a line. -/
def isSpace (c : Char) : Bool := c == ' ' || c == '\t'

/-- A line ending in front, dropped. -/
def newline? : List Char → Option (List Char)
  | '\n' :: r => some r
  | '\r' :: '\n' :: r => some r
  | _ => none

/-- The character of a code point that is one. -/
def scalar? (n : Nat) : Option Char := if n.isValidChar then some (Char.ofNat n) else none

/-- The code point that hexadecimal digits write. -/
def codePoint? (ds : List Char) : Option Char := do
  let values ← ds.mapM Value.hexValue?
  scalar? (values.foldl (fun n v => 16 * n + v) 0)

/-- Reads an escape after its backslash. -/
def escape? : Reader Char
  | 'b' :: r => some (Char.ofNat 8, r)
  | 't' :: r => some ('\t', r)
  | 'n' :: r => some ('\n', r)
  | 'f' :: r => some (Char.ofNat 12, r)
  | 'r' :: r => some ('\r', r)
  | '"' :: r => some ('"', r)
  | '\\' :: r => some ('\\', r)
  | 'u' :: a :: b :: c :: d :: r => (codePoint? [a, b, c, d]).map (·, r)
  | 'U' :: a :: b :: c :: d :: e :: f :: g :: h :: r =>
    (codePoint? [a, b, c, d, e, f, g, h]).map (·, r)
  | _ => none

/-- Drops blanks and line endings. -/
def skipBreaks : List Char → List Char
  | ' ' :: r => skipBreaks r
  | '\t' :: r => skipBreaks r
  | '\n' :: r => skipBreaks r
  | '\r' :: '\n' :: r => skipBreaks r
  | r => r

/-- The rest of the text after a backslash that ends its line, if it does. -/
def continued? (cs : List Char) : Option (List Char) :=
  (newline? (cs.dropWhile isSpace)).map skipBreaks

/-- Reads a text on one line up to its closing quote; `fuel` bounds its length. -/
def lineText? (escapes : Bool) (quote : Char) : Nat → Reader (List Char)
  | 0, _ => none
  | _, [] => none
  | fuel + 1, c :: r =>
    if c = quote then some ([], r)
    else if c = '\\' && escapes then
      match escape? r with
      | some (x, r) => prepend x (lineText? escapes quote fuel r)
      | none => none
    else if isPrintable c then prepend c (lineText? escapes quote fuel r)
    else none

/-- Reads a text of several lines up to three closing quotes, two more of which may belong to the
text; `fuel` bounds its length. -/
def blockText? (escapes : Bool) (quote : Char) : Nat → Reader (List Char)
  | 0, _ => none
  | _, [] => none
  | fuel + 1, c :: r =>
    if c = quote then
      let run := (c :: r).takeWhile (· == quote)
      let rest := (c :: r).drop run.length
      if run.length < 3 then
        (blockText? escapes quote fuel rest).map fun (cs, rest) => (run ++ cs, rest)
      else if run.length ≤ 5 then some (run.drop 3, rest)
      else none
    else if c = '\\' && escapes then
      match continued? r with
      | some r => blockText? escapes quote fuel r
      | none =>
        match escape? r with
        | some (x, r) => prepend x (blockText? escapes quote fuel r)
        | none => none
    else
      match newline? (c :: r) with
      | some r => prepend '\n' (blockText? escapes quote fuel r)
      | none => if isPrintable c then prepend c (blockText? escapes quote fuel r) else none

/-- Reads a text in single or double quotes on one line. -/
def quoted? : Reader (List Char)
  | '"' :: r => lineText? true '"' (r.length + 1) r
  | '\'' :: r => lineText? false '\'' (r.length + 1) r
  | _ => none

/-- Reads a text in quotes of any kind. A line ending right after three quotes is dropped. -/
def text? : Reader (List Char)
  | '"' :: '"' :: '"' :: r => blockText? true '"' (r.length + 1) ((newline? r).getD r)
  | '\'' :: '\'' :: '\'' :: r => blockText? false '\'' (r.length + 1) ((newline? r).getD r)
  | r => quoted? r

/-! ## Numbers -/

/-- Digits with single underscores between them. -/
def underscored? (isDigit : Char → Bool) : Reader (List Char)
  | [] => none
  | c :: r =>
    if !isDigit c then none
    else
      match r with
      | '_' :: r => (underscored? isDigit r).map fun (ds, rest) => (c :: ds, rest)
      | d :: r' =>
        if isDigit d then (underscored? isDigit (d :: r')).map fun (ds, rest) => (c :: ds, rest)
        else some ([c], d :: r')
      | [] => some ([c], [])

/-- Reads a whole number in a base after its two leading characters. -/
def based? (base : Nat) : Reader Node := fun cs => do
  let digit (c : Char) : Bool := (Value.hexValue? c).any (· < base)
  let (ds, rest) ← underscored? digit cs
  let n := (ds.filterMap Value.hexValue?).foldl (fun n v => base * n + v) 0
  if fitsInt64 n then some (.whole n, rest) else none

/-- Digits without a leading zero. -/
def wholeDigits? (cs : List Char) : Option (List Char × List Char) :=
  match cs with
  | '0' :: r => some (['0'], r)
  | cs => underscored? Char.isDigit cs

/-- The fraction of a number, if a point comes next. -/
def fraction? : Reader (Option (List Char))
  | '.' :: r => (underscored? Char.isDigit r).map fun (ds, rest) => (some ds, rest)
  | r => some (none, r)

/-- The exponent of a number, if one comes next. -/
def exponent? : Reader (Option Int)
  | c :: r =>
    if c = 'e' ∨ c = 'E' then
      let (minus, r) := spanSign r
      (underscored? Char.isDigit r).map fun (ds, rest) =>
        (some (if minus then -(ofDigits ds : Int) else ofDigits ds), rest)
    else some (none, c :: r)
  | [] => some (none, [])

/-- A number of 64 bits, or one with a fraction or an exponent that does not exceed the finite
numbers upwards. -/
def decimal? (cs : List Char) : Option (Node × List Char) := do
  let (minus, r) := spanSign cs
  let (ds, r) ← wholeDigits? r
  let (fraction, r) ← fraction? r
  let (exponent, r) ← exponent? r
  match fraction, exponent with
  | none, none =>
    let n : Int := if minus then -(ofDigits ds : Int) else ofDigits ds
    if fitsInt64 n then some (.whole n, r) else none
  | _, _ =>
    let f := fraction.getD []
    let d : Decimal := ⟨minus, ofDigits (ds ++ f), exponent.getD 0 - f.length⟩
    if minus || d.toBinary64?.isSome then some (.float, r) else none

/-- Reads a number. -/
def number? (cs : List Char) : Option (Node × List Char) :=
  match (spanSign cs).2 with
  | 'i' :: 'n' :: 'f' :: r => some (.float, r)
  | 'n' :: 'a' :: 'n' :: r => some (.float, r)
  | _ =>
    match cs with
    | '0' :: 'x' :: r => based? 16 r
    | '0' :: 'o' :: r => based? 8 r
    | '0' :: 'b' :: r => based? 2 r
    | cs => decimal? cs

/-! ## Dates and times -/

/-- The number of two digits, if it lies between two bounds. -/
def twoDigits? (low high : Nat) : Reader Nat
  | a :: b :: r =>
    let n := ofDigits [a, b]
    if a.isDigit && b.isDigit && low ≤ n && n ≤ high then some (n, r) else none
  | _ => none

/-- Drops one given character. -/
def mark? (c : Char) : List Char → Option (List Char)
  | d :: r => if d = c then some r else none
  | [] => none

/-- The number of days of a month. -/
def daysOf (year month : Nat) : Nat :=
  if month = 2 then
    if year % 4 = 0 ∧ (year % 100 ≠ 0 ∨ year % 400 = 0) then 29 else 28
  else if month = 4 ∨ month = 6 ∨ month = 9 ∨ month = 11 then 30
  else 31

/-- Drops a date. -/
def date? : List Char → Option (List Char)
  | a :: b :: c :: d :: '-' :: r => do
    if !([a, b, c, d].all Char.isDigit) then none
    let (month, r) ← twoDigits? 1 12 r
    let r ← mark? '-' r
    let (_, r) ← twoDigits? 1 (daysOf (ofDigits [a, b, c, d]) month) r
    some r
  | _ => none

/-- Drops a time of day. -/
def time? (cs : List Char) : Option (List Char) := do
  let (_, r) ← twoDigits? 0 23 cs
  let r ← mark? ':' r
  let (_, r) ← twoDigits? 0 59 r
  let r ← mark? ':' r
  let (_, r) ← twoDigits? 0 60 r
  match r with
  | '.' :: d :: r' => if d.isDigit then some (r'.dropWhile Char.isDigit) else some r
  | r => some r

/-- Drops the offset of a time, if there is one. -/
def offset? : List Char → Option (List Char)
  | 'Z' :: r => some r
  | 'z' :: r => some r
  | c :: r =>
    if c = '+' ∨ c = '-' then do
      let (_, r) ← twoDigits? 0 23 r
      let r ← mark? ':' r
      let (_, r) ← twoDigits? 0 59 r
      some r
    else some (c :: r)
  | [] => some []

/-- Whether a text starts like a date or a time. -/
def startsMoment : List Char → Bool
  | a :: b :: ':' :: _ => a.isDigit && b.isDigit
  | a :: b :: c :: d :: '-' :: _ => [a, b, c, d].all Char.isDigit
  | _ => false

/-- Drops a date, a time, or both with a `T` or a blank between them. -/
def moment? (cs : List Char) : Option (List Char) :=
  match cs with
  | _ :: _ :: ':' :: _ => time? cs
  | _ =>
    match date? cs with
    | none => none
    | some (c :: r) =>
      match r with
      | d :: e :: ':' :: _ =>
        if (c = 'T' ∨ c = 't' ∨ c = ' ') ∧ d.isDigit ∧ e.isDigit then (time? r).bind offset?
        else some (c :: r)
      | _ => some (c :: r)
    | some [] => some []

/-- Reads a scalar. -/
def scalarNode? (cs : List Char) : Option (Node × List Char) :=
  match cs with
  | '"' :: _ => (text? cs).map fun (s, rest) => (.text (String.ofList s), rest)
  | '\'' :: _ => (text? cs).map fun (s, rest) => (.text (String.ofList s), rest)
  | 't' :: 'r' :: 'u' :: 'e' :: r => some (.flag true, r)
  | 'f' :: 'a' :: 'l' :: 's' :: 'e' :: r => some (.flag false, r)
  | cs => if startsMoment cs then (moment? cs).map (.moment, ·) else number? cs

end Schemaless.Toml
