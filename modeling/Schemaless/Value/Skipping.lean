import Schemaless.Value.Reader

/-!
# Passing over values

Who looks for some fields of an object passes over the values of the others. They have to be
written as values are, but nothing is made of them: a number may exceed all bounds, a text may hold
half of a surrogate pair, and lists and objects may nest to any depth.
-/

namespace Schemaless.Value

/-- Passes over a number. -/
def skipNumber? (cs : List Char) : Option (List Char) := do
  let r := match cs with
    | '-' :: r => r
    | r => r
  let (_, r) ← wholePart? r
  let (_, r) ← fractionPart? r
  let (_, r) ← exponentAfter? r
  return r

/-- Passes over a text after its opening quote. -/
def skipText? : List Char → Option (List Char)
  | [] => none
  | '"' :: r => some r
  | '\\' :: 'u' :: a :: b :: c :: d :: r =>
    if (unit? a b c d).isSome then skipText? r else none
  | '\\' :: c :: r => if (escaped? c).isSome then skipText? r else none
  | c :: r => if c.toNat < 0x20 ∨ c = '\\' then none else skipText? r
termination_by structural cs => cs

/-- Passes over a field. -/
def skipField? (value : Text.Reader Unit) : Text.Reader Unit
  | '"' :: r =>
    match (skipText? r).map skipGap with
    | some (':' :: r) => value r
    | _ => none
  | _ => none

/-- Passes over a value of at most `depth` levels of lists and objects, each of at most `limit`
items. -/
def skipValue? (limit depth : Nat) (cs : List Char) : Option (Unit × List Char) :=
  match skipGap cs with
  | '"' :: r => (skipText? r).map ((), ·)
  | 'n' :: 'u' :: 'l' :: 'l' :: r => some ((), r)
  | 't' :: 'r' :: 'u' :: 'e' :: r => some ((), r)
  | 'f' :: 'a' :: 'l' :: 's' :: 'e' :: r => some ((), r)
  | '[' :: r =>
    match depth with
    | 0 => none
    | depth + 1 =>
      match skipGap r with
      | ']' :: rest => some ((), rest)
      | r => (items (skipValue? limit depth) ']' limit r).map fun p => ((), p.2)
  | c :: r =>
    if c = openBrace then
      match depth with
      | 0 => none
      | depth + 1 =>
        let r := skipGap r
        if r.head? = some closeBrace then some ((), r.drop 1)
        else (items (skipField? (skipValue? limit depth)) closeBrace limit r).map fun p => ((), p.2)
    else (skipNumber? (c :: r)).map ((), ·)
  | [] => none

end Schemaless.Value
