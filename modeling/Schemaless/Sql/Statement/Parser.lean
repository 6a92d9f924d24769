import Schemaless.Sql.Token.Lexer
import Schemaless.Text.Quoted

/-!
# From tokens to a statement

The four kinds of statements and their criteria. Criteria are a disjunction of conjunctions of
conditions and of criteria in parentheses; `NOT` in front of a condition flips its inverse flag and
is refused in front of a group. Operands are written back as text: names with their qualifiers,
`?`, numbers with their sign, texts in single quotes and truth values.

A reader of a part of a statement takes the tokens that are left and answers with the part and the
tokens after it, which are fewer (`Parsed`), so reading ends.
-/

namespace Schemaless.Sql

/-- The tokens after a part of a statement, fewer than before it. -/
structure After (ts : List Token) where
  tokens : List Token
  fewer : tokens.length < ts.length

namespace After

variable {ts : List Token}

/-- What comes after a part that comes after another. -/
def within (r : After ts) (r' : After r.tokens) : After ts :=
  ⟨r'.tokens, Nat.lt_trans r'.fewer r.fewer⟩

/-- What comes after a part that one token precedes. -/
def behind {us : List Token} (t : Token) (r : After us) : After (t :: us) :=
  ⟨r.tokens, Nat.lt_succ_of_lt r.fewer⟩

/-- Drops a given token, if it comes next. -/
def drop? (t : Token) (r : After ts) : Option (After ts) :=
  match h : r.tokens with
  | u :: us => if u = t then some ⟨us, by have := r.fewer; simp [h] at this; omega⟩ else none
  | [] => none

end After

/-- A part of a statement and the tokens after it, or a fault. -/
abbrev Parsed (α : Type) (ts : List Token) : Type := Except ParseFault (α × After ts)

namespace Parsed

variable {α β : Type} {ts : List Token}

/-- A part of one token. -/
def single (a : α) (t : Token) (ts : List Token) : Parsed α (t :: ts) := .ok (a, ⟨ts, by simp⟩)

/-- Applies a function to the part that was read. -/
def map (f : α → β) : Parsed α ts → Parsed β ts
  | .error e => .error e
  | .ok (a, r) => .ok (f a, r)

/-- Goes on reading after a part. -/
def andThen (first : Parsed α ts) (next : α → (us : List Token) → Parsed β us) : Parsed β ts :=
  match first with
  | .error e => .error e
  | .ok (a, r) =>
    match next a r.tokens with
    | .error e => .error e
    | .ok (b, r') => .ok (b, r.within r')

/-- The part behind one more token. -/
def behind (t : Token) : Parsed α ts → Parsed α (t :: ts)
  | .error e => .error e
  | .ok (a, r) => .ok (a, r.behind t)

/-- Goes on with a step that may leave the tokens as they are. -/
def finish (first : Parsed α ts) (next : α → List Token → Except ParseFault β) :
    Except ParseFault β :=
  match first with
  | .error e => .error e
  | .ok (a, r) => next a r.tokens

end Parsed

/-! ## Names and operands -/

/-- Reads one given token. -/
def parseToken (t : Token) (ts : List Token) : Parsed Unit ts :=
  match ts with
  | u :: r => if u = t then .single () u r else .error (.expected (.token t) (u :: r))
  | [] => .error (.expected (.token t) [])

/-- Reads a name without qualifiers. -/
def parseIdentifier (ts : List Token) : Parsed String ts :=
  match ts with
  | .identifier name :: r => .single name _ r
  | ts => .error (.expected .identifier ts)

/-- Reads items separated by a token. -/
def parseSeparated {α : Type} (separator : Token) (item : (ts : List Token) → Parsed α ts)
    (ts : List Token) : Parsed (List α) ts :=
  match item ts with
  | .error e => .error e
  | .ok (a, r) =>
    match r.drop? separator with
    | none => .ok ([a], r)
    | some r =>
      match parseSeparated separator item r.tokens with
      | .error e => .error e
      | .ok (as, r') => .ok (a :: as, r.within r')
termination_by ts.length
decreasing_by exact r.fewer

/-- Reads items separated by commas. -/
def parseList {α : Type} (item : (ts : List Token) → Parsed α ts) (ts : List Token) :
    Parsed (List α) ts :=
  parseSeparated (.mark .comma) item ts

/-- Reads a name and its qualifiers, joined by points. -/
def parseName (ts : List Token) : Parsed String ts :=
  (parseSeparated (.mark .dot) parseIdentifier ts).map (String.intercalate ".")

/-- Reads an operand as text. -/
def parseOperand (ts : List Token) : Parsed String ts :=
  match ts with
  | .identifier name :: r => parseName (.identifier name :: r)
  | .mark .placeholder :: r => .single "?" _ r
  | .number n :: r => .single n _ r
  | .mark .minus :: .number n :: r => (Parsed.single ("-" ++ n) _ r).behind _
  | .mark .minus :: r => .error (.expected .numberAfterMinus r)
  | .text s :: r => .single (Text.singleQuoted s) _ r
  | .keyword .TRUE :: r => .single "true" _ r
  | .keyword .FALSE :: r => .single "false" _ r
  | ts => .error (.expected .operand ts)

/-- Reads operands in parentheses. -/
def parseOperands (ts : List Token) : Parsed (List String) ts :=
  (parseToken (.mark .leftParen) ts).andThen fun _ ts =>
    (parseList parseOperand ts).andThen fun operands ts =>
      (parseToken (.mark .rightParen) ts).map fun _ => operands

/-! ## Criteria -/

/-- Reads a comparison operator: its text and whether it is inverse. -/
def parseOperator (ts : List Token) : Parsed (String × Bool) ts :=
  match ts with
  | .keyword .NOT :: .keyword .IN :: r => (Parsed.single ("IN", true) _ r).behind _
  | .keyword .NOT :: r => .error (.expected .inAfterNot r)
  | .keyword .IN :: r => .single ("IN", false) _ r
  | .mark .equal :: r => .single ("=", false) _ r
  | .mark .notEqual :: r => .single ("!=", false) _ r
  | .mark .less :: r => .single ("<", false) _ r
  | .mark .lessEqual :: r => .single ("<=", false) _ r
  | .mark .greater :: r => .single (">", false) _ r
  | .mark .greaterEqual :: r => .single (">=", false) _ r
  | ts => .error (.expected .comparison ts)

/-- Reads one condition. -/
def parseCondition (ts : List Token) : Parsed Condition ts :=
  (parseOperand ts).andThen fun left ts =>
    (parseOperator ts).andThen fun (operator, inverse) ts =>
      if operator = "IN" then
        (parseOperands ts).map fun items => ⟨left, operator, String.intercalate ", " items, inverse⟩
      else
        (parseOperand ts).map fun right => ⟨left, operator, right, inverse⟩

/-- The criteria of some conjunctions, one of which needs no disjunction. -/
def disjunction : List (List Criterion) → Criteria
  | [single] => ⟨some "AND", single⟩
  | many => ⟨some "OR", many.map fun items => Criteria.toCriterion ⟨some "AND", items⟩⟩

/-- A criterion with `NOT` in front, which a group cannot have. -/
def Criterion.negated : Criterion → Except ParseFault Criterion
  | .condition c => .ok (.condition c.negated)
  | .group .. => .error .negatedGroup

mutual

/-- Reads conjunctions separated by `OR`. -/
def parseDisjuncts (ts : List Token) : Parsed (List (List Criterion)) ts :=
  match parseConjuncts ts with
  | .error e => .error e
  | .ok (items, r) =>
    match r.drop? (.keyword .OR) with
    | none => .ok ([items], r)
    | some r =>
      match parseDisjuncts r.tokens with
      | .error e => .error e
      | .ok (more, r') => .ok (items :: more, r.within r')
termination_by (ts.length, 2)
decreasing_by
  · exact Prod.Lex.right _ (by decide)
  · exact Prod.Lex.left _ _ r.fewer

/-- Reads conditions and parenthesised criteria separated by `AND`. -/
def parseConjuncts (ts : List Token) : Parsed (List Criterion) ts :=
  match parseUnary ts with
  | .error e => .error e
  | .ok (item, r) =>
    match r.drop? (.keyword .AND) with
    | none => .ok ([item], r)
    | some r =>
      match parseConjuncts r.tokens with
      | .error e => .error e
      | .ok (more, r') => .ok (item :: more, r.within r')
termination_by (ts.length, 1)
decreasing_by
  · exact Prod.Lex.right _ (by decide)
  · exact Prod.Lex.left _ _ r.fewer

/-- Reads a condition, negated or not, or criteria in parentheses. -/
def parseUnary (ts : List Token) : Parsed Criterion ts :=
  match ts with
  | .keyword .NOT :: r =>
    match parseUnary r with
    | .error e => .error e
    | .ok (c, r') => c.negated.map fun c => (c, r'.behind _)
  | .mark .leftParen :: r =>
    (((parseDisjuncts r).andThen fun items ts =>
      (parseToken (.mark .rightParen) ts).map fun _ => (disjunction items).toCriterion)).behind _
  | ts => (parseCondition ts).map .condition
termination_by (ts.length, 0)
decreasing_by
  · exact Prod.Lex.left _ _ (by simp)
  · exact Prod.Lex.left _ _ (by simp)

end

/-- Reads the criteria after `WHERE`, if there are any, up to the end of the statement. -/
def parseWhere (ts : List Token) : Except ParseFault (Criteria × List Token) :=
  match ts with
  | .keyword .WHERE :: r =>
    match parseDisjuncts r with
    | .error e => .error e
    | .ok (items, r') => .ok (disjunction items, r'.tokens)
  | ts => .ok ({}, ts)

/-! ## Statements -/

/-- The label that follows a column, with or without `AS`, if one does. -/
def parseLabel {us : List Token} (r : After us) : Except ParseFault (Option String × After us) :=
  match r.drop? (.keyword .AS) with
  | some r =>
    match parseIdentifier r.tokens with
    | .error e => .error e
    | .ok (label, r') => .ok (some label, r.within r')
  | none =>
    match parseIdentifier r.tokens with
    | .error _ => .ok (none, r)
    | .ok (label, r') => .ok (some label, r.within r')

/-- Reads a column to show: a name and perhaps a label. -/
def parseShownColumn (ts : List Token) : Parsed Column ts :=
  match parseName ts with
  | .error e => .error e
  | .ok (name, r) => (parseLabel r).map fun (label, r) => ({ name, label }, r)

/-- Reads an assignment of an operand to a column. -/
def parseAssignment (ts : List Token) : Parsed Column ts :=
  (parseName ts).andThen fun name ts =>
    (parseToken (.mark .equal) ts).andThen fun _ ts =>
      (parseOperand ts).map fun expression => { name, expression := some expression }

/-- Reads the columns of a `SELECT`; `*` stands for all and declares none. -/
def parseShownColumns (ts : List Token) : Parsed (List Column) ts :=
  match ts with
  | .mark .star :: r => .single [] _ r
  | ts => parseList parseShownColumn ts

/-- Reads the rest of a `SELECT`. -/
def parseSelect (ts : List Token) : Except ParseFault (Statement × List Token) :=
  (parseShownColumns ts).finish fun columns ts =>
    (parseToken (.keyword .FROM) ts).finish fun _ ts =>
      (parseIdentifier ts).finish fun table ts =>
        (parseWhere ts).map fun (criteria, ts) =>
          ({ kind := .select, table, columns, criteria }, ts)

/-- Reads the names of an `INSERT`, in parentheses. -/
def parseNames (ts : List Token) : Parsed (List String) ts :=
  (parseToken (.mark .leftParen) ts).andThen fun _ ts =>
    (parseList parseName ts).andThen fun names ts =>
      (parseToken (.mark .rightParen) ts).map fun _ => names

/-- Joins the names and the values of an `INSERT`, as many of the one as of the other. -/
def insertion (table : String) (names values : List String) (ts : List Token) :
    Except ParseFault (Statement × List Token) :=
  if ts.head? = some (.mark .comma) then .error .manyRows
  else if names.length ≠ values.length then
    .error (.valueCount table names.length values.length)
  else
    .ok ({ kind := .insert, table,
           columns := names.zipWith (fun name value => { name, expression := some value }) values },
         ts)

/-- Reads the rest of an `INSERT`. -/
def parseInsert (ts : List Token) : Except ParseFault (Statement × List Token) :=
  (parseToken (.keyword .INTO) ts).finish fun _ ts =>
    (parseIdentifier ts).finish fun table ts =>
      (parseNames ts).finish fun names ts =>
        (parseToken (.keyword .VALUES) ts).finish fun _ ts =>
          (parseOperands ts).finish fun values ts => insertion table names values ts

/-- Reads the rest of an `UPDATE`. -/
def parseUpdate (ts : List Token) : Except ParseFault (Statement × List Token) :=
  (parseIdentifier ts).finish fun table ts =>
    (parseToken (.keyword .SET) ts).finish fun _ ts =>
      (parseList parseAssignment ts).finish fun columns ts =>
        (parseWhere ts).map fun (criteria, ts) =>
          ({ kind := .update, table, columns, criteria }, ts)

/-- Reads the rest of a `DELETE`. -/
def parseDelete (ts : List Token) : Except ParseFault (Statement × List Token) :=
  (parseToken (.keyword .FROM) ts).finish fun _ ts =>
    (parseIdentifier ts).finish fun table ts =>
      (parseWhere ts).map fun (criteria, ts) => ({ kind := .delete, table, criteria }, ts)

/-- Reads a statement without its end. -/
def parseBody (ts : List Token) : Except ParseFault (Statement × List Token) :=
  match ts with
  | .keyword .SELECT :: r => parseSelect r
  | .keyword .INSERT :: r => parseInsert r
  | .keyword .UPDATE :: r => parseUpdate r
  | .keyword .DELETE :: r => parseDelete r
  | ts => .error (.expected .statement ts)

/-- Checks the end of a statement: a semicolon may stand there, nothing else. -/
def parseEnd : List Token → Except ParseFault Unit
  | [] => .ok ()
  | [.mark .semicolon] => .ok ()
  | .mark .semicolon :: ts => .error (.expected .endOfStatement ts)
  | ts => .error (.expected .endOfStatement ts)

/-- Reads a statement from its tokens. -/
def Statement.ofTokens (ts : List Token) : Except ParseFault Statement :=
  match parseBody ts with
  | .error e => .error e
  | .ok (s, rest) =>
    (parseEnd rest).map fun _ => { s with placeholders := ts.count (.mark .placeholder) }

/-- Reads a statement from its text. -/
def Statement.parse (sql : String) : Except ParseFault Statement :=
  match lex sql.toList with
  | .error e => .error e
  | .ok ts => Statement.ofTokens ts

end Schemaless.Sql
