import Schemaless.Sql.Statement.Basic
import Schemaless.Sql.Token.Basic

/-!
# The grammar of statements

A phrase is a list of tokens together with what it stands for: a name, the text of an operand, a
criterion, a statement. Each rule puts phrases in a row and says what the whole stands for. Criteria
are chains, conditions joined by `AND` and those chains joined by `OR`; inside parentheses a chain of
one stands for its only link. `NOT` flips a condition and has no rule for a group, so parentheses may
stand between it and a condition only where they hold that condition alone.
-/

namespace Schemaless.Sql.Grammar

/-- Phrases in a row with a token between each two. -/
inductive Separated {α : Type} (separator : Token) (Phrase : List Token → α → Prop) :
    List Token → List α → Prop
  | one {ts : List Token} {a : α} : Phrase ts a → Separated separator Phrase ts [a]
  | more {ts us : List Token} {a : α} {as : List α} : Phrase ts a →
      Separated separator Phrase us as →
        Separated separator Phrase (ts ++ separator :: us) (a :: as)

/-- Phrases in a row with a comma between each two. -/
abbrev Listed {α : Type} (Phrase : List Token → α → Prop) : List Token → List α → Prop :=
  Separated (.mark .comma) Phrase

/-! ## Names and operands -/

inductive Identifier : List Token → String → Prop
  | mk (name : String) : Identifier [.identifier name] name

/-- An identifier and its qualifiers. -/
inductive Name : List Token → String → Prop
  | mk {ts : List Token} {parts : List String} : Separated (.mark .dot) Identifier ts parts →
      Name ts (String.intercalate "." parts)

/-- A text between single quotes, every single quote inside it written twice. -/
def quotedText (s : String) : String :=
  "'" ++ String.ofList (s.toList.flatMap fun c => if c = '\'' then [c, c] else [c]) ++ "'"

/-- An operand, and the text that it is written back as. -/
inductive Operand : List Token → String → Prop
  | name {ts : List Token} {name : String} : Name ts name → Operand ts name
  | placeholder : Operand [.mark .placeholder] "?"
  | number (n : String) : Operand [.number n] n
  | negative (n : String) : Operand [.mark .minus, .number n] ("-" ++ n)
  | text (s : String) : Operand [.text s] (quotedText s)
  | truth : Operand [.keyword .TRUE] "true"
  | falsehood : Operand [.keyword .FALSE] "false"

/-! ## Criteria -/

/-- The marks that compare two operands, and how they are written. -/
def comparisons : List (Mark × String) :=
  [(.equal, "="), (.notEqual, "!="), (.less, "<"), (.lessEqual, "<="), (.greater, ">"),
   (.greaterEqual, ">=")]

inductive Condition : List Token → Sql.Condition → Prop
  | comparison {ts us : List Token} {left right operator : String} {m : Mark} : Operand ts left →
      (m, operator) ∈ comparisons → Operand us right →
        Condition (ts ++ .mark m :: us) { left, operator, right }
  | isIn {ts us : List Token} {left : String} {items : List String} : Operand ts left →
      Listed Operand us items →
        Condition (ts ++ .keyword .IN :: .mark .leftParen :: us ++ [.mark .rightParen])
          { left, operator := "IN", right := String.intercalate ", " items }
  | notIn {ts us : List Token} {left : String} {items : List String} : Operand ts left →
      Listed Operand us items →
        Condition
          (ts ++ .keyword .NOT :: .keyword .IN :: .mark .leftParen :: us ++ [.mark .rightParen])
          { left, operator := "IN", right := String.intercalate ", " items, inverse := true }

/-- A chain inside larger criteria: a chain of one is its only link. -/
def nested (connective : String) : List Criterion → Criterion
  | [single] => single
  | links => .group (some connective) links

/-- The criteria of conjunctions joined by `OR`; a single conjunction stays as it is. -/
def criteria : List (List Criterion) → Criteria
  | [conjunction] => { logical := some "AND", items := conjunction }
  | conjunctions => { logical := some "OR", items := conjunctions.map (nested "AND") }

/-- A condition, a negated condition, or criteria in parentheses. -/
inductive Unary : List Token → Criterion → Prop
  | negated {ts : List Token} {c : Sql.Condition} : Unary ts (.condition c) →
      Unary (.keyword .NOT :: ts) (.condition { c with inverse := !c.inverse })
  | group {ts : List Token} {conjunctions : List (List Criterion)} :
      Separated (.keyword .OR) (Separated (.keyword .AND) Unary) ts conjunctions →
        Unary (.mark .leftParen :: ts ++ [.mark .rightParen])
          (nested "OR" (conjunctions.map (nested "AND")))
  | condition {ts : List Token} {c : Sql.Condition} : Condition ts c → Unary ts (.condition c)

/-- Conditions and groups joined by `AND`. -/
abbrev Conjunction : List Token → List Criterion → Prop := Separated (.keyword .AND) Unary

/-- Conjunctions joined by `OR`. -/
abbrev Disjunction : List Token → List (List Criterion) → Prop :=
  Separated (.keyword .OR) Conjunction

/-- The criteria after `WHERE`, which may be left out. -/
inductive Filter : List Token → Criteria → Prop
  | absent : Filter [] {}
  | present {ts : List Token} {conjunctions : List (List Criterion)} : Disjunction ts conjunctions →
      Filter (.keyword .WHERE :: ts) (criteria conjunctions)

/-! ## Statements -/

/-- A column to show, which may have a label. -/
inductive Shown : List Token → Column → Prop
  | plain {ts : List Token} {name : String} : Name ts name → Shown ts { name }
  | labelled {ts : List Token} {name : String} (label : String) : Name ts name →
      Shown (ts ++ [.identifier label]) { name, label := label }
  | labelledAs {ts : List Token} {name : String} (label : String) : Name ts name →
      Shown (ts ++ [.keyword .AS, .identifier label]) { name, label := label }

/-- An operand assigned to a column. -/
inductive Assignment : List Token → Column → Prop
  | mk {ts us : List Token} {name value : String} : Name ts name → Operand us value →
      Assignment (ts ++ .mark .equal :: us) { name, expression := value }

/-- The columns of an insertion: names, and as many values. -/
inductive Insertion : List Token → List Column → Prop
  | mk {ts us : List Token} {names values : List String} : Listed Name ts names →
      Listed Operand us values → names.length = values.length →
        Insertion
          (.mark .leftParen :: ts ++
            .mark .rightParen :: .keyword .VALUES :: .mark .leftParen :: us ++ [.mark .rightParen])
          ((names.zip values).map fun c => { name := c.1, expression := c.2 })

/-- A statement without its end. -/
inductive Body : List Token → Statement → Prop
  | selectAll {us : List Token} {c : Criteria} (table : String) : Filter us c →
      Body (.keyword .SELECT :: .mark .star :: .keyword .FROM :: .identifier table :: us)
        { kind := .select, table, criteria := c }
  | select {ts us : List Token} {columns : List Column} {c : Criteria} (table : String) :
      Listed Shown ts columns → Filter us c →
        Body (.keyword .SELECT :: ts ++ .keyword .FROM :: .identifier table :: us)
          { kind := .select, table, columns, criteria := c }
  | insert {ts : List Token} {columns : List Column} (table : String) : Insertion ts columns →
      Body (.keyword .INSERT :: .keyword .INTO :: .identifier table :: ts)
        { kind := .insert, table, columns }
  | update {ts us : List Token} {columns : List Column} {c : Criteria} (table : String) :
      Listed Assignment ts columns → Filter us c →
        Body (.keyword .UPDATE :: .identifier table :: .keyword .SET :: ts ++ us)
          { kind := .update, table, columns, criteria := c }
  | delete {us : List Token} {c : Criteria} (table : String) : Filter us c →
      Body (.keyword .DELETE :: .keyword .FROM :: .identifier table :: us)
        { kind := .delete, table, criteria := c }

/-- The end of a statement. -/
inductive Ending : List Token → Prop
  | bare : Ending []
  | semicolon : Ending [.mark .semicolon]

/-- A statement, which counts its placeholders. -/
inductive Derives : List Token → Statement → Prop
  | mk {ts us : List Token} {s : Statement} : Body ts s → Ending us →
      Derives (ts ++ us) { s with placeholders := (ts ++ us).count (.mark .placeholder) }

end Schemaless.Sql.Grammar
