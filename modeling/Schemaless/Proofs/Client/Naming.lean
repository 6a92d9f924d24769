import Schemaless.Client.Upsert
import Schemaless.Proofs.Binding.Condition
import Schemaless.Proofs.Sql.Lexing
import Schemaless.Proofs.Sql.Parsing

/-!
# Names stay names

The statements that records are written with are texts made of arbitrary names. Each such text spells
the tokens of the intended statement, with one identifier for each name, and the grammar derives that
statement from them. So the text of `insertText`, `updateText` or `lookupText` says what was meant,
whatever the names are (`generated_statements`).
-/

namespace Schemaless

open Sql Sql.Grammar

variable {α β : Type}

/-! ## The statements that are meant -/

/-- The criteria that a column equals a parameter. -/
def keyCriteria (keyColumn : String) : Criteria :=
  { logical := some "AND", items := [.condition (equalCondition keyColumn "?")] }

/-- A column that is assigned a parameter. -/
def parameterColumn (name : String) : Column := { name, expression := some "?" }

/-- Looks for a key. -/
def lookupStatement (table keyColumn : String) : Statement :=
  { kind := .select, table, columns := [{ name := keyColumn }], criteria := keyCriteria keyColumn,
    placeholders := 1 }

/-- Sets columns under a key. -/
def updateStatement (table keyColumn : String) (names : List String) : Statement :=
  { kind := .update, table, columns := names.map parameterColumn,
    criteria := keyCriteria keyColumn, placeholders := names.length + 1 }

/-- Inserts a record. -/
def insertStatement (table : String) (names : List String) : Statement :=
  { kind := .insert, table, columns := names.map parameterColumn, placeholders := names.length }

/-! ## Pieces of the texts -/

theorem spells_quotedIdentifier (name : String) :
    Spells (quotedIdentifier name).toList [.identifier name] := by
  have h := Delimiter.backtick.spells_quote name.toList
  rwa [String.ofList_toList, ← String.toList_ofList (l := Delimiter.quote _ _)] at h

variable {cs : List Char} {ts : List Token}

theorem Sql.Spells.name (h : Spells cs ts) (hcs : SetOff cs) (name : String) :
    Spells ((quotedIdentifier name).toList ++ cs) (.identifier name :: ts) :=
  (spells_quotedIdentifier name).append h hcs

theorem word_of_keyword : ∀ p ∈ Keyword.table,
    isWord p.1.toList = true ∧ wordToken p.1 = .keyword p.2 := by
  decide +kernel

theorem Sql.Spells.keyword (h : Spells cs ts) (hcs : SetOff cs) {word : String} {k : Keyword}
    (hk : (word, k) ∈ Keyword.table) : Spells (word.toList ++ cs) (.keyword k :: ts) := by
  obtain ⟨hword, htoken⟩ := word_of_keyword (word, k) hk
  have hspells := spells_word hword
  rw [String.ofList_toList, htoken] at hspells
  exact hspells.append h hcs

theorem Sql.Spells.spacedName (h : Spells cs ts) (name : String) :
    Spells ((quotedIdentifier name).toList ++ ' ' :: cs) (.identifier name :: ts) :=
  h.space.name (setOff_space cs) name

theorem Sql.Spells.spacedKeyword (h : Spells cs ts) {word : String} {k : Keyword}
    (hk : (word, k) ∈ Keyword.table) : Spells (word.toList ++ ' ' :: cs) (.keyword k :: ts) :=
  h.space.keyword (setOff_space cs) hk

/-- A name, quoted, that equals a parameter. -/
def equalsText (name : String) : List Char := (quotedIdentifier name).toList ++ [' ', '=', ' ', '?']

/-- The tokens of a name that equals a parameter. -/
def equalsTokens (name : String) : List Token :=
  [.identifier name, .mark .equal, .mark .placeholder]

theorem spells_equalsText (name : String) : Spells (equalsText name) (equalsTokens name) := by
  have hrest : Spells [' ', '=', ' ', '?'] [.mark .equal, .mark .placeholder] :=
    ((spells_nil.mark (by decide)).space.mark (by decide)).space
  exact (spells_quotedIdentifier name).append hrest (setOff_space _)

/-- Tokens with commas between them. -/
def listTokens (phrases : List (List Token)) : List Token := [.mark .comma].intercalate phrases

/-- Texts with commas between them. -/
def listText (phrases : List (List Char)) : List Char := [',', ' '].intercalate phrases

theorem spells_list {text : α → List Char} {tokens : α → List Token}
    (h : ∀ a, Spells (text a) (tokens a)) (as : List α) :
    Spells (listText (as.map text)) (listTokens (as.map tokens)) := by
  induction as with
  | nil => exact spells_nil
  | cons a as ih =>
    cases as with
    | nil => simpa [listText, listTokens] using h a
    | cons b as =>
      have hrest : Spells (',' :: ' ' :: listText ((b :: as).map text))
          (.mark .comma :: listTokens ((b :: as).map tokens)) :=
        ih.space.mark (by decide)
      have happend := (h a).append hrest (setOff_cons (by decide) _)
      simpa [listText, listTokens] using happend

theorem listed_listTokens {Phrase : List Token → β → Prop} {tokens : α → List Token} {f : α → β}
    (h : ∀ a, Phrase (tokens a) (f a)) (a : α) (as : List α) :
    Listed Phrase (listTokens ((a :: as).map tokens)) ((a :: as).map f) := by
  induction as generalizing a with
  | nil => simpa [listTokens] using Separated.one (h a)
  | cons b as ih =>
    have hmore := Separated.more (h a) (ih b)
    simpa [listTokens] using hmore

theorem count_listTokens {tokens : α → List Token} {n : Nat}
    (h : ∀ a, (tokens a).count (.mark .placeholder) = n) (as : List α) :
    (listTokens (as.map tokens)).count (.mark .placeholder) = n * as.length := by
  induction as with
  | nil => simp [listTokens]
  | cons a as ih =>
    cases as with
    | nil => simp [listTokens, h a]
    | cons b as =>
      have hcomma : (Token.mark .comma == Token.mark .placeholder) = false := by decide
      have hcons : listTokens ((a :: b :: as).map tokens) =
          tokens a ++ .mark .comma :: listTokens ((b :: as).map tokens) := by simp [listTokens]
      rw [hcons, List.count_append, List.count_cons, hcomma, ih, h a]
      simp only [List.length_cons]
      grind

/-! ## What the texts are read as -/

theorem name_identifier (name : String) : Name [.identifier name] name := by
  simpa using Name.mk (Separated.one (.mk name))

theorem filter_keyCriteria (keyColumn : String) :
    Filter (.keyword .WHERE :: equalsTokens keyColumn) (keyCriteria keyColumn) := by
  have hcondition : Grammar.Condition (equalsTokens keyColumn) (equalCondition keyColumn "?") :=
    .comparison (.name (name_identifier keyColumn)) (by decide) .placeholder
  exact .present (.one (.one (.condition hcondition)))

theorem spells_keyCriteria (keyColumn : String) :
    Spells (' ' :: ("WHERE".toList ++ (' ' :: equalsText keyColumn)))
      (.keyword .WHERE :: equalsTokens keyColumn) := by
  refine (Spells.spacedKeyword ?_ (by simp [Keyword.table])).space
  exact spells_equalsText keyColumn

theorem parse_of_spells {sql : String} {s : Statement} (hspells : Spells sql.toList ts)
    (hderives : Derives ts s) : Statement.parse sql = .ok s := by
  rw [Statement.parse, lex_of_spells hspells]
  exact ofTokens_of_derives hderives

/-! ### Looking for a key -/

theorem spells_lookupText (table keyColumn : String) :
    Spells (lookupText table keyColumn).toList
      (.keyword .SELECT :: .identifier keyColumn :: .keyword .FROM :: .identifier table ::
        .keyword .WHERE :: equalsTokens keyColumn) := by
  have htext : (lookupText table keyColumn).toList =
      "SELECT".toList ++ (' ' :: ((quotedIdentifier keyColumn).toList ++ (' ' :: ("FROM".toList ++
        (' ' :: ((quotedIdentifier table).toList ++
          (' ' :: ("WHERE".toList ++ (' ' :: equalsText keyColumn))))))))) := by
    simp [lookupText, equalsText]
  rw [htext]
  refine Spells.spacedKeyword ?_ (by simp [Keyword.table])
  refine Spells.spacedName ?_ keyColumn
  refine Spells.spacedKeyword ?_ (by simp [Keyword.table])
  exact (spells_keyCriteria keyColumn).name (setOff_space _) table

theorem parse_lookupText (table keyColumn : String) :
    Statement.parse (lookupText table keyColumn) = .ok (lookupStatement table keyColumn) := by
  have hcolumns : Listed Shown [.identifier keyColumn] [{ name := keyColumn }] :=
    .one (.plain (name_identifier keyColumn))
  have hbody := Body.select table hcolumns (filter_keyCriteria keyColumn)
  exact parse_of_spells (spells_lookupText table keyColumn) (.mk hbody .bare)

/-! ### Setting columns -/

theorem spells_updateText (table keyColumn : String) (names : List String) :
    Spells (updateText table keyColumn names).toList
      (.keyword .UPDATE :: .identifier table :: .keyword .SET ::
        (listTokens (names.map equalsTokens) ++ .keyword .WHERE :: equalsTokens keyColumn)) := by
  have hequals : equalsText = fun n => (quotedIdentifier n).toList ++ [' ', '=', ' ', '?'] := rfl
  have htext : (updateText table keyColumn names).toList =
      "UPDATE".toList ++ (' ' :: ((quotedIdentifier table).toList ++ (' ' :: ("SET".toList ++
        (' ' :: (listText (names.map equalsText) ++
          (' ' :: ("WHERE".toList ++ (' ' :: equalsText keyColumn))))))))) := by
    simp [updateText, listText, hequals, Function.comp_def]
  rw [htext]
  refine Spells.spacedKeyword ?_ (by simp [Keyword.table])
  refine Spells.spacedName ?_ table
  refine Spells.spacedKeyword ?_ (by simp [Keyword.table])
  exact (spells_list spells_equalsText names).append (spells_keyCriteria keyColumn) (setOff_space _)

theorem parse_updateText (table keyColumn name : String) (names : List String) :
    Statement.parse (updateText table keyColumn (name :: names)) =
      .ok (updateStatement table keyColumn (name :: names)) := by
  have hassignment (n : String) : Assignment (equalsTokens n) (parameterColumn n) :=
    .mk (name_identifier n) .placeholder
  have hbody := Body.update table (listed_listTokens hassignment name names)
    (filter_keyCriteria keyColumn)
  have hone (n : String) : (equalsTokens n).count (.mark .placeholder) = 1 := rfl
  have hcount (ns : List String) : (Token.keyword .UPDATE :: Token.identifier table ::
      Token.keyword .SET :: listTokens (ns.map equalsTokens) ++
        Token.keyword .WHERE :: equalsTokens keyColumn ++ []).count (Token.mark .placeholder) =
      ns.length + 1 := by
    simp [count_listTokens hone, hone]
  have hderives := Derives.mk hbody .bare
  rw [hcount, List.append_nil] at hderives
  exact parse_of_spells (spells_updateText table keyColumn _) hderives

/-! ### Inserting a record -/

theorem spells_insertText (table : String) (names : List String) :
    Spells (insertText table names).toList
      (.keyword .INSERT :: .keyword .INTO :: .identifier table :: .mark .leftParen ::
        (listTokens (names.map fun n => [.identifier n]) ++
          .mark .rightParen :: .keyword .VALUES :: .mark .leftParen ::
            (listTokens (names.map fun _ => [.mark .placeholder]) ++ [.mark .rightParen]))) := by
  have htext : (insertText table names).toList =
      "INSERT".toList ++ (' ' :: ("INTO".toList ++ (' ' :: ((quotedIdentifier table).toList ++
        ('(' :: (listText (names.map fun n => (quotedIdentifier n).toList) ++
          (')' :: ' ' :: ("VALUES".toList ++
            ('(' :: (listText (names.map fun _ => ['?']) ++ [')'])))))))))) := by
    unfold insertText
    simp [listText, Function.comp_def]
  have hvalues : Spells (listText (names.map fun _ => ['?']) ++ [')'])
      (listTokens (names.map fun _ => [.mark .placeholder]) ++ [.mark .rightParen]) :=
    (spells_list (fun _ => spells_nil.mark (by decide)) names).append (spells_nil.mark (by decide))
      (setOff_cons (by decide) _)
  rw [htext]
  refine Spells.spacedKeyword ?_ (by simp [Keyword.table])
  refine Spells.spacedKeyword ?_ (by simp [Keyword.table])
  refine Spells.name (.mark ?_ (by decide)) (setOff_cons (by decide) _) table
  refine (spells_list spells_quotedIdentifier names).append (.mark (.space ?_) (by decide))
    (setOff_cons (by decide) _)
  exact Spells.keyword (hvalues.mark (by decide)) (setOff_cons (by decide) _)
    (by simp [Keyword.table])

theorem insertion_parameters (name : String) (names : List String) :
    Insertion (.mark .leftParen :: listTokens ((name :: names).map fun n => [.identifier n]) ++
        .mark .rightParen :: .keyword .VALUES :: .mark .leftParen ::
          listTokens ((name :: names).map fun _ => [.mark .placeholder]) ++ [.mark .rightParen])
      ((name :: names).map parameterColumn) := by
  have hnames : Listed Name (listTokens ((name :: names).map fun n => [.identifier n]))
      (name :: names) := by
    simpa using listed_listTokens (f := id) name_identifier name names
  have hvalues : Listed Operand (listTokens ((name :: names).map fun _ => [.mark .placeholder]))
      ((name :: names).map fun _ => "?") :=
    listed_listTokens (fun _ => .placeholder) name names
  have hcolumns (ns : List String) : (ns.zip (ns.map fun _ => "?")).map
      (fun c => ({ name := c.1, expression := some c.2 } : Column)) = ns.map parameterColumn := by
    induction ns with
    | nil => rfl
    | cons n ns ih => rw [List.map_cons, List.zip_cons_cons, List.map_cons, List.map_cons, ih]; rfl
  rw [← hcolumns]
  exact .mk hnames hvalues (by simp)

theorem parse_insertText (table name : String) (names : List String) :
    Statement.parse (insertText table (name :: names)) =
      .ok (insertStatement table (name :: names)) := by
  have hbody := Body.insert table (insertion_parameters name names)
  have hname (n : String) : [Token.identifier n].count (.mark .placeholder) = 0 := rfl
  have hvalue (_ : String) : [Token.mark .placeholder].count (.mark .placeholder) = 1 := rfl
  have hcount (ns : List String) : (Token.keyword .INSERT :: Token.keyword .INTO ::
      Token.identifier table :: (Token.mark .leftParen :: listTokens (ns.map fun n => [.identifier n]) ++
        Token.mark .rightParen :: Token.keyword .VALUES :: Token.mark .leftParen ::
          listTokens (ns.map fun _ => [.mark .placeholder]) ++ [Token.mark .rightParen]) ++ []).count
            (Token.mark .placeholder) = ns.length := by
    simp only [List.count_cons, List.count_append, count_listTokens hname, count_listTokens hvalue]
    simp
  have hderives := Derives.mk hbody .bare
  rw [hcount, List.append_nil] at hderives
  exact parse_of_spells (by simpa using spells_insertText table (name :: names)) hderives

/-! ## All three -/

/-- The texts with which records are written say what they mean. Whatever the names are, each of the
three is read as the one statement that was meant. -/
theorem generated_statements (table keyColumn name : String) (names : List String) :
    Statement.parse (insertText table (name :: names)) =
        .ok (insertStatement table (name :: names)) ∧
      Statement.parse (updateText table keyColumn (name :: names)) =
        .ok (updateStatement table keyColumn (name :: names)) ∧
      Statement.parse (lookupText table keyColumn) = .ok (lookupStatement table keyColumn) :=
  ⟨parse_insertText table name names, parse_updateText table keyColumn name names,
    parse_lookupText table keyColumn⟩

end Schemaless
