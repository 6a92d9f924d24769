import Schemaless.Proofs.Binding.Literals
import Schemaless.Proofs.Binding.Meaning
import Schemaless.Proofs.Binding.Parameters
import Schemaless.Proofs.Client.Rows
import Schemaless.Proofs.Text.Pieces
import Mathlib.Data.List.Forall2

/-!
# Lists of values

The items of `f IN (…)` are written back as one text, commas between them. Where all are placeholders the
text counts them and takes as many parameters; where all are literals it is cut at the commas again, and
each piece has its value. A text in quotes passes this cut whatever it says (`ListItem.IsLiteral`). So
either way the list comes out as it was written (`Listing.yields_list`), and it asks for what the
conditions `f = v` ask for that are joined by `OR` (`membership_is_disjunction`).
-/

namespace Schemaless

open Sql Grammar Binding

/-! ## Items -/

/-- An item of a list: how it is written, the tokens of that, and its text as an operand. -/
structure ListItem where
  written : String
  tokens : List Token
  operand : String
  spells : Spells written.toList tokens
  reads : Operand tokens operand

namespace ListItem

/-- The item that takes a parameter. -/
def parameter : ListItem where
  written := "?"
  tokens := [.mark .placeholder]
  operand := "?"
  spells := spells_nil.mark (by decide)
  reads := .placeholder

/-- The item is a literal of a value, in one piece. -/
structure IsLiteral (item : ListItem) (v : Value) : Prop where
  unmarked : '?' ∉ item.operand.toList
  passes : Text.Passes ',' ['\''] none none item.operand.toList
  trimmed : Text.trimmed item.operand.toList = item.operand.toList
  value : Literal.value item.operand.toList = .ok v

end ListItem

/-- How a value is written in a list: a text between single quotes, each single quote and each backslash
in it doubled; a whole number that 64 bits hold; a truth value in any case. -/
inductive WritesItem : Value → String → Prop
  | text (s : String) : '?' ∉ s.toList →
      WritesItem (.str s) (String.ofList (Delimiter.single.quote s.toList))
  | whole {n : Int} {written : String} : Numeral n written.toList → fitsInt64 n = true →
      WritesItem (.num (.int n)) written
  | truth {word : String} : isWord word.toList = true → wordToken word = .keyword .TRUE →
      WritesItem (.bool true) word
  | falsehood {word : String} : isWord word.toList = true → wordToken word = .keyword .FALSE →
      WritesItem (.bool false) word

theorem exists_item_of_text {s : String} (h : '?' ∉ s.toList) :
    ∃ item : ListItem, item.written = String.ofList (Delimiter.single.quote s.toList) ∧
      item.IsLiteral (.str s) := by
  have hspells : Spells (String.ofList (Delimiter.single.quote s.toList)).toList [.text s] := by
    simpa [Delimiter.token, Delimiter.escapes] using Delimiter.single.spells_quote s.toList
  have hreads : Operand [.text s] (Text.singleQuoted s) := by
    rw [singleQuoted_eq]
    exact .text s
  have hquoted : (Text.singleQuoted s).toList =
      '\'' :: (Text.doubled '\'' s.toList ++ ['\'']) := by simp [Text.singleQuoted]
  refine ⟨⟨_, _, _, hspells, hreads⟩, rfl, ?_, ?_, ?_, literal_singleQuoted s⟩
  · simp [hquoted, not_mem_doubled h]
  · rw [hquoted]
    exact Text.passes_quoted (by decide) (by decide) s.toList
  · have hblank : Text.isBlank '\'' = false := by decide
    refine Text.trimmed_of_ends ?_ ?_ <;> simp [hquoted, List.getLast?_cons, hblank]

theorem exists_item_of_numeral {n : Int} {written : String} (h : Numeral n written.toList)
    (hfits : fitsInt64 n = true) :
    ∃ item : ListItem, item.written = written ∧ item.IsLiteral (.num (.int n)) := by
  have hvalue : Literal.value written.toList = .ok (.num (.int n)) := by
    have hliteral := h.literal
    rw [wholeValue, if_pos hfits] at hliteral
    cases hv : Literal.value written.toList with
    | error e =>
      rw [hv] at hliteral
      cases hliteral
    | ok v =>
      rw [hv] at hliteral
      cases hliteral
      rfl
  have hplain : ∀ c ∈ written.toList, c ≠ ',' ∧ c ∉ ['\''] := by
    have hall := h.all (p := fun c => c != ',' && c != '\'') (by decide)
    simpa using hall
  have hitem : ∃ tokens, Spells written.toList tokens ∧ Operand tokens written := by
    generalize hcs : written.toList = cs at h
    have hwritten : written = String.ofList cs := by rw [← hcs, String.ofList_toList]
    rw [hwritten]
    cases h with
    | plain hne hall => exact ⟨_, spells_digits hne hall, .number _⟩
    | @negative digits hne hall =>
      have htext : "-" ++ String.ofList digits = String.ofList ('-' :: digits) := by simp
      exact ⟨_, spells_negative hne hall, htext ▸ .negative _⟩
  obtain ⟨tokens, hspells, hreads⟩ := hitem
  refine ⟨⟨written, tokens, written, hspells, hreads⟩, rfl, ?_, Text.passes_plain hplain, h.trimmed,
    hvalue⟩
  exact h.not_mem (by decide)

theorem exists_item_of_word {word text : String} {k : Keyword} {v : Value}
    (hword : isWord word.toList = true) (hkeyword : wordToken word = .keyword k)
    (hreads : Operand [.keyword k] text) (hunmarked : '?' ∉ text.toList)
    (hplain : (text.toList.all fun c => c != ',' && c != '\'') = true)
    (htrimmed : Text.trimmed text.toList = text.toList) (hvalue : Literal.value text.toList = .ok v) :
    ∃ item : ListItem, item.written = word ∧ item.IsLiteral v := by
  have hspells := spells_word hword
  rw [String.ofList_toList, hkeyword] at hspells
  have hpasses : Text.Passes ',' ['\''] none none text.toList :=
    Text.passes_plain (by simpa using hplain)
  exact ⟨⟨word, _, text, hspells, hreads⟩, rfl, hunmarked, hpasses, htrimmed, hvalue⟩

/-- What is written for a value is a literal of it. -/
theorem exists_item_of_writes {v : Value} {written : String} (h : WritesItem v written) :
    ∃ item : ListItem, item.written = written ∧ item.IsLiteral v := by
  cases h with
  | text s hmark => exact exists_item_of_text hmark
  | whole hnumeral hfits => exact exists_item_of_numeral hnumeral hfits
  | truth hword hkeyword =>
    exact exists_item_of_word hword hkeyword .truth (by decide +kernel) (by decide +kernel)
      (by decide +kernel) rfl
  | falsehood hword hkeyword =>
    exact exists_item_of_word hword hkeyword .falsehood (by decide +kernel) (by decide +kernel)
      (by decide +kernel) rfl

theorem exists_items_of_writes {vs : List Value} {written : List String}
    (h : List.Forall₂ WritesItem vs written) :
    ∃ items : List ListItem, items.map ListItem.written = written ∧
      List.Forall₂ (fun v item => ListItem.IsLiteral item v) vs items := by
  induction h with
  | nil => exact ⟨[], rfl, .nil⟩
  | cons hv _ ih =>
    obtain ⟨item, rfl, hitem⟩ := exists_item_of_writes hv
    obtain ⟨items, rfl, hitems⟩ := ih
    exact ⟨item :: items, rfl, .cons hitem hitems⟩

/-! ## Lists -/

/-- Items that are all placeholders, or all literals: how they are written, their values, and the
parameters that they take. -/
inductive Listing : List String → List Value → List Value → Prop
  | parameters (vs : List Value) : Listing (vs.map fun _ => "?") vs vs
  | literals {vs : List Value} {written : List String} : List.Forall₂ WritesItem vs written →
      Listing written vs []

/-- The items have these values one by one, and take these parameters in a row. -/
inductive YieldsEach : List ListItem → List Value → List Value → Prop
  | nil : YieldsEach [] [] []
  | cons {item : ListItem} {items : List ListItem} {v : Value} {vs own others : List Value} :
      Yields (bindExpression false item.operand) own v → YieldsEach items vs others →
        YieldsEach (item :: items) (v :: vs) (own ++ others)

theorem YieldsEach.length_eq {items : List ListItem} {vs params : List Value}
    (h : YieldsEach items vs params) : items.length = vs.length := by
  induction h with
  | nil => rfl
  | cons _ _ ih => rw [List.length_cons, List.length_cons, ih]

/-- The text of the operands of a list. -/
def operandsText (items : List ListItem) : String :=
  String.intercalate ", " (items.map ListItem.operand)

theorem toList_operandsText (items : List ListItem) :
    (operandsText items).toList =
      [',', ' '].intercalate (items.map fun item => item.operand.toList) := by
  simp [operandsText, Function.comp_def]

/-! ### Placeholders -/

theorem yieldsEach_parameters (vs : List Value) :
    YieldsEach (vs.map fun _ => ListItem.parameter) vs vs := by
  induction vs with
  | nil => exact .nil
  | cons v vs ih =>
    have hv : Yields (bindExpression false ListItem.parameter.operand) [v] v :=
      yields_parameter false v
    exact .cons hv ih

theorem yields_take (vs : List Value) : Yields (take vs.length) vs vs := by
  induction vs with
  | nil => exact yields_pure []
  | cons v vs ih =>
    have hrest := ih.bind (f := fun vs => pure (v :: vs)) (yields_pure (v :: vs))
    rw [List.append_nil] at hrest
    exact (yields_next v).bind (f := fun v => take vs.length >>= fun vs => pure (v :: vs)) hrest

theorem placeholderCount_parameters (vs : List Value) :
    placeholderCount (operandsText (vs.map fun _ => ListItem.parameter)) = vs.length := by
  have hitem : ListItem.parameter.operand.toList = ['?'] := by decide +kernel
  have hcomma : placeholder ∉ [',', ' '] := by decide
  rw [placeholderCount, toList_operandsText, Text.count_intercalate hcomma]
  induction vs with
  | nil => rfl
  | cons v vs ih =>
    rw [List.map_cons, List.map_cons, List.flatten_cons, List.count_append, ih, hitem, List.length_cons,
      Nat.add_comm]
    rfl

/-- Two placeholders or more make a list of their parameters. -/
theorem yields_list_of_parameters {vs : List Value} (htwo : 2 ≤ vs.length) :
    Yields (bindExpression true (operandsText (vs.map fun _ => ListItem.parameter))) vs (.arr vs) := by
  obtain ⟨n, hn⟩ : ∃ n, vs.length = n + 2 := ⟨vs.length - 2, by omega⟩
  have htake := (yields_take vs).bind (f := fun vs => pure (Value.arr vs)) (yields_pure _)
  rw [List.append_nil, hn] at htake
  unfold bindExpression
  rw [placeholderCount_parameters, hn]
  exact htake

/-! ### Literals -/

namespace ListItem.IsLiteral

variable {item : ListItem} {v : Value}

theorem yields (h : item.IsLiteral v) : Yields (bindExpression false item.operand) [] v := by
  rw [bindExpression_of_value h.unmarked h.value]
  exact yields_pure v

end ListItem.IsLiteral

section

variable {vs : List Value} {items : List ListItem}
  (h : List.Forall₂ (fun v item => ListItem.IsLiteral item v) vs items)

include h

theorem yieldsEach_literals : YieldsEach items vs [] := by
  induction h with
  | nil => exact .nil
  | cons hv _ ih => exact .cons hv.yields ih

theorem exists_isLiteral_of_mem : ∀ item ∈ items, ∃ v, item.IsLiteral v := by
  intro item hitem
  induction h with
  | nil => cases hitem
  | cons hv _ ih =>
    rcases List.mem_cons.1 hitem with rfl | hitem
    · exact ⟨_, hv⟩
    · exact ih hitem

theorem not_mem_operandsText : '?' ∉ (operandsText items).toList := by
  have hcomma : '?' ∉ [',', ' '] := by decide
  rw [toList_operandsText, ← List.count_eq_zero, Text.count_intercalate hcomma, List.count_eq_zero]
  intro hmem
  obtain ⟨text, htext, hmark⟩ := List.mem_flatten.1 hmem
  obtain ⟨item, hitem, rfl⟩ := List.mem_map.1 htext
  obtain ⟨v, hv⟩ := exists_isLiteral_of_mem h item hitem
  exact hv.unmarked hmark

/-- The text of the list is cut into the texts of its items. -/
theorem trimmed_items_operandsText (hne : items ≠ []) :
    (Literal.items (operandsText items).toList).map Text.trimmed =
      items.map fun item => item.operand.toList := by
  have hall := exists_isLiteral_of_mem h
  have hpasses : ∀ t ∈ items.map fun item => item.operand.toList,
      Text.Passes ',' ['\''] none none t := by
    intro t ht
    obtain ⟨item, hitem, rfl⟩ := List.mem_map.1 ht
    obtain ⟨v, hv⟩ := hall item hitem
    exact hv.passes
  have htrimmed : (items.map fun item => item.operand.toList).map Text.trimmed =
      items.map fun item => item.operand.toList := by
    rw [List.map_map]
    refine List.map_congr_left fun item hitem => ?_
    obtain ⟨v, hv⟩ := hall item hitem
    exact hv.trimmed
  rw [toList_operandsText, Literal.items,
    Text.trimmed_pieces_intercalate (by decide) (by decide) (by simpa using hne) hpasses, htrimmed]

theorem mapM_value_of_trimmed {pieces : List (List Char)}
    (hpieces : pieces.map Text.trimmed = items.map fun item => item.operand.toList) :
    pieces.mapM Literal.value = .ok vs := by
  induction h generalizing pieces with
  | nil =>
    obtain rfl := List.map_eq_nil_iff.1 hpieces
    rfl
  | @cons v item vs items hv _ ih =>
    obtain ⟨piece, rest, rfl, hpiece, hrest⟩ := List.map_eq_cons_iff.1 hpieces
    have hvalue : Literal.value piece = .ok v := by
      have hitem := hv.value
      rw [Literal.value, hv.trimmed] at hitem
      rw [Literal.value, hpiece]
      exact hitem
    rw [List.mapM_cons, hvalue, ih hrest]
    rfl

/-- Two literals or more make a list of their values. -/
theorem yields_list_of_literals (htwo : 2 ≤ vs.length) :
    Yields (bindExpression true (operandsText items)) [] (.arr vs) := by
  have hne : items ≠ [] := by
    rintro rfl
    cases h
    simp at htwo
  have hpieces := trimmed_items_operandsText h hne
  have hmany : 2 ≤ (Literal.items (operandsText items).toList).length := by
    have hlength := congrArg List.length hpieces
    rw [List.length_map, List.length_map, ← h.length_eq] at hlength
    omega
  have hvalue : Literal.listValue (operandsText items).toList = .ok (.arr vs) := by
    unfold Literal.listValue
    split
    · next single hsingle =>
      rw [hsingle] at hmany
      simp at hmany
    · rw [mapM_value_of_trimmed h hpieces]
      rfl
  rw [bindExpression_of_not_mem (not_mem_operandsText h), literalValue, if_pos rfl, hvalue]
  exact yields_pure _

end

/-- The items of a list, and their values one by one and together. -/
theorem Listing.yields_list {written : List String} {vs params : List Value}
    (h : Listing written vs params) (htwo : 2 ≤ vs.length) :
    ∃ items : List ListItem, items.map ListItem.written = written ∧ YieldsEach items vs params ∧
      Yields (bindExpression true (operandsText items)) params (.arr vs) := by
  cases h with
  | parameters =>
    refine ⟨vs.map fun _ => ListItem.parameter, ?_, yieldsEach_parameters vs,
      yields_list_of_parameters htwo⟩
    rw [List.map_map]
    rfl
  | literals hwrites =>
    obtain ⟨items, hwritten, hitems⟩ := exists_items_of_writes hwrites
    exact ⟨items, hwritten, yieldsEach_literals hitems, yields_list_of_literals hitems htwo⟩

/-! ## Texts -/

section

variable {ts : List Token} {written : List String}

/-- That a field is among some values, or is not. -/
def memberText (field operator : String) (written : List String) : String :=
  quotedIdentifier field ++ " " ++ operator ++ " (" ++ String.intercalate ", " written ++ ")"

/-- That a field equals one of some values. -/
def eitherText (field : String) (written : List String) : String :=
  String.intercalate " OR " (written.map fun w => quotedIdentifier field ++ " = " ++ w)

theorem spells_memberText {operator : String} (h : Spells operator.toList ts) (field : String)
    (items : List ListItem) :
    Spells (memberText field operator (items.map ListItem.written)).toList
      (.identifier field :: (ts ++ .mark .leftParen ::
        (listTokens (items.map ListItem.tokens) ++ [.mark .rightParen]))) := by
  have htext : (memberText field operator (items.map ListItem.written)).toList =
      (quotedIdentifier field).toList ++ (' ' :: (operator.toList ++ (' ' :: '(' ::
        (listText (items.map fun item => item.written.toList) ++ [')'])))) := by
    simp [memberText, listText, Function.comp_def]
  have hlist : Spells (listText (items.map fun item => item.written.toList) ++ [')'])
      (listTokens (items.map ListItem.tokens) ++ [.mark .rightParen]) :=
    (spells_list ListItem.spells items).append (spells_nil.mark (by decide))
      (setOff_cons (by decide) _)
  rw [htext]
  refine Spells.spacedName ?_ field
  exact h.append (hlist.mark (by decide)).space (setOff_space _)

theorem spells_eitherText (field : String) (item : ListItem) (items : List ListItem) :
    Spells (eitherText field ((item :: items).map ListItem.written)).toList
      ([.keyword .OR].intercalate
        ((item :: items).map fun i => .identifier field :: .mark .equal :: i.tokens)) := by
  have hone (i : ListItem) : Spells ((quotedIdentifier field).toList ++
      (' ' :: '=' :: ' ' :: i.written.toList)) (.identifier field :: .mark .equal :: i.tokens) :=
    (i.spells.space.mark (by decide)).spacedName field
  induction items generalizing item with
  | nil => simpa [eitherText] using hone item
  | cons next items ih =>
    have hrest : Spells (' ' :: ("OR".toList ++
        (' ' :: (eitherText field ((next :: items).map ListItem.written)).toList)))
        (.keyword .OR :: [.keyword .OR].intercalate
          ((next :: items).map fun i => .identifier field :: .mark .equal :: i.tokens)) :=
      ((ih next).spacedKeyword (by simp [Keyword.table])).space
    have happend := (hone item).append hrest (setOff_space _)
    simpa [eitherText] using happend

/-- The condition of a membership. -/
def memberCondition (field : String) (items : List ListItem) (inverse : Bool) : Sql.Condition :=
  { left := field, operator := "IN", right := operandsText items, inverse }

theorem listed_operands (item : ListItem) (items : List ListItem) :
    Listed Operand (listTokens ((item :: items).map ListItem.tokens))
      ((item :: items).map ListItem.operand) :=
  listed_listTokens ListItem.reads item items

theorem parse_isIn (table field : String) (item : ListItem) (items : List ListItem) :
    ∃ n, Statement.parse ("SELECT * FROM " ++
        rowsText table (memberText field "IN" ((item :: items).map ListItem.written))) =
      .ok (rowsOf .select table
        (Grammar.criteria [[.condition (memberCondition field (item :: items) false)]]) n) := by
  have hoperator : Spells "IN".toList [.keyword .IN] := spells_keyword (by simp [Keyword.table])
  have hcondition := Grammar.Condition.isIn (.name (name_identifier field))
    (listed_operands item items)
  exact ⟨_, parse_selectFrom_rowsText (spells_memberText hoperator field (item :: items))
    (.one (.one (.condition hcondition))) table⟩

theorem parse_notIn (table field : String) (item : ListItem) (items : List ListItem) :
    ∃ n, Statement.parse ("SELECT * FROM " ++
        rowsText table (memberText field "NOT IN" ((item :: items).map ListItem.written))) =
      .ok (rowsOf .select table
        (Grammar.criteria [[.condition (memberCondition field (item :: items) true)]]) n) := by
  have hoperator : Spells "NOT IN".toList [.keyword .NOT, .keyword .IN] := by
    have hin : Spells "IN".toList [.keyword .IN] := spells_keyword (by simp [Keyword.table])
    have htext : "NOT IN".toList = "NOT".toList ++ ' ' :: "IN".toList := by simp
    rw [htext]
    exact hin.spacedKeyword (by simp [Keyword.table])
  have hcondition := Grammar.Condition.notIn (.name (name_identifier field))
    (listed_operands item items)
  exact ⟨_, parse_selectFrom_rowsText (spells_memberText hoperator field (item :: items))
    (.one (.one (.condition hcondition))) table⟩

theorem disjunction_either (field : String) (item : ListItem) (items : List ListItem) :
    Disjunction
      ([.keyword .OR].intercalate
        ((item :: items).map fun i => .identifier field :: .mark .equal :: i.tokens))
      ((item :: items).map fun i => [.condition (equalCondition field i.operand)]) := by
  have hone (i : ListItem) : Conjunction (.identifier field :: .mark .equal :: i.tokens)
      [.condition (equalCondition field i.operand)] :=
    .one (.condition (.comparison (.name (name_identifier field)) (by decide) i.reads))
  induction items generalizing item with
  | nil => simpa using Separated.one (hone item)
  | cons next items ih =>
    have hmore := Separated.more (hone item) (ih next)
    simpa using hmore

/-- The conditions that the field equals one value each. -/
def eitherCriteria (field : String) (items : List ListItem) : Criteria :=
  { logical := some "OR",
    items := items.map fun i => .condition (equalCondition field i.operand) }

theorem parse_either (table field : String) (first second : ListItem) (items : List ListItem) :
    ∃ n, Statement.parse ("SELECT * FROM " ++
        rowsText table (eitherText field ((first :: second :: items).map ListItem.written))) =
      .ok (rowsOf .select table (eitherCriteria field (first :: second :: items)) n) := by
  have hcriteria : Grammar.criteria ((first :: second :: items).map fun i =>
      [.condition (equalCondition field i.operand)]) =
        eitherCriteria field (first :: second :: items) := by
    simp [Grammar.criteria, eitherCriteria, nested, Function.comp_def]
  rw [← hcriteria]
  exact ⟨_, parse_selectFrom_rowsText (spells_eitherText field first (second :: items))
    (disjunction_either field first (second :: items)) table⟩

end

/-! ## Predicates -/

section

variable {field : String} {vs params : List Value} {items : List ListItem}

/-- A membership asks for the list. -/
theorem yields_member (hmark : hasPlaceholder field = false) (htrim : Text.trim field = field)
    (hlist : Yields (bindExpression true (operandsText items)) params (.arr vs)) (inverse : Bool) :
    Yields (bindCriteria (Grammar.criteria [[.condition (memberCondition field items inverse)]]))
      params (Predicate.single field (.obj [((Operator.membership inverse).name, .arr vs)])) := by
  have hbind : bindCriteria (Grammar.criteria [[.condition (memberCondition field items inverse)]]) =
      bindCondition (memberCondition field items inverse) := rfl
  have hmember : (Operator.membership inverse).isMembership = true := by cases inverse <;> rfl
  have hbuild : (Operator.membership inverse).build (.arr vs) =
      .obj [((Operator.membership inverse).name, .arr vs)] := by
    rw [Operator.build, Operator.operand, if_pos hmember]
    rfl
  rw [hbind, memberCondition, bindCondition_of_resolve hmark (resolve_membership inverse), htrim, hmember,
    ← hbuild]
  exact hlist.map _

/-- The predicate of a condition that the field equals a value. -/
def equalPredicate (field : String) (v : Value) : Predicate :=
  Predicate.single field (Operator.equal.build v)

theorem yields_bindItems_either (hmark : hasPlaceholder field = false)
    (htrim : Text.trim field = field) (h : YieldsEach items vs params) :
    Yields (bindItems (items.map fun i => .condition (equalCondition field i.operand))) params
      (vs.map fun v => .obj (equalPredicate field v).entries) := by
  induction h with
  | nil => exact yields_pure []
  | @cons item items v vs own others hitem _ ih =>
    have hfirst : Yields (bindCriterion (.condition (equalCondition field item.operand))) own
        (equalPredicate field v) := by
      rw [bindCriterion, bindCondition_equalCondition hmark, htrim]
      exact hitem.map _
    have hrest := ih.bind (f := fun ps => pure (Value.obj (equalPredicate field v).entries :: ps))
      (yields_pure _)
    rw [List.append_nil] at hrest
    rw [List.map_cons, bindItems]
    exact hfirst.bind (f := fun p => bindItems _ >>= fun ps => pure (Value.obj p.entries :: ps)) hrest

/-- A disjunction asks for one of the values. -/
theorem yields_either (hmark : hasPlaceholder field = false) (htrim : Text.trim field = field)
    (h : YieldsEach items vs params) (htwo : 2 ≤ items.length) :
    Yields (bindCriteria (eitherCriteria field items)) params
      (Predicate.single orName (.arr (vs.map fun v => .obj (equalPredicate field v).entries))) := by
  have hor : connective (some "OR") = orName := by decide +kernel
  have hgroup : bindCriteria (eitherCriteria field items) =
      (fun ps => Predicate.single orName (.arr ps)) <$>
        bindItems (items.map fun i => .condition (equalCondition field i.operand)) := by
    match items, htwo with
    | first :: second :: rest, _ =>
      simp only [bindCriteria, eitherCriteria, List.map_cons, bindGroup, bindItems, hor,
        map_eq_pure_bind, bind_assoc, pure_bind]
  rw [hgroup]
  exact (yields_bindItems_either hmark htrim h).map _

end

section

variable {field : String} (hand : field ≠ andName) (hor : field ≠ orName) (vs : List Value)
  (d : Document)

include hand hor

theorem holds_isIn :
    (Predicate.single field (.obj [("$in", .arr vs)])).holds d =
      (d.get? field).any fun f => vs.any f.equal := by
  have hbuild : (.obj [("$in", .arr vs)] : Value) = Operator.isIn.build (.arr vs) := rfl
  rw [hbuild, holds_single_build hand hor, Operator.operatorHolds_operand]
  rfl

theorem holds_notIn :
    (Predicate.single field (.obj [("$nin", .arr vs)])).holds d =
      !(d.get? field).any fun f => vs.any f.equal := by
  have hbuild : (.obj [("$nin", .arr vs)] : Value) = Operator.notIn.build (.arr vs) := rfl
  rw [hbuild, holds_single_build hand hor, Operator.operatorHolds_operand]
  rfl

theorem holds_either :
    (Predicate.single orName (.arr (vs.map fun v => .obj (equalPredicate field v).entries))).holds d =
      (d.get? field).any fun f => vs.any f.equal := by
  have hsub (v : Value) : Predicate.subHolds d false (.obj (equalPredicate field v).entries) =
      (d.get? field).any fun f => f.equal v := by
    rw [Predicate.subHolds, ← Predicate.holds, equalPredicate, holds_single_build hand hor,
      Operator.operatorHolds_operand]
    rfl
  rw [Predicate.holds_single_or, List.any_map]
  simp only [Function.comp_def, hsub]
  cases d.get? field with
  | none => simp
  | some f => rfl

end

/-! ## The disjunction -/

/-- A list of placeholders, or of literals, is the list of its values. So `IN` asks for documents whose
field equals one of them, as the conditions joined by `OR` do, and `NOT IN` for all other documents. The
three take the same parameters. -/
theorem membership_is_disjunction (table : String) {field : String} {written : List String}
    {vs params : List Value} (hmark : hasPlaceholder field = false) (htrim : Text.trim field = field)
    (hand : field ≠ andName) (hor : field ≠ orName) (htwo : 2 ≤ vs.length)
    (hlisting : Listing written vs params) :
    ∃ isIn notIn either p,
      Statement.parse ("SELECT * FROM " ++ rowsText table (memberText field "IN" written)) =
        .ok isIn ∧
      Statement.parse ("SELECT * FROM " ++ rowsText table (memberText field "NOT IN" written)) =
        .ok notIn ∧
      Statement.parse ("SELECT * FROM " ++ rowsText table (eitherText field written)) =
        .ok either ∧
      Yields (bindCriteria isIn.criteria) params
        (Predicate.single field (.obj [("$in", .arr vs)])) ∧
      Yields (bindCriteria notIn.criteria) params
        (Predicate.single field (.obj [("$nin", .arr vs)])) ∧
      Yields (bindCriteria either.criteria) params p ∧
      ∀ d : Document,
        ((Predicate.single field (.obj [("$in", .arr vs)])).holds d = true ↔
          ∃ f v, d.get? field = some f ∧ v ∈ vs ∧ f.equal v = true) ∧
        p.holds d = (Predicate.single field (.obj [("$in", .arr vs)])).holds d ∧
        (Predicate.single field (.obj [("$nin", .arr vs)])).holds d =
          !(Predicate.single field (.obj [("$in", .arr vs)])).holds d := by
  obtain ⟨items, rfl, heach, hlist⟩ := hlisting.yields_list htwo
  rw [← heach.length_eq] at htwo
  obtain ⟨first, second, rest, rfl⟩ : ∃ first second rest, items = first :: second :: rest := by
    match items, htwo with
    | first :: second :: rest, _ => exact ⟨first, second, rest, rfl⟩
  obtain ⟨n₁, hisIn⟩ := parse_isIn table field first (second :: rest)
  obtain ⟨n₂, hnotIn⟩ := parse_notIn table field first (second :: rest)
  obtain ⟨n₃, heither⟩ := parse_either table field first second rest
  refine ⟨_, _, _, _, hisIn, hnotIn, heither, ?_, ?_, yields_either hmark htrim heach htwo,
    fun d => ⟨?_, ?_, ?_⟩⟩
  · exact yields_member hmark htrim hlist false
  · exact yields_member hmark htrim hlist true
  · rw [holds_isIn hand hor, Option.any_eq_true]
    simp
  · rw [holds_isIn hand hor, holds_either hand hor]
  · rw [holds_isIn hand hor, holds_notIn hand hor]

/-- Two quotes next to a comma, a whole number and a truth value, and the document that has the text. -/
theorem membership_is_disjunction_literals :
    ∃ isIn either p,
      Statement.parse ("SELECT * FROM " ++
        rowsText "users" (memberText "tag" "IN" ["'it''s'', \\\\'", "-07", "True"])) = .ok isIn ∧
      Statement.parse ("SELECT * FROM " ++
        rowsText "users" (eitherText "tag" ["'it''s'', \\\\'", "-07", "True"])) = .ok either ∧
      Yields (bindCriteria isIn.criteria) [] (Predicate.single "tag"
        (.obj [("$in", .arr [.str "it's', \\", .ofInt (-7), .bool true])])) ∧
      Yields (bindCriteria either.criteria) [] p ∧
      p.holds (SortedMap.ofList [("tag", .str "it's', \\")]) = true := by
  have htext : WritesItem (.str "it's', \\") "'it''s'', \\\\'" := by
    have hquote : String.ofList (Delimiter.single.quote "it's', \\".toList) = "'it''s'', \\\\'" := by
      decide +kernel
    rw [← hquote]
    exact .text _ (by decide +kernel)
  have hwhole : WritesItem (.ofInt (-7)) "-07" := by
    have hdigits : ∀ d ∈ ['0', '7'], d.isDigit = true := List.all_eq_true.1 (by decide)
    have hnumeral : Numeral (-7) "-07".toList := .negative (by decide) hdigits
    exact .whole hnumeral (by decide)
  have htruth : WritesItem (.bool true) "True" := .truth (by decide +kernel) (by decide +kernel)
  have hmark : hasPlaceholder "tag" = false := by decide
  obtain ⟨isIn, _, either, p, hisIn, -, heither, hyields, -, hyields', hholds⟩ :=
    membership_is_disjunction "users" hmark (by decide) (by decide) (by decide) (by decide)
      (.literals (.cons htext (.cons hwhole (.cons htruth .nil))))
  refine ⟨isIn, either, p, hisIn, heither, hyields, hyields', ?_⟩
  obtain ⟨hin, hp, -⟩ := hholds (SortedMap.ofList [("tag", .str "it's', \\")])
  rw [hp, hin]
  exact ⟨.str "it's', \\", .str "it's', \\", rfl, by simp, Value.equal_refl _⟩

end Schemaless
