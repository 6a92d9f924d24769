import Schemaless.Proofs.Binding.Operands
import Schemaless.Proofs.Sql.Lexing
import Schemaless.Proofs.Text.Pieces

/-!
# Operands among the tokens

The operands of a statement stand in its tokens one after the other, in the order in which they are
bound: the values of the columns first, then of each condition the side with the placeholders, and no
placeholder stands outside them (`Laid`). Every rule of the grammar puts phrases in a row, and so do the
layouts of its parts (`laid_body`).

A placeholder is a token and an operand is a text, and the text of a phrase has as many question marks
as the phrase has placeholders (`count_operand`), provided that no name and no quoted text has a question
mark in it. No other token carries one (`plain_of_scan`).
-/

namespace Schemaless

open Sql Grammar

namespace Sql

/-! ## Tokens without question marks -/

/-- The token of a placeholder. -/
abbrev Token.placeholder : Token := .mark .placeholder

/-- The text that the token carries, if it carries one, has no question mark. -/
def Token.Plain (t : Token) : Prop := ∀ text, t.carried? = some text → '?' ∉ text.toList

/-- Tokens without question marks in their texts. -/
def PlainTokens (ts : List Token) : Prop := ∀ t ∈ ts, t.Plain

variable {ts us vs : List Token}

theorem plainTokens_append : PlainTokens (ts ++ us) ↔ PlainTokens ts ∧ PlainTokens us :=
  List.forall_mem_append

theorem plainTokens_cons {t : Token} : PlainTokens (t :: ts) ↔ t.Plain ∧ PlainTokens ts :=
  List.forall_mem_cons

theorem not_mem_digits (cs : List Char) : '?' ∉ cs.takeWhile Char.isDigit := by
  intro hmem
  have hdigit := List.all_eq_true.1 (List.all_takeWhile (p := Char.isDigit) (l := cs)) '?' hmem
  cases hdigit

theorem not_mem_spanFraction (cs : List Char) : '?' ∉ (spanFraction cs).1 := by
  unfold spanFraction
  split
  · next d r =>
    split
    · simp [not_mem_digits (d :: r)]
    · simp
  · simp

theorem token_of_numberToken {digits cs rest : List Char} {t : Token}
    (h : numberToken digits cs = .ok (t, rest)) : t = .number (String.ofList digits) := by
  unfold numberToken at h
  split at h
  · split at h <;> cases h
    rfl
  · cases h
    rfl

/-- Names and quoted texts excepted, no token carries a question mark. -/
theorem plain_of_scan {c : Char} {r rest : List Char} {t : Token} (h : scan c r = .ok (t, rest)) :
    t.Plain ∨ ∃ text, t = .identifier text ∨ t = .text text := by
  unfold scan at h
  split at h
  · left
    rw [token_of_numberToken h]
    rintro text ⟨⟩
    rw [String.toList_ofList, List.mem_append, not_or]
    exact ⟨not_mem_digits _, not_mem_spanFraction _⟩
  · split at h
    · simp only [Except.ok.injEq, Prod.mk.injEq] at h
      rw [← h.1]
      unfold wordToken
      dsimp only
      split
      · exact .inl nofun
      · split
        · next hword =>
          have hall : ∀ word ∈ Keyword.unsupported, '?' ∉ word.toList := by decide +kernel
          rw [List.contains_iff_mem] at hword
          left
          rintro text ⟨⟩
          exact hall _ hword
        · exact .inr ⟨_, .inl rfl⟩
    · split at h
      · next d _ =>
        split at h
        · next text _ _ =>
          cases h
          right
          refine ⟨String.ofList text, ?_⟩
          rw [Delimiter.token]
          split
          · exact .inr rfl
          · exact .inl rfl
        · cases h
      · left
        unfold scanMark at h
        split at h <;> cases h <;> nofun

theorem plainTokens_of_lex {cs : List Char} (h : lex cs = .ok ts)
    (hplain : ∀ text, .identifier text ∈ ts ∨ .text text ∈ ts → '?' ∉ text.toList) :
    PlainTokens ts := by
  fun_induction lex cs generalizing ts with
  | case1 =>
    cases h
    exact List.forall_mem_nil _
  | case2 => cases h
  | case3 cs c r hskipped t rest hscanned ih =>
    cases hrest : lex rest with
    | error e =>
      rw [hrest] at h
      cases h
    | ok us =>
      rw [hrest] at h
      cases h
      refine plainTokens_cons.2 ⟨?_, ih hrest fun text htext => hplain text ?_⟩
      · rcases plain_of_scan hscanned with ht | ⟨text, rfl | rfl⟩
        · exact ht
        · rintro _ ⟨⟩
          exact hplain text (.inl List.mem_cons_self)
        · rintro _ ⟨⟩
          exact hplain text (.inr List.mem_cons_self)
      · exact htext.imp (List.mem_cons_of_mem _) (List.mem_cons_of_mem _)

/-! ## Counting placeholders -/

theorem placeholderCount_append (a b : String) :
    placeholderCount (a ++ b) = placeholderCount a + placeholderCount b := by
  rw [placeholderCount, String.toList_append, List.count_append]
  rfl

theorem placeholderCount_eq_zero {text : String} : placeholderCount text = 0 ↔ '?' ∉ text.toList :=
  List.count_eq_zero

theorem placeholderCount_intercalate {separator : String} (h : placeholderCount separator = 0)
    (texts : List String) :
    placeholderCount (separator.intercalate texts) = Binding.placeholders texts := by
  have hseparator : placeholder ∉ separator.toList := List.count_eq_zero.1 h
  rw [placeholderCount, String.toList_intercalate, Text.count_intercalate hseparator]
  induction texts with
  | nil => rfl
  | cons text texts ih =>
    rw [List.map_cons, List.flatten_cons, List.count_append, ih, Binding.placeholders, placeholderCount]

/-- Quoting neither adds a placeholder nor takes one away. -/
theorem placeholderCount_quotedText (s : String) :
    placeholderCount (quotedText s) = placeholderCount s := by
  have hdoubled : (Text.doubled '\'' s.toList).count placeholder = s.toList.count placeholder :=
    Text.count_doubled_of_ne (by decide) s.toList
  have hquote : ['\''].count placeholder = 0 := by decide
  have hne : ('\'' == placeholder) = false := by decide
  rw [← singleQuoted_eq, placeholderCount, placeholderCount, Text.singleQuoted, String.toList_ofList,
    List.count_cons, List.count_append, hdoubled, hquote, hne]
  rfl

/-- In a row of phrases whose texts count their placeholders, the texts count all. -/
theorem count_separated {separator : Token} {Phrase : List Token → String → Prop}
    (hseparator : separator ≠ Token.placeholder)
    (hphrase : ∀ us text, Phrase us text → PlainTokens us →
      us.count Token.placeholder = placeholderCount text)
    {texts : List String} (h : Separated separator Phrase ts texts) (hplain : PlainTokens ts) :
    ts.count Token.placeholder = Binding.placeholders texts := by
  induction h with
  | one hts => exact hphrase _ _ hts hplain
  | more hts _ ih =>
    obtain ⟨hfirst, hrest⟩ := plainTokens_append.1 hplain
    rw [List.count_append, List.count_cons_of_ne hseparator, hphrase _ _ hts hfirst,
      ih (plainTokens_cons.1 hrest).2, Binding.placeholders]

theorem count_name {name : String} (h : Name ts name) (hplain : PlainTokens ts) :
    ts.count Token.placeholder = placeholderCount name := by
  obtain ⟨hparts⟩ := h
  rw [placeholderCount_intercalate (by decide)]
  refine count_separated (by decide) (fun us text hus hplain => ?_) hparts hplain
  obtain ⟨⟩ := hus
  have hmark : '?' ∉ text.toList := hplain (.identifier text) (by simp) text rfl
  rw [placeholderCount_eq_zero.2 hmark]
  rfl

/-- The text of an operand has a question mark for each placeholder. -/
theorem count_operand {text : String} (h : Operand ts text) (hplain : PlainTokens ts) :
    ts.count Token.placeholder = placeholderCount text := by
  cases h with
  | name h => exact count_name h hplain
  | placeholder => decide
  | number n =>
    have hmark : '?' ∉ text.toList := hplain (.number text) (by simp) text rfl
    rw [placeholderCount_eq_zero.2 hmark]
    rfl
  | negative n =>
    have hmark : '?' ∉ n.toList := hplain (.number n) (by simp) n rfl
    have hminus : placeholderCount "-" = 0 := by decide
    rw [placeholderCount_append, placeholderCount_eq_zero.2 hmark, hminus]
    rfl
  | text s =>
    have hmark : '?' ∉ s.toList := hplain (.text s) (by simp) s rfl
    rw [placeholderCount_quotedText, placeholderCount_eq_zero.2 hmark]
    rfl
  | truth => decide
  | falsehood => decide

theorem count_operands {texts : List String} (h : Listed Operand ts texts) (hplain : PlainTokens ts) :
    ts.count Token.placeholder = placeholderCount (String.intercalate ", " texts) := by
  rw [placeholderCount_intercalate (by decide)]
  exact count_separated (by decide) (fun _ _ => count_operand) h hplain

/-! ## Layouts -/

/-- Items stand in tokens one after the other, each in a phrase of its own, and there is no placeholder
outside the phrases. -/
inductive Laid {β : Type} (Phrase : List Token → β → Prop) : List Token → List β → Prop
  | done {gap : List Token} : Token.placeholder ∉ gap → Laid Phrase gap []
  | item {gap us ts : List Token} {b : β} {bs : List β} : Token.placeholder ∉ gap → Phrase us b →
      Laid Phrase ts bs → Laid Phrase (gap ++ us ++ ts) (b :: bs)

section

variable {β : Type} {Phrase : List Token → β → Prop} {b : β} {bs cs : List β}

theorem Laid.gap {gap : List Token} (hgap : Token.placeholder ∉ gap) (h : Laid Phrase ts bs) :
    Laid Phrase (gap ++ ts) bs := by
  cases h with
  | done hrest => exact .done (by simp [hgap, hrest])
  | item hrest hphrase h =>
    rw [← List.append_assoc, ← List.append_assoc]
    exact .item (by simp [hgap, hrest]) hphrase h

theorem Laid.cons {t : Token} (ht : t ≠ Token.placeholder) (h : Laid Phrase ts bs) :
    Laid Phrase (t :: ts) bs := by
  have hgap : Token.placeholder ∉ [t] := by simpa using ht.symm
  exact h.gap hgap

theorem Laid.append (h : Laid Phrase ts bs) (h' : Laid Phrase us cs) :
    Laid Phrase (ts ++ us) (bs ++ cs) := by
  induction h with
  | done hgap => exact h'.gap hgap
  | item hgap hphrase _ ih =>
    rw [List.append_assoc, List.cons_append]
    exact .item hgap hphrase ih

theorem Laid.behind (h : Laid Phrase ts bs) (gap : List Token) (hgap : Token.placeholder ∉ gap) :
    Laid Phrase (ts ++ gap) bs := by
  have hlaid := h.append (.done hgap)
  rwa [List.append_nil] at hlaid

theorem laid_one (h : Phrase ts b) : Laid Phrase ts [b] := by
  have hnone : Token.placeholder ∉ ([] : List Token) := List.not_mem_nil
  have hlaid := Laid.item hnone h (.done hnone)
  rwa [List.nil_append, List.append_nil] at hlaid

/-- In a row of phrases the items stand one after the other. -/
theorem laid_separated {separator : Token} {Part : List Token → β → Prop}
    (hseparator : separator ≠ Token.placeholder)
    (hpart : ∀ us b, Part us b → PlainTokens us → Laid Phrase us [b])
    (h : Separated separator Part ts bs) (hplain : PlainTokens ts) : Laid Phrase ts bs := by
  induction h with
  | one hts => exact hpart _ _ hts hplain
  | more hts _ ih =>
    obtain ⟨hfirst, hrest⟩ := plainTokens_append.1 hplain
    exact (hpart _ _ hts hfirst).append ((ih (plainTokens_cons.1 hrest).2).cons hseparator)

end

/-! ## Names -/

theorem not_mem_separated {α : Type} {separator t : Token} {Part : List Token → α → Prop}
    (hseparator : separator ≠ t) (hpart : ∀ us a, Part us a → t ∉ us) {as : List α}
    (h : Separated separator Part ts as) : t ∉ ts := by
  induction h with
  | one hts => exact hpart _ _ hts
  | more hts _ ih => simp [hpart _ _ hts, ih, hseparator.symm]

theorem not_mem_name {name : String} (h : Name ts name) : Token.placeholder ∉ ts := by
  obtain ⟨hparts⟩ := h
  refine not_mem_separated (by decide) (fun us part hus => ?_) hparts
  obtain ⟨⟩ := hus
  simp

/-! ## Columns -/

/-- The tokens of an operand, or of a list of operands, with a placeholder for each question mark of its
text. -/
structure OperandPhrase (us : List Token) (text : String) : Prop where
  tokens : Operand us text ∨
    ∃ items, Listed Operand us items ∧ text = String.intercalate ", " items
  count : us.count Token.placeholder = placeholderCount text

theorem operandPhrase {text : String} (h : Operand ts text) (hplain : PlainTokens ts) :
    OperandPhrase ts text := ⟨.inl h, count_operand h hplain⟩

theorem operandPhrase_list {texts : List String} (h : Listed Operand ts texts)
    (hplain : PlainTokens ts) : OperandPhrase ts (String.intercalate ", " texts) :=
  ⟨.inr ⟨texts, h, rfl⟩, count_operands h hplain⟩

/-- The tokens of the value of a column; none where it has no value. -/
def ColumnPhrase (us : List Token) (c : Column) : Prop :=
  match c.expression with
  | some text => OperandPhrase us text
  | none => us = []

theorem columnPhrase {name value : String} (h : Operand ts value) (hplain : PlainTokens ts) :
    ColumnPhrase ts { name, expression := value } := operandPhrase h hplain

theorem laid_shown {c : Column} (h : Shown ts c) : Laid ColumnPhrase ts [c] := by
  have hgap {us : List Token} (hus : Token.placeholder ∉ us) (hnone : c.expression = none) :
      Laid ColumnPhrase us [c] := by
    have hphrase : ColumnPhrase [] c := by rw [ColumnPhrase, hnone]
    have hlaid := (laid_one hphrase).gap hus
    rwa [List.append_nil] at hlaid
  cases h with
  | plain hname => exact hgap (not_mem_name hname) rfl
  | labelled label hname => exact hgap (by simp [not_mem_name hname]) rfl
  | labelledAs label hname => exact hgap (by simp [not_mem_name hname]) rfl

theorem laid_assignment {c : Column} (h : Assignment ts c) (hplain : PlainTokens ts) :
    Laid ColumnPhrase ts [c] := by
  obtain ⟨hname, hvalue⟩ := h
  have hrest := (plainTokens_cons.1 (plainTokens_append.1 hplain).2).2
  exact ((laid_one (columnPhrase hvalue hrest)).cons (by decide)).gap (not_mem_name hname)

theorem laid_values {names values : List String} (h : Listed Operand ts values)
    (hlength : names.length = values.length) (hplain : PlainTokens ts) :
    Laid ColumnPhrase ts
      ((names.zip values).map fun c => { name := c.1, expression := c.2 }) := by
  induction h generalizing names with
  | one hts =>
    obtain ⟨name, rfl⟩ := List.length_eq_one_iff.1 hlength
    exact laid_one (columnPhrase hts hplain)
  | more hts _ ih =>
    obtain ⟨name, names, rfl⟩ := List.exists_cons_of_length_eq_add_one hlength
    obtain ⟨hfirst, hrest⟩ := plainTokens_append.1 hplain
    have hlaid := ih (Nat.succ.inj hlength) (plainTokens_cons.1 hrest).2
    exact (laid_one (columnPhrase hts hfirst)).append (hlaid.cons (by decide))

/-! ## Conditions -/

/-- There are placeholders on one side at most. -/
def Condition.OneSided (k : Condition) : Prop :=
  hasPlaceholder k.left = false ∨ hasPlaceholder k.right = false

/-- The tokens of the side of a condition that has a value. -/
def ConditionPhrase (us : List Token) (k : Condition) : Prop := OperandPhrase us k.expression

theorem OperandPhrase.not_mem {text : String} (h : OperandPhrase ts text)
    (hmark : hasPlaceholder text = false) : Token.placeholder ∉ ts := by
  have hzero : placeholderCount text = 0 :=
    placeholderCount_eq_zero.2 (by simpa [hasPlaceholder, placeholder] using hmark)
  exact List.count_eq_zero.1 (h.count.trans hzero)

theorem laid_sides {k : Condition} {front middle back tail : List Token}
    (hleft : OperandPhrase front k.left) (hright : OperandPhrase back k.right)
    (hmiddle : Token.placeholder ∉ middle) (htail : Token.placeholder ∉ tail) (hk : k.OneSided) :
    Laid ConditionPhrase (front ++ (middle ++ (back ++ tail))) [k] := by
  by_cases hswapped : hasPlaceholder k.left = true
  · have hexpression : k.expression = k.left := by
      rw [Condition.expression, Condition.isSwapped, if_pos hswapped]
    have hback := hright.not_mem (hk.resolve_left (by simp [hswapped]))
    have hphrase : ConditionPhrase front k := by rwa [ConditionPhrase, hexpression]
    have hrest : Token.placeholder ∉ middle ++ (back ++ tail) := by simp [hmiddle, hback, htail]
    exact (laid_one hphrase).append (.done hrest)
  · have hexpression : k.expression = k.right := by
      rw [Condition.expression, Condition.isSwapped, if_neg hswapped]
    have hfront := hleft.not_mem (by simpa using hswapped)
    have hphrase : ConditionPhrase back k := by rwa [ConditionPhrase, hexpression]
    exact (((laid_one hphrase).append (.done htail)).gap hmiddle).gap hfront

theorem laid_condition {k : Condition} (h : Grammar.Condition ts k) (hplain : PlainTokens ts)
    (hk : k.OneSided) : Laid ConditionPhrase ts [k] := by
  cases h with
  | @comparison ts us left right operator m hleft hm hright =>
    obtain ⟨hfirst, hrest⟩ := plainTokens_append.1 hplain
    have hmark : Token.placeholder ∉ [Token.mark m] := by
      have hall : ∀ p ∈ comparisons, Token.placeholder ≠ .mark p.1 := by decide
      simpa using hall _ hm
    have hlaid := laid_sides (operandPhrase hleft hfirst)
      (operandPhrase hright (plainTokens_cons.1 hrest).2) hmark List.not_mem_nil hk
    simpa using hlaid
  | @isIn ts us left items hleft hitems =>
    have hshape : ts ++ .keyword .IN :: .mark .leftParen :: us ++ [.mark .rightParen] =
        ts ++ ([.keyword .IN, .mark .leftParen] ++ (us ++ [.mark .rightParen])) := by simp
    rw [hshape] at hplain ⊢
    obtain ⟨hfirst, hrest⟩ := plainTokens_append.1 hplain
    have hlist := (plainTokens_append.1 (plainTokens_append.1 hrest).2).1
    exact laid_sides (operandPhrase hleft hfirst) (operandPhrase_list hitems hlist) (by decide)
      (by decide) hk
  | @notIn ts us left items hleft hitems =>
    have hshape : ts ++ .keyword .NOT :: .keyword .IN :: .mark .leftParen :: us ++
          [.mark .rightParen] =
        ts ++ ([.keyword .NOT, .keyword .IN, .mark .leftParen] ++ (us ++ [.mark .rightParen])) := by
      simp
    rw [hshape] at hplain ⊢
    obtain ⟨hfirst, hrest⟩ := plainTokens_append.1 hplain
    have hlist := (plainTokens_append.1 (plainTokens_append.1 hrest).2).1
    exact laid_sides (operandPhrase hleft hfirst) (operandPhrase_list hitems hlist) (by decide)
      (by decide) hk

/-- The negation of a condition has its sides. -/
theorem Laid.negated {k : Condition} (h : Laid ConditionPhrase ts [k]) (inverse : Bool) :
    Laid ConditionPhrase ts [{ k with inverse }] := by
  cases h with
  | item hgap hphrase hrest =>
    cases hrest with
    | done hlast =>
      have hphrase' : ConditionPhrase _ { k with inverse } := hphrase
      exact .item hgap hphrase' (.done hlast)

theorem conditions_nested (connective : String) (links : List Criterion) :
    (nested connective links).conditions = itemConditions links := by
  match links with
  | [] => rfl
  | [c] => exact (List.append_nil _).symm
  | _ :: _ :: _ => rfl

theorem itemConditions_nested (conjunctions : List (List Criterion)) :
    itemConditions (conjunctions.map (nested "AND")) = conjunctions.flatMap itemConditions := by
  induction conjunctions with
  | nil => rfl
  | cons links conjunctions ih =>
    rw [List.map_cons, List.flatMap_cons, itemConditions, conditions_nested, ih]

theorem conditions_criteria (conjunctions : List (List Criterion)) :
    (criteria conjunctions).conditions = conjunctions.flatMap itemConditions := by
  match conjunctions with
  | [] => rfl
  | [links] => exact (List.append_nil _).symm
  | first :: second :: rest => exact itemConditions_nested (first :: second :: rest)

-- a criterion, a chain of them, and chains joined by OR, along the derivation

mutual

theorem laid_unary {ts : List Token} {c : Criterion} :
    Unary ts c → PlainTokens ts → (∀ k ∈ c.conditions, k.OneSided) →
      Laid ConditionPhrase ts c.conditions
  | @Unary.negated ts c h, hplain, hsides => by
    have hside : c.OneSided :=
      hsides { c with inverse := !c.inverse } (List.mem_singleton_self _)
    have hlaid := laid_unary h (plainTokens_cons.1 hplain).2 fun k hk => by
      rwa [List.mem_singleton.1 hk]
    exact (hlaid.negated _).cons (by decide)
  | @Unary.group ts conjunctions h, hplain, hsides => by
    have hinner := (plainTokens_append.1 (plainTokens_cons.1 hplain).2).1
    rw [conditions_nested, itemConditions_nested] at hsides ⊢
    have hlaid := (laid_conjunctions h hinner hsides).behind [.mark .rightParen] (by decide)
    exact hlaid.cons (by decide)
  | .condition h, hplain, hsides => laid_condition h hplain (hsides _ (List.mem_singleton_self _))

theorem laid_links {ts : List Token} {links : List Criterion} :
    Conjunction ts links → PlainTokens ts → (∀ k ∈ itemConditions links, k.OneSided) →
      Laid ConditionPhrase ts (itemConditions links)
  | .one h, hplain, hsides => by
    rw [itemConditions, itemConditions, List.append_nil] at hsides ⊢
    exact laid_unary h hplain hsides
  | .more h h', hplain, hsides => by
    obtain ⟨hfirst, hrest⟩ := plainTokens_append.1 hplain
    rw [itemConditions] at hsides ⊢
    obtain ⟨hsides, hsides'⟩ := List.forall_mem_append.1 hsides
    have hlaid := laid_links h' (plainTokens_cons.1 hrest).2 hsides'
    exact (laid_unary h hfirst hsides).append (hlaid.cons (by decide))

theorem laid_conjunctions {ts : List Token} {conjunctions : List (List Criterion)} :
    Disjunction ts conjunctions → PlainTokens ts →
      (∀ k ∈ conjunctions.flatMap itemConditions, k.OneSided) →
        Laid ConditionPhrase ts (conjunctions.flatMap itemConditions)
  | .one h, hplain, hsides => by
    rw [List.flatMap_singleton] at hsides ⊢
    exact laid_links h hplain hsides
  | .more h h', hplain, hsides => by
    obtain ⟨hfirst, hrest⟩ := plainTokens_append.1 hplain
    rw [List.flatMap_cons] at hsides ⊢
    obtain ⟨hsides, hsides'⟩ := List.forall_mem_append.1 hsides
    have hlaid := laid_conjunctions h' (plainTokens_cons.1 hrest).2 hsides'
    exact (laid_links h hfirst hsides).append (hlaid.cons (by decide))

end

theorem laid_filter {c : Criteria} (h : Filter ts c) (hplain : PlainTokens ts)
    (hsides : ∀ k ∈ c.conditions, k.OneSided) : Laid ConditionPhrase ts c.conditions := by
  cases h with
  | absent => exact .done (by simp)
  | present h =>
    rw [conditions_criteria] at hsides ⊢
    exact (laid_conjunctions h (plainTokens_cons.1 hplain).2 hsides).cons (by decide)

/-! ## Statements -/

theorem laid_body {s : Statement} (h : Body ts s) (hplain : PlainTokens ts)
    (hsides : ∀ k ∈ s.criteria.conditions, k.OneSided) :
    ∃ front back, ts = front ++ back ∧ Laid ColumnPhrase front s.columns ∧
      Laid ConditionPhrase back s.criteria.conditions := by
  cases h with
  | @selectAll us c table hfilter =>
    have hrest : PlainTokens us := fun t ht => hplain t (by simp [ht])
    exact ⟨[.keyword .SELECT, .mark .star, .keyword .FROM, .identifier table], us, rfl,
      .done (by simp), laid_filter hfilter hrest hsides⟩
  | @select ts us columns c table hcolumns hfilter =>
    have hlist : PlainTokens ts := fun t ht => hplain t (by simp [ht])
    have hrest : PlainTokens us := fun t ht => hplain t (by simp [ht])
    have hlaid : Laid ColumnPhrase ts columns :=
      laid_separated (by decide) (fun _ _ h _ => laid_shown h) hcolumns hlist
    have hfront := (hlaid.cons (t := .keyword .SELECT) (by decide)).behind
      [.keyword .FROM, .identifier table] (by simp)
    exact ⟨_, us, by simp, hfront, laid_filter hfilter hrest hsides⟩
  | @insert ts columns table hinsertion =>
    obtain @⟨ts, us, names, values, hnames, hvalues, hlength⟩ := hinsertion
    have hlist : PlainTokens us := fun t ht => hplain t (by simp [ht])
    have hgap : Token.placeholder ∉ .keyword .INSERT :: .keyword .INTO :: .identifier table ::
        .mark .leftParen :: ts ++ [.mark .rightParen, .keyword .VALUES, .mark .leftParen] := by
      simp [not_mem_separated (by decide) (fun _ _ => not_mem_name) hnames]
    have hfront := ((laid_values hvalues hlength hlist).gap hgap).behind [.mark .rightParen]
      (by decide)
    exact ⟨_, [], by simp, hfront, .done (by simp)⟩
  | @update ts us columns c table hcolumns hfilter =>
    have hlist : PlainTokens ts := fun t ht => hplain t (by simp [ht])
    have hrest : PlainTokens us := fun t ht => hplain t (by simp [ht])
    have hlaid : Laid ColumnPhrase ts columns :=
      laid_separated (by decide) (fun _ _ h hplain => laid_assignment h hplain) hcolumns hlist
    have hgap : Token.placeholder ∉ [.keyword .UPDATE, .identifier table, .keyword .SET] := by simp
    exact ⟨_, us, by simp, hlaid.gap hgap, laid_filter hfilter hrest hsides⟩
  | @delete us c table hfilter =>
    have hrest : PlainTokens us := fun t ht => hplain t (by simp [ht])
    exact ⟨[.keyword .DELETE, .keyword .FROM, .identifier table], us, rfl, .done (by simp),
      laid_filter hfilter hrest hsides⟩

/-- The values of the columns stand in front, the conditions behind, each in the order in which they are
bound. -/
theorem laid_of_derives {s : Statement} (h : Derives ts s) (hplain : PlainTokens ts)
    (hsides : ∀ k ∈ s.criteria.conditions, k.OneSided) :
    ∃ front back, ts = front ++ back ∧ Laid ColumnPhrase front s.columns ∧
      Laid ConditionPhrase back s.criteria.conditions := by
  obtain @⟨ts, us, s, hbody, hend⟩ := h
  obtain ⟨front, back, rfl, hcolumns, hconditions⟩ :=
    laid_body hbody (plainTokens_append.1 hplain).1 hsides
  have hlast : Token.placeholder ∉ us := by
    cases hend with
    | bare => simp
    | semicolon => simp
  exact ⟨front, back ++ us, by simp, hcolumns, hconditions.behind us hlast⟩

end Sql

end Schemaless
