import Schemaless.Proofs.Sql.Grammar
import Schemaless.Proofs.Sql.Reading

/-!
# The parser reads the grammar

Every phrase of the grammar is read in front of anything that does not carry it on (`Accepted`), and
whatever is read is a phrase (`Justified`). A name goes on at a point, a conjunction at `AND`, a
disjunction at `OR`, a shown column at its label; what follows these phrases inside a larger one is
never such a token, so the laws of the parts add up to those of the whole. The first goes by induction
on the phrase, the second by induction on the number of tokens. Together they say that a statement is
read exactly where the grammar derives one, and is the statement derived
(`Statement.ofTokens_eq_ok_iff`).
-/

namespace Schemaless.Sql

open Grammar

variable {α : Type} {ts us rest : List Token}

/-- The next token, if there is one, does not carry on what was read. -/
def Stops (carriesOn : Token → Prop) (rest : List Token) : Prop := ∀ t ∈ rest.head?, ¬carriesOn t

/-- These tokens are read as `a` in front of all that does not carry them on. -/
def Accepted (parse : (ts : List Token) → Parsed α ts) (carriesOn : Token → Prop)
    (ts : List Token) (a : α) : Prop :=
  ∀ rest, Stops carriesOn rest → (parse (ts ++ rest)).Reads a rest

/-- Whatever is read at the front of these tokens is a phrase. -/
def Justified (parse : (ts : List Token) → Parsed α ts) (Phrase : List Token → α → Prop)
    (ts : List Token) : Prop :=
  ∀ a rest, (parse ts).Reads a rest → ∃ us, ts = us ++ rest ∧ Phrase us a

theorem stops_cons {carriesOn : Token → Prop} {t : Token} (h : ¬carriesOn t) (ts : List Token) :
    Stops carriesOn (t :: ts) := by
  simpa [Stops] using h

theorem Accepted.mono {parse : (ts : List Token) → Parsed α ts} {carriesOn also : Token → Prop}
    {a : α} (h : Accepted parse carriesOn ts a) (hmono : ∀ t, carriesOn t → also t) :
    Accepted parse also ts a :=
  fun rest hstops => h rest fun t ht hcarries => hstops t ht (hmono t hcarries)

/-! ## Lists -/

section

variable {separator : Token} {item : (ts : List Token) → Parsed α ts} {as : List α}

theorem Grammar.Separated.imp {Phrase Phrase' : List Token → α → Prop}
    (himp : ∀ ts a, Phrase ts a → Phrase' ts a) (h : Separated separator Phrase ts as) :
    Separated separator Phrase' ts as := by
  induction h with
  | one ha => exact .one (himp _ _ ha)
  | more ha _ ih => exact .more (himp _ _ ha) ih

theorem accepted_separated {carriesOn : Token → Prop} (hseparator : ¬carriesOn separator)
    (h : Separated separator (Accepted item carriesOn) ts as) :
    Accepted (parseSeparated separator item) (fun t => carriesOn t ∨ t = separator) ts as := by
  induction h with
  | @one ts a ha =>
    intro rest hstops
    refine reads_parseSeparated.2 ⟨a, rest, ha rest ?_, .inl ⟨?_, rfl, rfl⟩⟩
    · exact fun t ht hcarries => hstops t ht (.inl hcarries)
    · exact fun hhead => hstops separator hhead (.inr rfl)
  | @more ts us a as ha _ ih =>
    intro rest hstops
    rw [List.append_assoc, List.cons_append]
    refine reads_parseSeparated.2 ⟨a, separator :: (us ++ rest), ha _ ?_, .inr ?_⟩
    · exact stops_cons hseparator _
    · exact ⟨us ++ rest, as, rfl, ih rest hstops, rfl⟩

theorem justified_separated {Phrase : List Token → α → Prop} (ts : List Token)
    (h : ∀ us : List Token, us.length ≤ ts.length → Justified item Phrase us) :
    Justified (parseSeparated separator item) (Separated separator Phrase) ts := by
  intro as rest hread
  obtain ⟨a, us, ha, hrest⟩ := reads_parseSeparated.1 hread
  obtain ⟨ps, rfl, hphrase⟩ := h ts (Nat.le_refl _) a us ha
  rcases hrest with ⟨-, rfl, rfl⟩ | ⟨vs, bs, rfl, hvs, rfl⟩
  · exact ⟨ps, rfl, .one hphrase⟩
  · have hshorter : vs.length < (ps ++ separator :: vs).length := by simp; omega
    obtain ⟨qs, rfl, hqs⟩ := justified_separated vs (fun us hus => h us (by omega)) bs rest hvs
    exact ⟨ps ++ separator :: qs, by simp, .more hphrase hqs⟩
termination_by ts.length

end

/-! ## Names and operands -/

theorem accepted_identifier {name : String} (h : Identifier ts name) :
    Accepted parseIdentifier (fun _ => False) ts name := by
  intro rest _
  cases h
  simp

theorem justified_identifier (ts : List Token) : Justified parseIdentifier Identifier ts := by
  intro name rest hread
  rw [reads_parseIdentifier] at hread
  exact ⟨[.identifier name], hread, .mk name⟩

theorem accepted_name {name : String} (h : Name ts name) :
    Accepted parseName (· = .mark .dot) ts name := by
  obtain ⟨hparts⟩ := h
  intro rest hstops
  refine Parsed.reads_map.2 ⟨_, ?_, rfl⟩
  have hall := hparts.imp fun _ _ => accepted_identifier
  refine (accepted_separated id hall).mono (fun t ht => ?_) rest hstops
  exact ht.resolve_left id

theorem justified_name (ts : List Token) : Justified parseName Name ts := by
  intro name rest hread
  obtain ⟨parts, hparts, rfl⟩ := Parsed.reads_map.1 hread
  obtain ⟨us, rfl, hus⟩ := justified_separated ts (fun us _ => justified_identifier us) _ _ hparts
  exact ⟨us, rfl, .mk hus⟩

/-- A name begins with an identifier. -/
theorem Grammar.Name.head {name : String} (h : Name ts name) :
    ∃ first us, ts = .identifier first :: us := by
  obtain ⟨hparts⟩ := h
  cases hparts with
  | one hid => cases hid; exact ⟨_, _, rfl⟩
  | more hid _ => cases hid; exact ⟨_, _, rfl⟩

theorem singleQuoted_eq (s : String) : Text.singleQuoted s = quotedText s := by
  have hdoubled : ∀ cs : List Char,
      Text.doubled '\'' cs = cs.flatMap fun c => if c = '\'' then [c, c] else [c] := by
    intro cs
    induction cs with
    | nil => rfl
    | cons c r ih => by_cases hc : c = '\'' <;> simp [Text.doubled, hc, ih]
  rw [← String.toList_inj, Text.singleQuoted, quotedText, hdoubled]
  simp

theorem accepted_operand {text : String} (h : Operand ts text) :
    Accepted parseOperand (· = .mark .dot) ts text := by
  intro rest hstops
  cases h with
  | name hname =>
    obtain ⟨first, us, rfl⟩ := hname.head
    exact accepted_name hname rest hstops
  | text s => simp [parseOperand, singleQuoted_eq]
  | placeholder | number | negative | truth | falsehood => simp [parseOperand]

theorem justified_operand (ts : List Token) : Justified parseOperand Operand ts := by
  intro text rest hread
  unfold parseOperand at hread
  split at hread
  · obtain ⟨us, hus, hname⟩ := justified_name _ _ _ hread
    exact ⟨us, hus, .name hname⟩
  · obtain ⟨rfl, rfl⟩ := Parsed.reads_single.1 hread
    exact ⟨_, rfl, .placeholder⟩
  · obtain ⟨rfl, rfl⟩ := Parsed.reads_single.1 hread
    exact ⟨_, rfl, .number _⟩
  · obtain ⟨rfl, rfl⟩ := Parsed.reads_single.1 (Parsed.reads_behind.1 hread)
    exact ⟨[.mark .minus, _], rfl, .negative _⟩
  · simp at hread
  · obtain ⟨rfl, rfl⟩ := Parsed.reads_single.1 hread
    refine ⟨[.text _], rfl, ?_⟩
    rw [singleQuoted_eq]
    exact .text _
  · obtain ⟨rfl, rfl⟩ := Parsed.reads_single.1 hread
    exact ⟨_, rfl, .truth⟩
  · obtain ⟨rfl, rfl⟩ := Parsed.reads_single.1 hread
    exact ⟨_, rfl, .falsehood⟩
  · simp at hread

/-! ## Lists in parentheses -/

section

variable {item : (ts : List Token) → Parsed α ts} {Phrase : List Token → α → Prop} {as : List α}

/-- A list in parentheses, as names and values of an insertion and the items after `IN` are read. -/
def parseEnclosed (item : (ts : List Token) → Parsed α ts) (ts : List Token) :
    Parsed (List α) ts :=
  (parseToken (.mark .leftParen) ts).andThen fun _ ts =>
    (parseList item ts).andThen fun as ts =>
      (parseToken (.mark .rightParen) ts).map fun _ => as

theorem reads_parseEnclosed :
    (parseEnclosed item ts).Reads as rest ↔
      ∃ us, ts = .mark .leftParen :: us ∧ (parseList item us).Reads as (.mark .rightParen :: rest) := by
  simp only [parseEnclosed, Parsed.reads_andThen, Parsed.reads_map, reads_parseToken]
  constructor
  · rintro ⟨_, us, rfl, _, _, hread, _, rfl, rfl⟩
    exact ⟨us, rfl, hread⟩
  · rintro ⟨us, rfl, hread⟩
    exact ⟨(), us, rfl, as, _, hread, (), rfl, rfl⟩

theorem accepted_enclosed (hitem : ∀ ts a, Phrase ts a → Accepted item (· = .mark .dot) ts a)
    (h : Listed Phrase ts as) (rest : List Token) :
    (parseEnclosed item (.mark .leftParen :: ts ++ .mark .rightParen :: rest)).Reads as rest := by
  refine reads_parseEnclosed.2 ⟨ts ++ .mark .rightParen :: rest, rfl, ?_⟩
  exact accepted_separated (by decide) (h.imp hitem) _ (stops_cons (by decide) _)

theorem justified_enclosed (hitem : ∀ ts, Justified item Phrase ts)
    (h : (parseEnclosed item ts).Reads as rest) :
    ∃ us, ts = .mark .leftParen :: us ++ .mark .rightParen :: rest ∧ Listed Phrase us as := by
  obtain ⟨vs, rfl, hread⟩ := reads_parseEnclosed.1 h
  obtain ⟨us, rfl, hus⟩ := justified_separated vs (fun us _ => hitem us) _ _ hread
  exact ⟨us, rfl, hus⟩

end

/-! ## Criteria -/

theorem reads_parseOperator {operator : String} {inverse : Bool} :
    (parseOperator ts).Reads (operator, inverse) rest ↔
      (∃ m, (m, operator) ∈ comparisons ∧ inverse = false ∧ ts = .mark m :: rest) ∨
        (operator = "IN" ∧ inverse = false ∧ ts = .keyword .IN :: rest) ∨
          (operator = "IN" ∧ inverse = true ∧ ts = .keyword .NOT :: .keyword .IN :: rest) := by
  constructor
  · intro hread
    unfold parseOperator at hread
    split at hread
    · obtain ⟨⟨⟩, rfl⟩ := Parsed.reads_single.1 (Parsed.reads_behind.1 hread)
      exact .inr (.inr ⟨rfl, rfl, rfl⟩)
    · simp at hread
    · obtain ⟨⟨⟩, rfl⟩ := Parsed.reads_single.1 hread
      exact .inr (.inl ⟨rfl, rfl, rfl⟩)
    all_goals first
      | (obtain ⟨⟨⟩, rfl⟩ := Parsed.reads_single.1 hread
         exact .inl ⟨_, by simp [comparisons], rfl, rfl⟩)
      | simp at hread
  · rintro (⟨m, hm, rfl, rfl⟩ | ⟨rfl, rfl, rfl⟩ | ⟨rfl, rfl, rfl⟩)
    · simp only [comparisons, List.mem_cons, Prod.mk.injEq, List.not_mem_nil, or_false] at hm
      rcases hm with ⟨rfl, rfl⟩ | ⟨rfl, rfl⟩ | ⟨rfl, rfl⟩ | ⟨rfl, rfl⟩ | ⟨rfl, rfl⟩ | ⟨rfl, rfl⟩ <;>
        simp [parseOperator]
    · simp [parseOperator]
    · simp [parseOperator]

theorem ne_isIn_of_mem_comparisons {m : Mark} {operator : String}
    (h : (m, operator) ∈ comparisons) : operator ≠ "IN" := by
  simp only [comparisons, List.mem_cons, Prod.mk.injEq, List.not_mem_nil, or_false] at h
  rcases h with ⟨-, rfl⟩ | ⟨-, rfl⟩ | ⟨-, rfl⟩ | ⟨-, rfl⟩ | ⟨-, rfl⟩ | ⟨-, rfl⟩ <;> decide

theorem accepted_condition {c : Condition} (h : Grammar.Condition ts c) :
    Accepted parseCondition (· = .mark .dot) ts c := by
  intro rest hstops
  cases h with
  | @comparison ts us left right operator m hleft hm hright =>
    rw [List.append_assoc]
    refine Parsed.reads_andThen.2 ⟨left, _, accepted_operand hleft _ (stops_cons ?_ _), ?_⟩
    · rintro ⟨⟩
      simp [comparisons] at hm
    · refine Parsed.reads_andThen.2 ⟨(operator, false), us ++ rest, ?_, ?_⟩
      · exact reads_parseOperator.2 (.inl ⟨m, hm, rfl, rfl⟩)
      · simp only [if_neg (ne_isIn_of_mem_comparisons hm)]
        exact Parsed.reads_map.2 ⟨right, accepted_operand hright rest hstops, rfl⟩
  | @isIn ts us left items hleft hitems =>
    have hshape : ts ++ .keyword .IN :: .mark .leftParen :: us ++ [.mark .rightParen] ++ rest =
        ts ++ .keyword .IN :: (.mark .leftParen :: us ++ .mark .rightParen :: rest) := by simp
    rw [hshape]
    refine Parsed.reads_andThen.2 ⟨left, _, accepted_operand hleft _ (stops_cons (by simp) _), ?_⟩
    refine Parsed.reads_andThen.2
      ⟨("IN", false), .mark .leftParen :: us ++ .mark .rightParen :: rest, ?_, ?_⟩
    · exact reads_parseOperator.2 (.inr (.inl ⟨rfl, rfl, rfl⟩))
    · exact Parsed.reads_map.2
        ⟨items, accepted_enclosed (fun _ _ => accepted_operand) hitems rest, rfl⟩
  | @notIn ts us left items hleft hitems =>
    have hshape : ts ++ .keyword .NOT :: .keyword .IN :: .mark .leftParen :: us ++
        [.mark .rightParen] ++ rest = ts ++ .keyword .NOT :: .keyword .IN ::
          (.mark .leftParen :: us ++ .mark .rightParen :: rest) := by simp
    rw [hshape]
    refine Parsed.reads_andThen.2 ⟨left, _, accepted_operand hleft _ (stops_cons (by simp) _), ?_⟩
    refine Parsed.reads_andThen.2
      ⟨("IN", true), .mark .leftParen :: us ++ .mark .rightParen :: rest, ?_, ?_⟩
    · exact reads_parseOperator.2 (.inr (.inr ⟨rfl, rfl, rfl⟩))
    · exact Parsed.reads_map.2
        ⟨items, accepted_enclosed (fun _ _ => accepted_operand) hitems rest, rfl⟩

theorem justified_condition (ts : List Token) :
    Justified parseCondition Grammar.Condition ts := by
  intro c rest hread
  obtain ⟨left, vs, hleft, hafter⟩ := Parsed.reads_andThen.1 hread
  obtain ⟨⟨operator, inverse⟩, ws, hoperator, hrest⟩ := Parsed.reads_andThen.1 hafter
  obtain ⟨us, rfl, hus⟩ := justified_operand _ _ _ hleft
  clear hread hafter
  rcases reads_parseOperator.1 hoperator with ⟨m, hm, rfl, rfl⟩ | ⟨rfl, rfl, rfl⟩ | ⟨rfl, rfl, rfl⟩
  · simp only [if_neg (ne_isIn_of_mem_comparisons hm)] at hrest
    obtain ⟨right, hright, rfl⟩ := Parsed.reads_map.1 hrest
    obtain ⟨rs, rfl, hrs⟩ := justified_operand _ _ _ hright
    exact ⟨us ++ .mark m :: rs, by simp, .comparison hus hm hrs⟩
  · obtain ⟨items, hitems, rfl⟩ := Parsed.reads_map.1 hrest
    obtain ⟨rs, rfl, hrs⟩ := justified_enclosed justified_operand hitems
    exact ⟨_, by simp, .isIn hus hrs⟩
  · obtain ⟨items, hitems, rfl⟩ := Parsed.reads_map.1 hrest
    obtain ⟨rs, rfl, hrs⟩ := justified_enclosed justified_operand hitems
    exact ⟨_, by simp, .notIn hus hrs⟩

theorem toCriterion_eq_nested (connective : String) (links : List Criterion) :
    Criteria.toCriterion { logical := some connective, items := links } = nested connective links := by
  match links with
  | [] => rfl
  | [_] => rfl
  | _ :: _ :: _ => rfl

theorem disjunction_eq_criteria (conjunctions : List (List Criterion)) :
    disjunction conjunctions = criteria conjunctions := by
  have hnested : (fun items => Criteria.toCriterion { logical := some "AND", items }) =
      nested "AND" := funext (toCriterion_eq_nested "AND")
  match conjunctions with
  | [] => rfl
  | [_] => rfl
  | _ :: _ :: _ => rw [disjunction, criteria, hnested] <;> simp

theorem toCriterion_criteria (conjunctions : List (List Criterion)) :
    (criteria conjunctions).toCriterion = nested "OR" (conjunctions.map (nested "AND")) := by
  match conjunctions with
  | [] => rfl
  | [conjunction] => exact toCriterion_eq_nested "AND" conjunction
  | _ :: _ :: _ => rfl

/-- An operand begins with neither `NOT` nor a parenthesis. -/
theorem Grammar.Operand.head {text : String} (h : Operand ts text) :
    ∃ t us, ts = t :: us ∧ t ≠ .keyword .NOT ∧ t ≠ .mark .leftParen := by
  cases h with
  | name hname =>
    obtain ⟨first, us, rfl⟩ := hname.head
    exact ⟨_, _, rfl, by simp, by simp⟩
  | placeholder | number | negative | text | truth | falsehood =>
    exact ⟨_, _, rfl, by simp, by simp⟩

theorem Grammar.Condition.head {c : Sql.Condition} (h : Grammar.Condition ts c) :
    ∃ t us, ts = t :: us ∧ t ≠ .keyword .NOT ∧ t ≠ .mark .leftParen := by
  cases h with
  | comparison hleft _ _ | isIn hleft _ | notIn hleft _ =>
    obtain ⟨t, us, rfl, hnot, hparen⟩ := hleft.head
    exact ⟨t, _, rfl, hnot, hparen⟩

theorem parseUnary_cons {t : Token} (hnot : t ≠ .keyword .NOT) (hparen : t ≠ .mark .leftParen) :
    parseUnary (t :: ts) = (parseCondition (t :: ts)).map .condition := by
  rw [parseUnary]
  · rintro r ⟨⟩
    exact hnot rfl
  · rintro r ⟨⟩
    exact hparen rfl

theorem reads_parseUnary_not {c : Criterion} :
    (parseUnary (.keyword .NOT :: ts)).Reads c rest ↔
      ∃ inner : Condition, (parseUnary ts).Reads (.condition inner) rest ∧
        .condition { inner with inverse := !inner.inverse } = c := by
  rw [parseUnary]
  rcases parseUnary ts with e | ⟨_ | ⟨logical, items⟩, r⟩
  · simp
  · simp [Criterion.negated, Except.map, After.behind, Condition.negated, and_comm, and_assoc]
  · simp [Criterion.negated, Except.map]

theorem reads_parseUnary_paren {c : Criterion} :
    (parseUnary (.mark .leftParen :: ts)).Reads c rest ↔
      ∃ conjunctions, (parseDisjuncts ts).Reads conjunctions (.mark .rightParen :: rest) ∧
        nested "OR" (conjunctions.map (nested "AND")) = c := by
  rw [parseUnary, Parsed.reads_behind, Parsed.reads_andThen]
  simp only [Parsed.reads_map, reads_parseToken, disjunction_eq_criteria, toCriterion_criteria]
  constructor
  · rintro ⟨conjunctions, _, hread, _, rfl, hc⟩
    exact ⟨conjunctions, hread, hc⟩
  · rintro ⟨conjunctions, hread, hc⟩
    exact ⟨conjunctions, _, hread, (), rfl, hc⟩

/-- What carries on a conjunction: a qualifier of its last name, or one more link. -/
abbrev CarriesConjunction (t : Token) : Prop := t = .mark .dot ∨ t = .keyword .AND

abbrev CarriesDisjunction (t : Token) : Prop := CarriesConjunction t ∨ t = .keyword .OR

theorem accepted_conjunction {links : List Criterion}
    (h : Separated (.keyword .AND) (Accepted parseUnary (· = .mark .dot)) ts links) :
    Accepted parseConjuncts CarriesConjunction ts links := by
  intro rest hstops
  rw [parseConjuncts_eq]
  exact accepted_separated (by decide) h rest hstops

theorem accepted_disjunction {conjunctions : List (List Criterion)}
    (h : Separated (.keyword .OR) (Accepted parseConjuncts CarriesConjunction) ts conjunctions) :
    Accepted parseDisjuncts CarriesDisjunction ts conjunctions := by
  intro rest hstops
  rw [parseDisjuncts_eq]
  exact accepted_separated (by decide) h rest hstops

-- over the phrase: a unary phrase together with the two kinds of chains inside its parentheses

mutual

theorem accepted_unary {ts : List Token} {c : Criterion} :
    Unary ts c → Accepted parseUnary (· = .mark .dot) ts c
  | .negated h => by
    intro rest hstops
    exact reads_parseUnary_not.2 ⟨_, accepted_unary h rest hstops, rfl⟩
  | @Unary.group ts conjunctions h => by
    intro rest _
    have hshape : .mark .leftParen :: ts ++ [.mark .rightParen] ++ rest =
        .mark .leftParen :: (ts ++ .mark .rightParen :: rest) := by simp
    rw [hshape]
    refine reads_parseUnary_paren.2 ⟨conjunctions, ?_, rfl⟩
    exact accepted_disjunction (accepted_conjunctions h) _ (stops_cons (by decide) _)
  | .condition h => by
    intro rest hstops
    obtain ⟨t, us, rfl, hnot, hparen⟩ := h.head
    rw [List.cons_append, parseUnary_cons hnot hparen]
    exact Parsed.reads_map.2 ⟨_, accepted_condition h rest hstops, rfl⟩

theorem accepted_links {ts : List Token} {links : List Criterion} :
    Conjunction ts links →
      Separated (.keyword .AND) (Accepted parseUnary (· = .mark .dot)) ts links
  | .one h => .one (accepted_unary h)
  | .more h h' => .more (accepted_unary h) (accepted_links h')

theorem accepted_conjunctions {ts : List Token} {conjunctions : List (List Criterion)} :
    Disjunction ts conjunctions →
      Separated (.keyword .OR) (Accepted parseConjuncts CarriesConjunction) ts conjunctions
  | .one h => .one (accepted_conjunction (accepted_links h))
  | .more h h' => .more (accepted_conjunction (accepted_links h)) (accepted_conjunctions h')

end

theorem justified_disjunction (ts : List Token)
    (h : ∀ us : List Token, us.length ≤ ts.length → Justified parseUnary Unary us) :
    Justified parseDisjuncts Disjunction ts := by
  have hconjuncts : ∀ us : List Token, us.length ≤ ts.length →
      Justified parseConjuncts Conjunction us := by
    intro us hus links rest hread
    rw [parseConjuncts_eq] at hread
    exact justified_separated us (fun vs hvs => h vs (by omega)) links rest hread
  intro conjunctions rest hread
  rw [parseDisjuncts_eq] at hread
  exact justified_separated ts hconjuncts conjunctions rest hread

theorem justified_unary (ts : List Token) : Justified parseUnary Unary ts := by
  intro c rest hread
  match ts, hread with
  | [], hread => simp [parseUnary, parseCondition, parseOperand, Parsed.andThen, Parsed.map] at hread
  | t :: vs, hread =>
    by_cases hnot : t = .keyword .NOT
    · subst hnot
      obtain ⟨inner, hinner, rfl⟩ := reads_parseUnary_not.1 hread
      obtain ⟨us, rfl, hus⟩ := justified_unary vs _ _ hinner
      exact ⟨.keyword .NOT :: us, rfl, .negated hus⟩
    · by_cases hparen : t = .mark .leftParen
      · subst hparen
        obtain ⟨conjunctions, hinner, rfl⟩ := reads_parseUnary_paren.1 hread
        obtain ⟨us, rfl, hus⟩ :=
          justified_disjunction vs (fun us hus => justified_unary us) _ _ hinner
        exact ⟨.mark .leftParen :: us ++ [.mark .rightParen], by simp, .group hus⟩
      · rw [parseUnary_cons hnot hparen] at hread
        obtain ⟨inner, hinner, rfl⟩ := Parsed.reads_map.1 hread
        obtain ⟨us, hus, hcondition⟩ := justified_condition _ _ _ hinner
        exact ⟨us, hus, .condition hcondition⟩
termination_by ts.length
decreasing_by
  · simp
  · simp; omega

/-! ## Statements -/

theorem stops_of_ending {carriesOn : Token → Prop} (hsemicolon : ¬carriesOn (.mark .semicolon))
    (h : Ending rest) : Stops carriesOn rest := by
  cases h with
  | bare => simp [Stops]
  | semicolon => exact stops_cons hsemicolon []

theorem parseWhere_of_filter {c : Criteria} (h : Filter ts c) (hend : Ending rest) :
    parseWhere (ts ++ rest) = .ok (c, rest) := by
  cases h with
  | absent => cases hend <;> rfl
  | present hdisjunction =>
    have haccepted := accepted_disjunction (accepted_conjunctions hdisjunction) rest
    obtain ⟨r, hr, htokens⟩ := haccepted (stops_of_ending (by decide) hend)
    simp [parseWhere, hr, htokens, disjunction_eq_criteria]

theorem filter_of_parseWhere {c : Criteria} (h : parseWhere ts = .ok (c, rest)) :
    ∃ us, ts = us ++ rest ∧ Filter us c := by
  unfold parseWhere at h
  split at h
  · next vs =>
    rcases hread : parseDisjuncts vs with e | ⟨conjunctions, r⟩ <;> rw [hread] at h
    · cases h
    · cases h
      obtain ⟨us, hus, hphrase⟩ := justified_disjunction vs (fun us _ => justified_unary us)
        conjunctions r.tokens ⟨r, hread, rfl⟩
      refine ⟨.keyword .WHERE :: us, congrArg _ hus, ?_⟩
      rw [disjunction_eq_criteria]
      exact .present hphrase
  · cases h
    exact ⟨[], rfl, .absent⟩

theorem parseIdentifier_of_head (h : ∀ name, ts.head? ≠ some (.identifier name)) :
    parseIdentifier ts = .error (.expected .identifier ts) := by
  unfold parseIdentifier
  split
  · next name r => exact absurd rfl (h name)
  · rfl

/-- A label and the tokens after it; there is none where neither `AS` nor an identifier follows. -/
inductive LabelledBy : List Token → Option String → List Token → Prop
  | withAs (label : String) (rest : List Token) :
      LabelledBy (.keyword .AS :: .identifier label :: rest) (some label) rest
  | bare (label : String) (rest : List Token) :
      LabelledBy (.identifier label :: rest) (some label) rest
  | none {rest : List Token} (has : rest.head? ≠ some (.keyword .AS))
      (hname : ∀ name, rest.head? ≠ some (.identifier name)) : LabelledBy rest none rest

theorem reads_parseLabel {fewer : us.length < ts.length} {label : Option String} :
    Parsed.Reads (parseLabel ⟨us, fewer⟩) label rest ↔ LabelledBy us label rest := by
  by_cases has : us.head? = some (.keyword .AS)
  · obtain ⟨vs, rfl⟩ : ∃ vs, us = .keyword .AS :: vs := List.head?_eq_some_iff.1 has
    have hreads : Parsed.Reads (parseLabel ⟨.keyword .AS :: vs, fewer⟩) label rest ↔
        ∃ l, (parseIdentifier vs).Reads l rest ∧ some l = label := by
      simp only [parseLabel, After.drop?_eq_some, ← Parsed.reads_map]
      rcases parseIdentifier vs with e | ⟨l, r⟩ <;> simp [Parsed.map, After.within]
    simp only [hreads, reads_parseIdentifier]
    constructor
    · rintro ⟨l, rfl, rfl⟩
      exact .withAs l rest
    · rintro (_ | _ | hnot)
      · exact ⟨_, rfl, rfl⟩
      · exact absurd rfl hnot
  · have hnone : (After.mk us fewer).drop? (.keyword .AS) = none := After.drop?_eq_none has
    by_cases hname : ∀ l, us.head? ≠ some (.identifier l)
    · simp only [parseLabel, hnone, parseIdentifier_of_head hname, Parsed.reads_ok]
      constructor
      · rintro ⟨rfl, rfl⟩
        exact .none has hname
      · rintro (⟨l, _⟩ | ⟨l, _⟩ | _)
        · exact absurd rfl has
        · exact absurd rfl (hname l)
        · exact ⟨rfl, rfl⟩
    · obtain ⟨l, hl⟩ : ∃ l, us.head? = some (.identifier l) := by simpa using hname
      obtain ⟨vs, rfl⟩ := List.head?_eq_some_iff.1 hl
      simp only [parseLabel, hnone, parseIdentifier, Parsed.single, Parsed.reads_ok, After.within]
      constructor
      · rintro ⟨rfl, rfl⟩
        exact .bare l vs
      · rintro (_ | _ | ⟨-, hnot⟩)
        · exact ⟨rfl, rfl⟩
        · exact absurd rfl (hnot l)

theorem reads_parseShownColumn {column : Column} :
    (parseShownColumn ts).Reads column rest ↔
      ∃ name label us, (parseName ts).Reads name us ∧ LabelledBy us label rest ∧
        { name, label } = column := by
  unfold parseShownColumn
  rcases parseName ts with e | ⟨name, us, fewer⟩
  · simp
  · have hmap : Except.map (fun x : Option String × After ts =>
          (({ name, label := x.1 } : Column), x.2)) (parseLabel ⟨us, fewer⟩) =
        Parsed.map (fun label => { name, label }) (parseLabel ⟨us, fewer⟩) := by
      rcases parseLabel ⟨us, fewer⟩ with e | ⟨label, r⟩ <;> rfl
    show Parsed.Reads (Except.map _ _) column rest ↔ _
    rw [hmap, Parsed.reads_map]
    simp only [reads_parseLabel]
    constructor
    · rintro ⟨label, hlabel, rfl⟩
      exact ⟨name, label, us, ⟨_, rfl, rfl⟩, hlabel, rfl⟩
    · rintro ⟨_, label, _, ⟨_, ⟨⟩, rfl⟩, hlabel, rfl⟩
      exact ⟨label, hlabel, rfl⟩

/-- What carries on a shown column: a qualifier of its name, or a label. -/
abbrev CarriesShown (t : Token) : Prop :=
  t = .mark .dot ∨ t = .keyword .AS ∨ ∃ label, t = .identifier label

theorem accepted_shown {column : Column} (h : Shown ts column) :
    Accepted parseShownColumn CarriesShown ts column := by
  intro rest hstops
  refine reads_parseShownColumn.2 ?_
  cases h with
  | @plain ts name hname =>
    refine ⟨name, none, rest, accepted_name hname rest ?_, .none ?_ ?_, rfl⟩
    · exact fun t ht hdot => hstops t ht (.inl hdot)
    · exact fun hhead => hstops _ hhead (.inr (.inl rfl))
    · exact fun label hhead => hstops _ hhead (.inr (.inr ⟨label, rfl⟩))
  | @labelled ts name label hname =>
    rw [List.append_assoc]
    exact ⟨name, label, _, accepted_name hname _ (stops_cons (by simp) _), .bare label rest, rfl⟩
  | @labelledAs ts name label hname =>
    rw [List.append_assoc]
    exact ⟨name, label, _, accepted_name hname _ (stops_cons (by simp) _), .withAs label rest, rfl⟩

theorem justified_shown (ts : List Token) : Justified parseShownColumn Shown ts := by
  intro column rest hread
  obtain ⟨name, label, us, hname, hlabel, rfl⟩ := reads_parseShownColumn.1 hread
  obtain ⟨vs, rfl, hvs⟩ := justified_name _ _ _ hname
  cases hlabel with
  | withAs label => exact ⟨vs ++ [.keyword .AS, .identifier label], by simp, .labelledAs label hvs⟩
  | bare label => exact ⟨vs ++ [.identifier label], by simp, .labelled label hvs⟩
  | none => exact ⟨vs, rfl, .plain hvs⟩

theorem accepted_assignment {column : Column} (h : Assignment ts column) :
    Accepted parseAssignment (· = .mark .dot) ts column := by
  intro rest hstops
  obtain @⟨ts, us, name, value, hname, hvalue⟩ := h
  rw [List.append_assoc]
  refine Parsed.reads_andThen.2 ⟨name, _, accepted_name hname _ (stops_cons (by simp) _), ?_⟩
  refine Parsed.reads_andThen.2 ⟨(), us ++ rest, reads_parseToken.2 rfl, ?_⟩
  exact Parsed.reads_map.2 ⟨value, accepted_operand hvalue rest hstops, rfl⟩

theorem justified_assignment (ts : List Token) : Justified parseAssignment Assignment ts := by
  intro column rest hread
  obtain ⟨name, vs, hname, hafter⟩ := Parsed.reads_andThen.1 hread
  obtain ⟨_, ws, hequal, hrest⟩ := Parsed.reads_andThen.1 hafter
  obtain ⟨value, hvalue, rfl⟩ := Parsed.reads_map.1 hrest
  obtain ⟨us, hus, hphrase⟩ := justified_name _ _ _ hname
  obtain rfl := reads_parseToken.1 hequal
  obtain ⟨qs, rfl, hqs⟩ := justified_operand _ _ _ hvalue
  exact ⟨us ++ .mark .equal :: qs, by simp [hus], .mk hphrase hqs⟩

/-! ### Whole statements -/

/-- A shown column begins with a name, and so does a list of them. -/
theorem head_of_shown {columns : List Column} (h : Listed Shown ts columns) :
    ∃ first us, ts = .identifier first :: us := by
  have hshown : ∀ {ts column}, Shown ts column → ∃ first us, ts = .identifier first :: us := by
    intro ts column hcolumn
    cases hcolumn with
    | plain hname | labelled _ hname | labelledAs _ hname =>
      obtain ⟨first, us, rfl⟩ := hname.head
      exact ⟨first, _, rfl⟩
  cases h with
  | one hcolumn => exact hshown hcolumn
  | more hcolumn _ =>
    obtain ⟨first, us, rfl⟩ := hshown hcolumn
    exact ⟨first, _, rfl⟩

theorem accepted_shownColumns {columns : List Column} (h : Listed Shown ts columns)
    (rest : List Token) :
    (parseShownColumns (ts ++ .keyword .FROM :: rest)).Reads columns (.keyword .FROM :: rest) := by
  have hlist := accepted_separated (by simp) (h.imp fun _ _ => accepted_shown)
    (.keyword .FROM :: rest) (stops_cons (by simp) _)
  obtain ⟨first, us, rfl⟩ := head_of_shown h
  exact hlist

theorem justified_shownColumns {columns : List Column}
    (h : (parseShownColumns ts).Reads columns rest) :
    columns = [] ∧ ts = .mark .star :: rest ∨ ∃ us, ts = us ++ rest ∧ Listed Shown us columns := by
  unfold parseShownColumns at h
  split at h
  · obtain ⟨rfl, rfl⟩ := Parsed.reads_single.1 h
    exact .inl ⟨rfl, rfl⟩
  · exact .inr (justified_separated _ (fun us _ => justified_shown us) _ _ h)

theorem stops_of_filter {carriesOn : Token → Prop} {c : Criteria} (h : Filter us c)
    (hend : Ending rest) (hwhere : ¬carriesOn (.keyword .WHERE))
    (hsemicolon : ¬carriesOn (.mark .semicolon)) : Stops carriesOn (us ++ rest) := by
  cases h with
  | absent => exact stops_of_ending hsemicolon hend
  | present _ => exact stops_cons hwhere _

theorem parseBody_of_body {s : Statement} (h : Body ts s) (hend : Ending rest) :
    parseBody (ts ++ rest) = .ok (s, rest) := by
  cases h with
  | @selectAll us c table hfilter =>
    have hwhere := parseWhere_of_filter hfilter hend
    exact parseSelect_eq_ok.2 ⟨[], table, us ++ rest, c, Parsed.reads_single.2 ⟨rfl, rfl⟩, hwhere, rfl⟩
  | @select ts us columns c table hcolumns hfilter =>
    have hshape : .keyword .SELECT :: ts ++ .keyword .FROM :: .identifier table :: us ++ rest =
        .keyword .SELECT :: (ts ++ .keyword .FROM :: .identifier table :: (us ++ rest)) := by simp
    rw [hshape]
    have hwhere := parseWhere_of_filter hfilter hend
    exact parseSelect_eq_ok.2
      ⟨columns, table, us ++ rest, c, accepted_shownColumns hcolumns _, hwhere, rfl⟩
  | @insert ts columns table hinsertion =>
    obtain @⟨ts, us, names, values, hnames, hvalues, hlength⟩ := hinsertion
    have hshape : .keyword .INSERT :: .keyword .INTO :: .identifier table :: (.mark .leftParen ::
        ts ++ .mark .rightParen :: .keyword .VALUES :: .mark .leftParen :: us ++
          [.mark .rightParen]) ++ rest =
        .keyword .INSERT :: .keyword .INTO :: .identifier table :: (.mark .leftParen :: ts ++
          .mark .rightParen :: .keyword .VALUES ::
            (.mark .leftParen :: us ++ .mark .rightParen :: rest)) := by simp
    have hcomma : rest.head? ≠ some (.mark .comma) := by cases hend <;> simp
    rw [hshape]
    refine parseInsert_eq_ok.2
      ⟨table, _, names, .mark .leftParen :: us ++ .mark .rightParen :: rest, values, rfl, ?_, ?_, ?_⟩
    · exact accepted_enclosed (fun _ _ => accepted_name) hnames _
    · exact accepted_enclosed (fun _ _ => accepted_operand) hvalues rest
    · exact insertion_eq_ok.2 ⟨hcomma, hlength, rfl, rfl⟩
  | @update ts us columns c table hcolumns hfilter =>
    have hshape : .keyword .UPDATE :: .identifier table :: .keyword .SET :: ts ++ us ++ rest =
        .keyword .UPDATE :: .identifier table :: .keyword .SET :: (ts ++ (us ++ rest)) := by simp
    rw [hshape]
    have hlist := accepted_separated (by simp) (hcolumns.imp fun _ _ => accepted_assignment)
      (us ++ rest) (stops_of_filter hfilter hend (by simp) (by simp))
    have hwhere := parseWhere_of_filter hfilter hend
    exact parseUpdate_eq_ok.2 ⟨table, _, columns, us ++ rest, c, rfl, hlist, hwhere, rfl⟩
  | @delete us c table hfilter =>
    have hwhere := parseWhere_of_filter hfilter hend
    exact parseDelete_eq_ok.2 ⟨table, us ++ rest, c, rfl, hwhere, rfl⟩

theorem body_of_parseBody {s : Statement} (h : parseBody ts = .ok (s, rest)) :
    ∃ us, ts = us ++ rest ∧ Body us s := by
  unfold parseBody at h
  split at h
  · obtain ⟨columns, table, vs, c, hcolumns, hwhere, rfl⟩ := parseSelect_eq_ok.1 h
    obtain ⟨ws, rfl, hws⟩ := filter_of_parseWhere hwhere
    rcases justified_shownColumns hcolumns with ⟨rfl, rfl⟩ | ⟨us, rfl, hus⟩
    · exact ⟨_, rfl, .selectAll table hws⟩
    · refine ⟨.keyword .SELECT :: us ++ .keyword .FROM :: .identifier table :: ws, by simp, ?_⟩
      exact .select table hus hws
  · obtain ⟨table, vs, names, ws, values, rfl, hnames, hvalues, hinsertion⟩ :=
      parseInsert_eq_ok.1 h
    obtain ⟨-, hlength, -, rfl⟩ := insertion_eq_ok.1 hinsertion
    obtain ⟨ps, rfl, hps⟩ := justified_enclosed justified_name hnames
    obtain ⟨qs, rfl, hqs⟩ := justified_enclosed justified_operand hvalues
    exact ⟨_, by simp, .insert table (.mk hps hqs hlength)⟩
  · obtain ⟨table, vs, columns, ws, c, rfl, hcolumns, hwhere, rfl⟩ := parseUpdate_eq_ok.1 h
    obtain ⟨us, rfl, hus⟩ :=
      justified_separated vs (fun us _ => justified_assignment us) _ _ hcolumns
    obtain ⟨qs, rfl, hqs⟩ := filter_of_parseWhere hwhere
    exact ⟨_, by simp, .update table hus hqs⟩
  · obtain ⟨table, vs, c, rfl, hwhere, rfl⟩ := parseDelete_eq_ok.1 h
    obtain ⟨us, rfl, hus⟩ := filter_of_parseWhere hwhere
    exact ⟨_, rfl, .delete table hus⟩
  · cases h

theorem parseEnd_eq_ok : parseEnd rest = .ok () ↔ Ending rest := by
  constructor
  · intro h
    unfold parseEnd at h
    split at h
    · exact .bare
    · exact .semicolon
    · cases h
    · cases h
  · rintro (_ | _) <;> rfl

theorem ofTokens_of_derives {s : Statement} (h : Derives ts s) :
    Statement.ofTokens ts = .ok s := by
  obtain ⟨hbody, hend⟩ := h
  rw [Statement.ofTokens, parseBody_of_body hbody hend]
  simp [parseEnd_eq_ok.2 hend, Except.map]

theorem derives_of_ofTokens {s : Statement} (h : Statement.ofTokens ts = .ok s) :
    Derives ts s := by
  rw [Statement.ofTokens] at h
  rcases hbody : parseBody ts with e | ⟨s', rest⟩ <;> rw [hbody] at h
  · cases h
  · obtain ⟨u, hend, rfl⟩ := map_eq_ok.1 h
    obtain ⟨us, rfl, hus⟩ := body_of_parseBody hbody
    exact .mk hus (parseEnd_eq_ok.1 hend)

/-- A list of tokens is read as a statement exactly where the grammar derives that statement from
it. -/
theorem Statement.ofTokens_eq_ok_iff (ts : List Token) (s : Statement) :
    Statement.ofTokens ts = .ok s ↔ Derives ts s :=
  ⟨derives_of_ofTokens, ofTokens_of_derives⟩

end Schemaless.Sql
