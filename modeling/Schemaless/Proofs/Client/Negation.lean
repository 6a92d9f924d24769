import Schemaless.Proofs.Client.NormalForm
import Schemaless.Proofs.Sql.Place

/-!
# Negated conditions

`NOT` is written in front of a condition or before `IN`, and the parser only counts: it turns the flag of
the condition once for each (`Sql.Grammar.unary_of_negation`). The flag turns the operator into its opposite
when the condition is bound, and the opposite operator says the opposite of every field, also of one that
is missing or of another type (`Operator.compares_opposite`); there is no third answer. So a condition and
its negation select what the other does not (`negation_selects_the_rest`).
-/

namespace Schemaless

open Sql Grammar

/-! ## Opposite operators -/

namespace Operator

variable {o : Operator} {text : String}

/-- The operator that says the opposite, for the operators that have an inverse and for those
inverses. -/
def opposite : Operator → Operator
  | equal => notEqual
  | notEqual => equal
  | isIn => notIn
  | notIn => isIn
  | o => o

/-- The operators that have an inverse, and the inverses. -/
def opposed : List Operator := [equal, notEqual, isIn, notIn]

theorem isMembership_opposite (o : Operator) : o.opposite.isMembership = o.isMembership := by
  cases o <;> rfl

theorem compares_opposite (h : o ∈ opposed) (field : Option Value) (v : Value) :
    o.opposite.compares field v = !o.compares field v := by
  simp only [opposed, List.mem_cons, List.not_mem_nil, or_false] at h
  rcases h with rfl | rfl | rfl | rfl
  · rfl
  · exact (Bool.not_not _).symm
  · rfl
  · exact (Bool.not_not _).symm

/-- A text that writes `=` or `IN` is an operator with the flag and without it, one the opposite of the
other. -/
theorem exists_resolve (h : parse text = .ok equal ∨ parse text = .ok isIn) (inverted : Bool) :
    ∃ o ∈ opposed, resolve text inverted = .ok o ∧ resolve text (!inverted) = .ok o.opposite := by
  unfold resolve
  rcases h with h | h <;> rw [h] <;> cases inverted
  · exact ⟨equal, by decide, rfl, rfl⟩
  · exact ⟨notEqual, by decide, rfl, rfl⟩
  · exact ⟨isIn, by decide, rfl, rfl⟩
  · exact ⟨notIn, by decide, rfl, rfl⟩

end Operator

/-! ## A condition and its negation -/

/-- The operator of the condition has an inverse. -/
def Sql.Condition.Invertible (k : Sql.Condition) : Prop :=
  Operator.parse k.operator = .ok .equal ∨ Operator.parse k.operator = .ok .isIn

/-- The condition with `NOT` in front this many times. -/
def Sql.Condition.afterNots (k : Sql.Condition) (n : Nat) : Sql.Condition :=
  if n % 2 = 0 then k else k.negated

theorem Sql.Condition.negated_negated (k : Sql.Condition) : k.negated.negated = k := by
  simp [negated]

theorem Sql.Condition.afterNots_succ (k : Sql.Condition) (n : Nat) :
    k.afterNots (n + 1) = (k.afterNots n).negated := by
  unfold afterNots
  by_cases heven : n % 2 = 0
  · rw [if_pos heven, if_neg (by omega)]
  · rw [if_neg heven, if_pos (by omega), negated_negated]

section

variable {c : Config} {table : String} {k : Sql.Condition} {cursor after : Cursor} {p : Predicate}

/-- Where a condition is bound, its negation is, with the same operands; of every document it says the
opposite. -/
theorem exists_bindCondition_negated (hinvertible : k.Invertible) (hfield : k.OnField)
    (h : (bindCondition k).on cursor = (.ok p, after)) (c : Config) (table : String) :
    ∃ q, (bindCondition k.negated).on cursor = (.ok q, after) ∧
      ∀ d, Predicate.holds (resolveKey c table true q) d =
        !Predicate.holds (resolveKey c table true p) d := by
  obtain ⟨o, ho, hresolve, hresolve'⟩ := Operator.exists_resolve hinvertible k.inverse
  rw [bindCondition_eq hresolve] at h
  obtain ⟨v, hv, rfl⟩ := Effect.map_eq_ok.1 h
  refine ⟨Predicate.single k.field (o.opposite.build v), ?_, fun d => ?_⟩
  · have hnegated := bindCondition_eq (c := k.negated) hresolve'
    rw [hnegated, Operator.isMembership_opposite]
    exact Effect.map_eq_ok.2 ⟨v, hv, rfl⟩
  · -- a condition on the key column asks for the native key, which is no connective either
    have hname : (if k.field = c.keyOf table then nativeKey else k.field) ≠ andName ∧
        (if k.field = c.keyOf table then nativeKey else k.field) ≠ orName := by
      split
      · decide
      · exact hfield
    rw [resolveKey_single_eq, resolveKey_single_eq, holds_single_build hname.1 hname.2,
      holds_single_build hname.1 hname.2, Operator.operatorHolds_operand,
      Operator.operatorHolds_operand, Operator.compares_opposite ho]

theorem exists_bindCondition_afterNots (hinvertible : k.Invertible) (hfield : k.OnField)
    (h : (bindCondition k).on cursor = (.ok p, after)) (c : Config) (table : String) (n : Nat) :
    ∃ q, (bindCondition (k.afterNots n)).on cursor = (.ok q, after) ∧
      ∀ d, Predicate.holds (resolveKey c table true q) d =
        if n % 2 = 0 then Predicate.holds (resolveKey c table true p) d
        else !Predicate.holds (resolveKey c table true p) d := by
  unfold Condition.afterNots
  by_cases heven : n % 2 = 0
  · simp only [if_pos heven]
    exact ⟨p, h, fun _ => rfl⟩
  · simp only [if_neg heven]
    exact exists_bindCondition_negated hinvertible hfield h c table

/-- Criteria of one condition are bound like it. -/
theorem on_keyedPredicate_of_sole {t : Statement}
    (hcriteria : t.criteria = criteria [[.condition k]])
    (h : (bindCondition k).on cursor = (.ok p, after)) :
    (keyedPredicate c t).on cursor = (.ok (resolveKey c t.table true p), after) := by
  have hbind : bindCriteria t.criteria = bindCondition k := by
    rw [hcriteria]
    rfl
  rw [on_keyedPredicate, hbind, h]
  rfl

end

/-! ## How a negation is written -/

namespace Sql.Grammar

variable {ts us : List Token} {k : Sql.Condition} {n : Nat}

/-- A condition with `NOT` this many times, in front or before `IN`, and any parentheses around it. -/
inductive Negation : Sql.Condition → Nat → List Token → Prop
  | bare {ts : List Token} {k : Sql.Condition} : Condition ts k → Negation k 0 ts
  | notIn {ts us : List Token} {left : String} {items : List String} : Operand ts left →
      Listed Operand us items →
        Negation { left, operator := "IN", right := String.intercalate ", " items } 1
          (ts ++ .keyword .NOT :: .keyword .IN :: .mark .leftParen :: us ++ [.mark .rightParen])
  | inFront {us : List Token} {k : Sql.Condition} {n : Nat} : Negation k n us →
      Negation k (n + 1) (.keyword .NOT :: us)
  | enclosed {us : List Token} {k : Sql.Condition} {n : Nat} : Negation k n us →
      Negation k n (.mark .leftParen :: us ++ [.mark .rightParen])

/-- However a negation is written, it is a condition with the flag turned as often. -/
theorem unary_of_negation (h : Negation k n us) : Unary us (.condition (k.afterNots n)) := by
  induction h with
  | bare hcondition => exact .condition hcondition
  | notIn hleft hitems => exact .condition (.notIn hleft hitems)
  | @inFront us k n _ ih =>
    rw [Sql.Condition.afterNots_succ]
    exact .negated ih
  | enclosed _ ih => exact .group (.one (.one ih))

/-- A statement without criteria, whose criteria are written after it. -/
structure TakesCriteria (before : List Token) (t : Statement) : Prop where
  body : Body before t
  kind : t.kind ≠ .insert
  criteria : t.criteria = {}

end Sql.Grammar

/-- A statement whose criteria are a negation is read with this condition for its only criterion. -/
theorem parse_of_negation {before us ending : List Token} {t : Statement} {k : Sql.Condition} {n : Nat}
    {sql : String} (ht : TakesCriteria before t) (hus : Negation k n us) (hend : Ending ending)
    (hlex : lex sql.toList = .ok (before ++ .keyword .WHERE :: us ++ ending)) :
    Statement.parse sql = .ok (withPlaceholders
      { t with criteria := criteria [[.condition (k.afterNots n)]] }
      ((before ++ .keyword .WHERE :: us ++ ending).count (.mark .placeholder))) := by
  have hbody := body_of_criteria_eq ht.body ht.kind ht.criteria
    (.present (.one (.one (unary_of_negation hus))))
  rw [Statement.parse, hlex]
  exact ofTokens_of_derives (.mk hbody hend)

/-- Where a condition with `=` or `IN` is bound, with `NOT` before it any number of times, in any of the
ways to write that, the statement is read and bound with the same operands. It selects what the condition
selects if the number is even; if it is odd, it selects all other documents of the table. -/
theorem negation_selects_the_rest {before ending : List Token} {t : Statement} {k : Sql.Condition}
    (ht : TakesCriteria before t) (hend : Ending ending) (hinvertible : k.Invertible)
    (hfield : k.OnField) (c : Config) {cursor after : Cursor} {p : Predicate}
    (hbinds : (bindCondition k).on cursor = (.ok p, after)) :
    ∃ test : Document → Bool, ∀ n us sql, Negation k n us →
      lex sql.toList = .ok (before ++ .keyword .WHERE :: us ++ ending) →
      ∃ u q, Statement.parse sql = .ok u ∧ u.kind = t.kind ∧ u.table = t.table ∧
        u.columns = t.columns ∧ (keyedPredicate c u).on cursor = (.ok q, after) ∧
        (∀ d, q.holds d = if n % 2 = 0 then test d else !test d) ∧
        ∀ ps, cursor = { parameters := ps } → ∀ s : Store,
          Selects c t.table u.criteria ps s fun d => if n % 2 = 0 then test d else !test d := by
  refine ⟨Predicate.holds (resolveKey c t.table true p), fun n us sql hus hlex => ?_⟩
  obtain ⟨q, hq, hanswers⟩ := exists_bindCondition_afterNots hinvertible hfield hbinds c t.table n
  refine ⟨_, _, parse_of_negation ht hus hend hlex, rfl, rfl, rfl, on_keyedPredicate_of_sole rfl hq,
    hanswers, ?_⟩
  rintro ps rfl s
  have hbound : ((bindCriteria (criteria [[.condition (k.afterNots n)]])).on { parameters := ps }).1 =
      .ok q := congrArg Prod.fst hq
  exact selects_of_bound rfl hbound fun d _ => hanswers d

/-- The criteria that the name does not equal a parameter. -/
def notNameText : String := "NOT (" ++ askText "name" ++ ")"

/-- `NOT (name = ?)`, with the name quoted. -/
def notNameTokens : List Token :=
  .keyword .NOT :: (.mark .leftParen :: equalsTokens "name" ++ [.mark .rightParen])

theorem invertible_equalCondition (column operand : String) :
    (equalCondition column operand).Invertible := by
  refine .inl ?_
  show Operator.parse Operator.equal.text = .ok .equal
  rw [Operator.parse, Operator.ofText?_text]

theorem negation_notNameTokens : Negation (equalCondition "name" "?") 1 notNameTokens :=
  .inFront (.enclosed (.bare (.comparison (.name (name_identifier "name")) (by decide) .placeholder)))

theorem lex_notNameText :
    lex ("SELECT * FROM " ++ rowsText "users" notNameText).toList =
      .ok ([.keyword .SELECT, .mark .star, .keyword .FROM, .identifier "users"] ++
        .keyword .WHERE :: notNameTokens ++ []) := by
  have htext : notNameText.toList =
      "NOT".toList ++ ' ' :: ('(' :: ((askText "name").toList ++ [')'])) := by
    simp [notNameText]
  have hspells : Spells notNameText.toList notNameTokens := by
    rw [htext]
    refine Spells.spacedKeyword (Spells.mark ?_ (by decide)) (by simp [Keyword.table])
    exact (spells_askText "name").append (spells_nil.mark (by decide)) (setOff_cons (by decide) _)
  rw [lex_selectFrom, lex_of_spells (spells_rowsText hspells "users")]
  rfl

/-- Where the name is not Ada's, the users are selected whom the condition on the name leaves out. -/
theorem negation_selects_the_rest_twoUsers :
    TakesCriteria [.keyword .SELECT, .mark .star, .keyword .FROM, .identifier "users"] readUsers ∧
      Ending [] ∧ (equalCondition "name" "?").Invertible ∧ (equalCondition "name" "?").OnField ∧
      (∃ p after, (bindCondition (equalCondition "name" "?")).on { parameters := [.str "Ada"] } =
        (.ok p, after)) ∧
      Negation (equalCondition "name" "?") 1 notNameTokens ∧
      ∃ (u : Statement) (test : Document → Bool),
        Statement.parse ("SELECT * FROM " ++ rowsText "users" notNameText) = .ok u ∧
        Selects localClient.config "users" u.criteria [.str "Ada"] twoUsers (fun d => !test d) := by
  have ht : TakesCriteria [.keyword .SELECT, .mark .star, .keyword .FROM, .identifier "users"]
      readUsers := ⟨.selectAll "users" .absent, by decide, rfl⟩
  have hinvertible := invertible_equalCondition "name" "?"
  have hfield : (equalCondition "name" "?").OnField := by decide +kernel
  obtain ⟨p, after, hbinds⟩ : ∃ p after,
      (bindCondition (equalCondition "name" "?")).on { parameters := [.str "Ada"] } =
        (.ok p, after) := ⟨_, _, rfl⟩
  obtain ⟨test, htest⟩ :=
    negation_selects_the_rest ht .bare hinvertible hfield localClient.config hbinds
  obtain ⟨u, q, hparse, -, -, -, -, -, hselects⟩ := htest 1 _ _ negation_notNameTokens lex_notNameText
  exact ⟨ht, .bare, hinvertible, hfield, ⟨p, after, hbinds⟩, negation_notNameTokens, u, test, hparse,
    hselects _ rfl twoUsers⟩

end Schemaless
