import Schemaless.Proofs.Binding.Layout
import Schemaless.Proofs.Client.Literals

/-!
# Text templates

A text literal with one `?` in it is a template, and a text parameter fills it. Until it does, the
template is read from its quotes, written back between quotes as an operand and read from these once
more, but the parameter comes in only after that and stays as it is (`yields_operand`). So a statement
with a template in the place of a value goes the way of the statement with a placeholder there and the
filled template for its parameter (`template_for_parameter`).
-/

namespace Schemaless

open Sql Grammar

open Binding (Yields yields_next yields_pure yields_parameter)

variable {pre post : List Char} {f : String → Statement} {x y : String}

/-! ## Templates -/

/-- A text with a place for a parameter between `head` and `tail`. -/
structure Template where
  head : String
  tail : String
  head_unmarked : '?' ∉ head.toList
  tail_unmarked : '?' ∉ tail.toList

namespace Template

variable (t : Template)

/-- The text with a placeholder in it. -/
def text : String := t.head ++ "?" ++ t.tail

/-- The text with a parameter in it. -/
def fill (p : String) : String := t.head ++ p ++ t.tail

/-- How a statement has the template: between single quotes, each single quote and each backslash in
it doubled. -/
def literal : List Char := Delimiter.single.quote t.text.toList

/-- The operand that the literal is written back as. -/
def operand : String := quotedText t.text

theorem toList_text : t.text.toList = t.head.toList ++ placeholder :: t.tail.toList := by
  simp [text, placeholder]

theorem placeholderCount_operand : placeholderCount t.operand = 1 := by
  have hhead : t.head.toList.count placeholder = 0 := List.count_eq_zero.2 t.head_unmarked
  have htail : t.tail.toList.count placeholder = 0 := List.count_eq_zero.2 t.tail_unmarked
  rw [operand, placeholderCount_quotedText, placeholderCount, toList_text, List.count_append,
    List.count_cons_self, hhead, htail]

theorem template_operand : template t.operand = t.text.toList := by
  rw [operand, ← singleQuoted_eq, template, trimmed_singleQuoted, Text.unquoted_singleQuoted]
  rfl

end Template

/-- A text is put in the place of the placeholder, and whatever it has in it is left alone. -/
theorem substituted_of_not_mem {a : List Char} (ha : placeholder ∉ a) (inserted b : List Char) :
    substituted inserted (a ++ placeholder :: b) = a ++ inserted ++ b := by
  induction a with
  | nil => exact if_pos rfl
  | cons c a ih =>
    obtain ⟨hc, ha⟩ : placeholder ≠ c ∧ placeholder ∉ a := by simpa using ha
    rw [List.cons_append, substituted, if_neg hc.symm, ih ha]
    rfl

namespace Template

variable {t : Template}

theorem filled_operand (p : String) : filled t.operand (.str p) = .str (t.fill p) := by
  have htext : String.ofList (t.head.toList ++ p.toList ++ t.tail.toList) = t.fill p := by
    simp [fill, String.append_assoc]
  rw [filled, template_operand, toList_text, substituted_of_not_mem t.head_unmarked, htext]

theorem yields_operand (membership : Bool) (p : String) :
    Yields (bindExpression membership t.operand) [.str p] (.str (t.fill p)) := by
  have hbind : Yields (Binding.next >>= fun v => pure (filled t.operand v)) [.str p]
      (filled t.operand (.str p)) :=
    (yields_next _).bind (f := fun v => pure (filled t.operand v)) (yields_pure _)
  rw [filled_operand] at hbind
  unfold bindExpression
  rw [placeholderCount_operand]
  exact hbind

end Template

/-! ## Operands with a parameter -/

/-- Assigned to a column or compared with a field, the operand `x` takes the parameter `p` and no other
and has the value `v`. -/
structure Binding.Serves (x : String) (p v : Value) : Prop where
  column (name : String) : Yields (Column.value { name, expression := some x }) [p] v
  condition {left operator : String} {inverse : Bool} {o : Operator} : '?' ∉ left.toList →
    Operator.resolve operator inverse = .ok o →
      Yields (bindCondition { left, operator, right := x, inverse }) [p]
        (Predicate.single (Text.trim left) (o.build v))

theorem serves_of_yields {p v : Value} (h : ∀ membership, Yields (bindExpression membership x) [p] v) :
    Binding.Serves x p v where
  column _ := h false
  condition {left _ _ _} hleft hresolve := by
    have hmark : hasPlaceholder left = false := by
      simpa [hasPlaceholder, placeholder] using hleft
    rw [bindCondition_of_resolve hmark hresolve]
    exact (h _).map _

/-- Operands that have the same value with their parameters are exchanged in the place of a value. -/
theorem on_bindStatement_exchanged {before after : List Token} {ps qs : List Value} {v w u : Value}
    {values : Document × Predicate} {position : Nat} (hopen : OpenBody before after f)
    (hafter : OpensAfter f ps.length) (hx : Yields (bindExpression false x) [v] u)
    (hy : Yields (bindExpression false y) [w] u)
    (hbound : (bindStatement (f x)).on { parameters := ps ++ v :: qs } =
      (.ok values, { parameters := ps ++ v :: qs, position })) :
    (bindStatement (f y)).on { parameters := ps ++ w :: qs } =
      (.ok values, { parameters := ps ++ w :: qs, position }) := by
  have hon : (bindStatement (f x)).on ⟨[] ++ (ps ++ v :: qs), ([] : List Value).length⟩ =
      (.ok values, ⟨[] ++ (ps ++ v :: qs), position⟩) := hbound
  exact (awaits_of_open hopen hafter).on_exchanged rfl hx hy hon

/-! ## The agreement -/

/-- Between `pre` and `post` stands the literal of a template, which ends there and is a whole operand
in the place of a value; `f` is the statement for whatever operand stands there. -/
def Template.Placed (t : Template) (pre post : List Char) (f : String → Statement) : Prop :=
  post.head? ≠ some '\'' ∧ ∃ before after,
    Comes (pre ++ t.literal ++ post) before (t.literal ++ post) ∧ lex post = .ok after ∧
      ValuePlace before after f

namespace Template

variable {t : Template}

theorem skipTrivia_literal (post : List Char) : skipTrivia (t.literal ++ post) = t.literal ++ post :=
  skipTrivia_of_starts Delimiter.single.starts_opening _

theorem comes_literal (post : List Char) : Comes (t.literal ++ post) [] (t.literal ++ post) := by
  have hhere := Comes.here (t.literal ++ post)
  rwa [skipTrivia_literal] at hhere

theorem lex_literal (hpost : post.head? ≠ some '\'') :
    lex (t.literal ++ post) = (lex post).map (.text t.text :: ·) := by
  have hlex := Delimiter.single.lex_quote t.text.toList hpost
  rwa [String.ofList_toList] at hlex

theorem parse_placed (h : t.Placed pre post f) :
    ∃ count, Statement.parse (String.ofList (pre ++ t.literal ++ post)) =
      .ok (withPlaceholders (f t.operand) count) := by
  obtain ⟨hquote, before, after, hcomes, hpost, hvalue⟩ := h
  refine parse_of_place hvalue (.text t.text) ?_
  rw [lex_of_comes hcomes (skipTrivia_literal post), lex_literal hquote, hpost]
  simp [Except.map]

end Template

/-- A template and a text parameter do what a placeholder and the filled template do: they have that
text as their value, they take one parameter, and the statement binds and does the same. -/
theorem template_for_parameter {t : Template} (hplace : t.Placed pre post f) :
    ∃ s, Statement.parse (String.ofList (pre ++ t.literal ++ post)) = .ok s ∧
      (∃ count, s = withPlaceholders (f t.operand) count) ∧ (∃ n, OpensAfter f n) ∧
      ∀ p, Binding.Serves t.operand (.str p) (.str (t.fill p)) ∧
        ∀ ps qs, OpensAfter f ps.length →
          (∀ values position,
            (bindStatement s).on { parameters := ps ++ .str p :: qs } =
                (.ok values, { parameters := ps ++ .str p :: qs, position }) ↔
              (bindStatement (f "?")).on { parameters := ps ++ .str (t.fill p) :: qs } =
                (.ok values, { parameters := ps ++ .str (t.fill p) :: qs, position })) ∧
          ∀ values, ((bindStatement s).on { parameters := ps ++ .str p :: qs }).1 = .ok values →
            ∀ c store,
              (modify c s (ps ++ .str p :: qs)).on store =
                (modify c (f "?") (ps ++ .str (t.fill p) :: qs)).on store ∧
              select c s (ps ++ .str p :: qs) store =
                select c (f "?") (ps ++ .str (t.fill p) :: qs) store := by
  obtain ⟨count, hparse⟩ := Template.parse_placed hplace
  obtain ⟨-, before, after, -, -, hvalue⟩ := hplace
  obtain ⟨tokens, hopen⟩ : ∃ tokens, OpenBody before tokens f := by
    obtain ⟨hopen, -⟩ := hvalue
    exact ⟨_, hopen⟩
  refine ⟨_, hparse, ⟨count, rfl⟩, exists_opensAfter hopen, fun p =>
    ⟨serves_of_yields (Template.yields_operand · p), fun ps qs hafter => ?_⟩⟩
  have hiff (values : Document × Predicate) (position : Nat) :
      (bindStatement (f t.operand)).on { parameters := ps ++ .str p :: qs } =
          (.ok values, { parameters := ps ++ .str p :: qs, position }) ↔
        (bindStatement (f "?")).on { parameters := ps ++ .str (t.fill p) :: qs } =
          (.ok values, { parameters := ps ++ .str (t.fill p) :: qs, position }) := by
    have htemplate := Template.yields_operand (t := t) false p
    have hparameter := yields_parameter false (.str (t.fill p))
    exact ⟨on_bindStatement_exchanged hopen hafter htemplate hparameter,
      on_bindStatement_exchanged hopen hafter hparameter htemplate⟩
  refine ⟨hiff, fun values hbound c store => ?_⟩
  have hon := (spends_bindStatement (f t.operand)).takes.on_of_ok hbound
  have hsame : ((bindStatement (f t.operand)).on { parameters := ps ++ .str p :: qs }).1 =
      ((bindStatement (f "?")).on { parameters := ps ++ .str (t.fill p) :: qs }).1 := by
    rw [hon, (hiff values _).1 hon]
  have hformed := formed_of_open hopen (.text t.text) count
  have hformed' := formed_of_open hopen .placeholder (f "?").placeholders
  have halike := alike_of_open hopen "?" t.operand (f "?").placeholders count
  exact ⟨on_modify_congr hformed' hformed halike hsame store,
    select_congr hformed' hformed halike hsame store⟩

/-- A greeting with quotes around the name and with a backslash. -/
def greeting : Template where
  head := "Dear 'Ms "
  tail := "' \\o/"
  head_unmarked := by decide
  tail_unmarked := by decide

/-- `UPDATE users SET name = ` up to the name. -/
def setNamePrefix : List Char := "UPDATE users SET name = ".toList

/-- The statement that gives every user a name. -/
def setName (name : String) : Statement :=
  { kind := .update, table := "users", columns := [{ name := "name", expression := name }] }

theorem placed_greeting : greeting.Placed setNamePrefix [] setName := by
  have htext : setNamePrefix = "UPDATE".toList ++ (' ' :: ("users".toList ++ (' ' ::
      ("SET".toList ++ (' ' :: ("name".toList ++ (' ' :: '=' :: [' ']))))))) := by decide
  have hcomes : Comes (setNamePrefix ++ greeting.literal ++ [])
      (["UPDATE", "users", "SET", "name"].map wordToken ++ [.mark .equal]) (greeting.literal ++ []) := by
    rw [htext]
    simp only [List.append_assoc, List.cons_append]
    refine .spacedWord (by decide) (.spacedWord (by decide) ?_)
    refine .spacedWord (by decide) (.spacedWord (by decide) ?_)
    exact .mark (by decide) (.blank (by decide) (Template.comes_literal []))
  have hwords : ["UPDATE", "users", "SET", "name"].map wordToken =
      [.keyword .UPDATE, .identifier "users", .keyword .SET, .identifier "name"] := by decide +kernel
  rw [hwords] at hcomes
  have hopen := OpenBody.assigned "users" (name_identifier "name") ⟨.nil, .nil⟩ .absent
  have hnil : lex [] = .ok [] := lex_of_skipTrivia_eq_nil skipTrivia_nil
  exact ⟨nofun, _, _, hcomes, hnil, .mk hopen .bare⟩

theorem template_for_parameter_greeting :
    greeting.Placed setNamePrefix [] setName ∧ OpensAfter setName ([] : List Value).length ∧
      ∃ s values, Statement.parse (String.ofList (setNamePrefix ++ greeting.literal ++ [])) = .ok s ∧
        ((bindStatement s).on { parameters := [.str "O'Brien, \\?"] }).1 = .ok values ∧
        values.1.get? "name" = some (.str "Dear 'Ms O'Brien, \\?' \\o/") ∧
        (modify localClient.config s [.str "O'Brien, \\?"]).on twoUsers =
          (modify localClient.config (setName "?") [.str "Dear 'Ms O'Brien, \\?' \\o/"]).on twoUsers := by
  have hafter : OpensAfter setName ([] : List Value).length := ⟨[], [], fun _ => rfl, rfl⟩
  obtain ⟨s, hparse, -, -, hfill⟩ := template_for_parameter placed_greeting
  obtain ⟨-, hagree⟩ := hfill "O'Brien, \\?"
  obtain ⟨hiff, hrun⟩ := hagree [] [] hafter
  have hfilled : greeting.fill "O'Brien, \\?" = "Dear 'Ms O'Brien, \\?' \\o/" := by decide
  rw [hfilled] at hiff hrun
  obtain ⟨values, hbound, hname⟩ : ∃ values,
      (bindStatement (setName "?")).on { parameters := [.str "Dear 'Ms O'Brien, \\?' \\o/"] } =
        (.ok values, { parameters := [.str "Dear 'Ms O'Brien, \\?' \\o/"], position := 1 }) ∧
      values.1.get? "name" = some (.str "Dear 'Ms O'Brien, \\?' \\o/") := ⟨_, rfl, rfl⟩
  have hvalues := congrArg Prod.fst ((hiff values 1).2 hbound)
  exact ⟨placed_greeting, hafter, s, values, hparse, hvalues, hname,
    (hrun values hvalues localClient.config twoUsers).1⟩

end Schemaless
