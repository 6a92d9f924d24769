import Schemaless.Proofs.Binding.Meaning
import Schemaless.Proofs.Binding.Parameters
import Schemaless.Proofs.Sql.Parsing
import Schemaless.Proofs.Sql.Place
import Schemaless.Proofs.Store.Update

/-!
# The operands of a statement

A statement binds its operands in a row, those of its columns first and then those of its conditions
(`Statement.operands`), and each takes as many parameters as it has placeholders. Where one operand is
left open, `Awaits n` says that the binding first takes `n` parameters, then binds the open operand,
and that what comes after depends on its value only (`Awaits.reached`). So a parameter in the open place
may be replaced by anything that has its value (`Awaits.on_replaced`), and an operand with its parameter
by another (`Awaits.on_exchanged`).
-/

namespace Schemaless

open Sql

/-! ## Bindings that await an operand -/

namespace Binding

variable {α β : Type} {n k : Nat} {B : String → Binding α}

/-- First takes `n` parameters, then binds an operand, which goes on with the value only. -/
inductive Awaits {α : Type} : Nat → (String → Binding α) → Prop
  | here {k : Nat} {next : Value → Binding α} : (∀ v, Takes (next v) k) →
      Awaits 0 (fun x => bindExpression false x >>= next)
  | after {β : Type} {n k : Nat} {m : Binding β} {B : β → String → Binding α} : Takes m n →
      (∀ b, Awaits k (B b)) → Awaits (n + k) (fun x => m >>= fun b => B b x)

theorem Awaits.bind {g : α → Binding β} (h : Awaits n B) (hg : ∀ a, Takes (g a) k) :
    Awaits n (fun x => B x >>= g) := by
  induction h with
  | here hnext =>
    simp only [bind_assoc]
    exact .here fun v => (hnext v).bind hg
  | after hm _ ih =>
    simp only [bind_assoc]
    exact .after hm ih

theorem Awaits.map (h : Awaits n B) (g : α → β) : Awaits n (fun x => g <$> B x) := by
  simp only [map_eq_pure_bind]
  exact h.bind fun a => takes_pure (g a)

/-- Where the binding succeeds, the operand in the open place is reached behind the parameters that come
first, whatever operand it is; what comes after goes on with its value. -/
theorem Awaits.reached {ps us rest before : List Value} {u : Value} {a : α} {cursor : Cursor} {x : String}
    (h : Awaits n B) (hps : ps.length = n) (hx : Yields (bindExpression false x) us u)
    (hon : (B x).on ⟨before ++ (ps ++ (us ++ rest)), before.length⟩ = (.ok a, cursor)) :
    ∃ next vs after, rest = vs ++ after ∧ Yields (next u) vs a ∧
      cursor.position = before.length + ps.length + us.length + vs.length ∧
      ∀ y qs, (B y).on ⟨before ++ (ps ++ qs), before.length⟩ =
        (bindExpression false y >>= next).on ⟨before ++ ps ++ qs, (before ++ ps).length⟩ := by
  induction h generalizing ps before with
  | @here k next hnext =>
    obtain rfl := List.length_eq_zero_iff.1 hps
    obtain ⟨w, middle, hfirst, hrest⟩ := Effect.bind_eq_ok.1 hon
    have hoperand : (bindExpression false x).on ⟨before ++ (us ++ rest), before.length⟩ = _ := hfirst
    rw [hx before rest] at hoperand
    cases hoperand
    rw [← List.append_assoc, ← List.length_append] at hrest
    obtain ⟨vs, after, rfl, -, hyields⟩ := hnext u (before ++ us) rest a cursor hrest
    rw [hyields] at hrest
    cases hrest
    exact ⟨next, vs, after, rfl, hyields, by simp, fun y qs => by simp⟩
  | @after γ n k m B hm _ ih =>
    obtain ⟨b, middle, hfirst, hrest⟩ := Effect.bind_eq_ok.1 hon
    obtain ⟨first, after, hsplit, hlength, hyields⟩ := hm before _ b middle hfirst
    -- the parameters that are taken first are the first of those in front of the open place
    have hle : first.length ≤ ps.length := by omega
    have hall : first <+: ps ++ (us ++ rest) := ⟨after, hsplit.symm⟩
    obtain ⟨ps, rfl⟩ := List.prefix_of_prefix_length_le hall (List.prefix_append _ _) hle
    have hstep (qs : List Value) := hyields before (ps ++ qs)
    rw [List.append_assoc, hstep] at hfirst
    cases hfirst
    rw [← List.append_assoc, ← List.length_append] at hrest
    obtain ⟨next, vs, after, hrest, hnext, hposition, hreach⟩ :=
      ih b (by rw [List.length_append] at hps; omega) hrest
    refine ⟨next, vs, after, hrest, hnext, ?_, fun y qs => ?_⟩
    · rw [hposition]
      simp only [List.length_append]
      omega
    · have hwhole := hreach y qs
      rw [List.append_assoc, List.length_append] at hwhole
      rw [← List.append_assoc before first ps, Effect.on_bind, List.append_assoc first, hstep]
      exact hwhole

/-- What succeeds with the parameter `v` in the open place goes the same way with another operand there
that has the value `v`, and fails with an operand that has no value. -/
theorem Awaits.on_replaced {ps qs before : List Value} {v : Value} {a : α} {cursor : Cursor}
    {text : String} {r : Except Failure Value} (h : Awaits n B) (hps : ps.length = n)
    (hon : (B "?").on ⟨before ++ (ps ++ v :: qs), before.length⟩ = (.ok a, cursor))
    (htext : bindExpression false text = Effect.ofExcept r) (hr : ∀ w, r = .ok w → w = v) :
    ((B text).on ⟨before ++ (ps ++ qs), before.length⟩).1 = r.map fun _ => a := by
  obtain ⟨next, vs, after, rfl, hyields, -, hreach⟩ := h.reached hps (yields_parameter false v) hon
  rw [hreach, Effect.on_bind, htext]
  cases r with
  | error e => rfl
  | ok w =>
    obtain rfl := hr w rfl
    exact congrArg Prod.fst (hyields (before ++ ps) after)

/-- What succeeds with one operand in the open place and its parameter goes the same way with another,
if the two have the same value with their parameters. -/
theorem Awaits.on_exchanged {ps qs before : List Value} {v w u : Value} {a : α} {position : Nat}
    {x y : String} (h : Awaits n B) (hps : ps.length = n)
    (hx : Yields (bindExpression false x) [v] u) (hy : Yields (bindExpression false y) [w] u)
    (hon : (B x).on ⟨before ++ (ps ++ v :: qs), before.length⟩ =
      (.ok a, ⟨before ++ (ps ++ v :: qs), position⟩)) :
    (B y).on ⟨before ++ (ps ++ w :: qs), before.length⟩ =
      (.ok a, ⟨before ++ (ps ++ w :: qs), position⟩) := by
  obtain ⟨next, vs, after, rfl, hyields, hposition, hreach⟩ := h.reached hps hx hon
  obtain rfl : position = _ := hposition
  have hwhole := hy.bind hyields (before ++ ps) after
  rw [hreach]
  simpa [Nat.add_assoc, Nat.add_comm 1] using hwhole

/-- The parameters that operands take. -/
def placeholders : List String → Nat
  | [] => 0
  | text :: operands => placeholderCount text + placeholders operands

theorem placeholders_append (operands more : List String) :
    placeholders (operands ++ more) = placeholders operands + placeholders more := by
  induction operands with
  | nil => simp [placeholders]
  | cons text operands ih =>
    rw [List.cons_append, placeholders, placeholders, ih, Nat.add_assoc]

end Binding

/-! ## The operands of criteria -/

open Binding (Takes Awaits Spends placeholders takes_pure takes_ofExcept spends_pure
  spends_bindExpression)

/-- The operands of the conditions in a criteria tree that have values. -/
def Sql.Criterion.operands (c : Criterion) : List String := c.conditions.map fun k => k.expression

def itemOperands (items : List Criterion) : List String :=
  (itemConditions items).map fun k => k.expression

theorem itemOperands_cons (c : Criterion) (items : List Criterion) :
    itemOperands (c :: items) = c.operands ++ itemOperands items := by
  simp [itemOperands, Criterion.operands, itemConditions]

theorem itemOperands_singleton (c : Criterion) : itemOperands [c] = c.operands := by
  rw [itemOperands_cons]
  exact List.append_nil _

theorem itemOperands_append (items more : List Criterion) :
    itemOperands (items ++ more) = itemOperands items ++ itemOperands more := by
  induction items with
  | nil => rfl
  | cons c items ih => rw [List.cons_append, itemOperands_cons, itemOperands_cons, ih, List.append_assoc]

theorem bindItems_append (items more : List Criterion) :
    bindItems (items ++ more) =
      bindItems items >>= fun ps => bindItems more >>= fun qs => pure (ps ++ qs) := by
  induction items with
  | nil => simp [bindItems]
  | cons c items ih => simp [bindItems, ih]

/-- A group of several items joins their predicates. -/
theorem bindGroup_of_two (logical : Option String) (first second : Criterion)
    (rest : List Criterion) :
    bindGroup logical (first :: second :: rest) =
      (fun ps => Predicate.single (connective logical) (.arr ps)) <$>
        bindItems (first :: second :: rest) := by
  simp only [bindGroup, bindItems, map_eq_pure_bind, bind_assoc, pure_bind]

theorem resolve_ne_binding (text : String) (inverted : Bool) (i k : Nat) :
    Operator.resolve text inverted ≠ .error (.binding i k) := by
  unfold Operator.resolve Operator.parse
  cases Operator.ofText? text.toList with
  | none => nofun
  | some o => cases inverted <;> cases o <;> nofun

theorem spends_bindCondition (c : Condition) :
    Spends (bindCondition c) (placeholderCount c.expression) := by
  have hrest (o : Operator) : Spends (bindExpression o.isMembership c.expression >>= fun v =>
      pure (Predicate.single c.field (o.build v))) (placeholderCount c.expression + 0) :=
    (spends_bindExpression o.isMembership c.expression).bind fun _ => spends_pure _
  have hall := (Spends.ofExcept (resolve_ne_binding c.operator c.inverse)).bind hrest
  rwa [Nat.zero_add, Nat.add_zero] at hall

mutual

theorem spends_bindCriterion : (c : Criterion) →
    Spends (bindCriterion c) (placeholders c.operands)
  | .condition c => spends_bindCondition c
  | .group logical [] => spends_pure _
  | .group logical [single] => by
    have hsingle := spends_bindCriterion single
    rwa [← itemOperands_singleton single] at hsingle
  | .group logical (first :: second :: rest) => by
    rw [bindCriterion, bindGroup_of_two]
    exact (spends_bindItems (first :: second :: rest)).map _

theorem spends_bindItems : (items : List Criterion) →
    Spends (bindItems items) (placeholders (itemOperands items))
  | [] => spends_pure []
  | first :: rest => by
    rw [itemOperands_cons, Binding.placeholders_append, bindItems]
    exact (spends_bindCriterion first).bind fun p =>
      (spends_bindItems rest).bind fun ps => spends_pure (.obj p.entries :: ps)

end

/-! ## One operand open -/

/-- Of the operands of `f` one is open, the others stand in front of it or behind, and the binding awaits
it after the parameters of those in front. -/
def Opens {α β : Type} (operands : α → List String) (bind : α → Binding β) (f : String → α) : Prop :=
  ∃ taken later, (∀ x, operands (f x) = taken ++ x :: later) ∧
    Awaits (placeholders taken) (fun x => bind (f x))

theorem isMembership_of_comparison {m : Mark} {operator : String} {inverse : Bool} {o : Operator}
    (hm : (m, operator) ∈ Grammar.comparisons) (h : Operator.resolve operator inverse = .ok o) :
    o.isMembership = false := by
  have hall : ∀ p ∈ Grammar.comparisons, ∀ inverse,
      (Operator.resolve p.2 inverse).toOption.all (fun o => !o.isMembership) = true := by
    decide
  have hone := hall (m, operator) hm inverse
  rw [h] at hone
  simpa [Except.toOption] using hone

/-- The right side of a comparison, where no placeholder on the left side makes it the field. -/
theorem opens_comparison {left operator : String} {m : Mark} (hleft : '?' ∉ left.toList)
    (hm : (m, operator) ∈ Grammar.comparisons) (inverse : Bool) :
    Opens Criterion.operands bindCriterion
      (fun x => .condition { left, operator, right := x, inverse }) := by
  have hswapped (x : String) :
      Condition.isSwapped { left, operator, right := x, inverse } = false := by
    simpa [Condition.isSwapped, hasPlaceholder, placeholder] using hleft
  have hexpression (x : String) :
      Condition.expression { left, operator, right := x, inverse } = x := by
    rw [Condition.expression, hswapped]
    rfl
  have hfield (x : String) :
      Condition.field { left, operator, right := x, inverse } = Text.trim left := by
    rw [Condition.field, hswapped]
    rfl
  refine ⟨[], [], fun x => congrArg (fun e => [e]) (hexpression x), ?_⟩
  have hnext (o : Operator) (v : Value) :
      Takes (pure (Predicate.single (Text.trim left) (o.build v))) 0 := takes_pure _
  simp only [bindCriterion, bindCondition, hexpression, hfield]
  cases hresolve : Operator.resolve operator inverse with
  | ok o =>
    simp only [Effect.ofExcept_ok, pure_bind, isMembership_of_comparison hm hresolve]
    exact .here (hnext o)
  | error e =>
    -- the operator cannot be inverted: the operand is never bound, whatever it is
    have hfails : Awaits (0 + 0) (fun x => (Effect.ofExcept (.error e) : Binding Operator) >>=
        fun _ => bindExpression false x >>= fun v =>
          pure (Predicate.single (Text.trim left) (Operator.equal.build v))) :=
      .after (takes_ofExcept _) fun _ => .here (hnext .equal)
    exact hfails

theorem operands_nested (connective : String) (links : List Criterion) :
    (Grammar.nested connective links).operands = itemOperands links := by
  match links with
  | [] => rfl
  | [c] => exact (itemOperands_singleton c).symm
  | _ :: _ :: _ => rfl

theorem bindCriterion_nested (connective : String) (links : List Criterion) :
    bindCriterion (Grammar.nested connective links) = bindGroup (some connective) links := by
  match links with
  | [] => rfl
  | [_] => rfl
  | _ :: _ :: _ => rfl

theorem awaits_bindGroup {logical : Option String} {left right : List Criterion} {n : Nat}
    {f : String → Criterion} (h : Awaits n (fun x => bindCriterion (f x))) :
    Awaits (placeholders (itemOperands left) + n)
      (fun x => bindGroup logical (left ++ f x :: right)) := by
  have hlink : Awaits n (fun x => bindItems (f x :: right)) := by
    simp only [bindItems]
    exact h.bind fun p =>
      (spends_bindItems right).takes.bind fun ps => takes_pure (.obj p.entries :: ps)
  have hitems : Awaits (placeholders (itemOperands left) + n)
      (fun x => bindItems (left ++ f x :: right)) := by
    simp only [bindItems_append]
    exact .after (spends_bindItems left).takes fun ps => hlink.bind fun qs => takes_pure (ps ++ qs)
  have hjoined := hitems.map fun ps => Predicate.single (connective logical) (.arr ps)
  match left, right with
  | [], [] =>
    show Awaits (0 + n) (fun x => bindCriterion (f x))
    rwa [Nat.zero_add]
  | [], second :: right => simpa only [List.nil_append, bindGroup_of_two] using hjoined
  | [first], right => simpa only [List.cons_append, List.nil_append, bindGroup_of_two] using hjoined
  | first :: second :: left, right => simpa only [List.cons_append, bindGroup_of_two] using hjoined

theorem Opens.nested {f : String → Criterion} (h : Opens Criterion.operands bindCriterion f)
    (connective : String) (left right : List Criterion) :
    Opens Criterion.operands bindCriterion
      (fun x => Grammar.nested connective (left ++ f x :: right)) := by
  obtain ⟨taken, later, hoperands, hawaits⟩ := h
  refine ⟨itemOperands left ++ taken, later ++ itemOperands right, fun x => ?_, ?_⟩
  · rw [operands_nested, itemOperands_append, itemOperands_cons, hoperands]
    simp
  · simp only [bindCriterion_nested, Binding.placeholders_append]
    exact awaits_bindGroup hawaits

section

open Grammar

theorem nested_eq_condition {connective : String} {links : List Criterion} {c : Condition}
    (h : nested connective links = .condition c) : links = [.condition c] := by
  match links, h with
  | [_], rfl => rfl

theorem append_cons_eq_singleton {α : Type} {left right : List α} {a b : α}
    (h : left ++ a :: right = [b]) : left = [] ∧ a = b ∧ right = [] := by
  cases left with
  | nil => simpa using h
  | cons c left => simp at h

/-- A condition whose right side is open keeps its left side and its operator; parentheses and `NOT`
change its inverse flag at most. -/
theorem condition_of_open {before after : List Token} {c : String → Condition}
    {f : String → Criterion} :
    OpenUnary before after f → (∀ x, f x = .condition (c x)) →
      ∃ left operator m inverse, '?' ∉ left.toList ∧ (m, operator) ∈ comparisons ∧
        ∀ x, c x = { left, operator, right := x, inverse }
  | @OpenUnary.comparison _ left operator m _ hmark hm, hc =>
    ⟨left, operator, m, false, hmark, hm, fun x => (Criterion.condition.inj (hc x)).symm⟩
  | .negated h, hc => by
    obtain ⟨left, operator, m, inverse, hmark, hm, hshape⟩ := condition_of_open h fun _ => rfl
    refine ⟨left, operator, m, !inverse, hmark, hm, fun x => ?_⟩
    rw [← Criterion.condition.inj (hc x), hshape]
  | .group (.mk h _ _), hc => by
    refine condition_of_open h fun x => ?_
    have hdisjunction := nested_eq_condition (hc x)
    rw [List.map_append, List.map_cons] at hdisjunction
    have hconjunction := nested_eq_condition (append_cons_eq_singleton hdisjunction).2.1
    exact (append_cons_eq_singleton hconjunction).2.1

theorem opens_unary {before after : List Token} {f : String → Criterion} :
    OpenUnary before after f → Opens Criterion.operands bindCriterion f
  | .comparison _ hmark hm => opens_comparison hmark hm false
  | .negated h => by
    obtain ⟨left, operator, m, inverse, hmark, hm, hshape⟩ := condition_of_open h fun _ => rfl
    simp only [hshape]
    exact opens_comparison hmark hm (!inverse)
  | .group (.mk h _ _) => by
    simp only [List.map_append, List.map_cons]
    exact ((opens_unary h).nested "AND" _ _).nested "OR" _ _

theorem operands_toCriterion (c : Criteria) : c.toCriterion.operands = itemOperands c.items := by
  unfold Criteria.toCriterion
  split
  · next h => rw [h, itemOperands_singleton]
  · rfl

theorem bindCriterion_toCriterion (c : Criteria) : bindCriterion c.toCriterion = bindCriteria c := by
  unfold Criteria.toCriterion bindCriteria
  split
  · next h => rw [h, bindGroup]
  · rfl

theorem opens_disjunction {before after : List Token} {g : String → List (List Criterion)}
    (h : OpenDisjunction OpenUnary before after g) :
    Opens (fun c => itemOperands c.items) bindCriteria (fun x => criteria (g x)) := by
  obtain ⟨h, -, -⟩ := h
  simp only [Opens, ← operands_toCriterion, ← bindCriterion_toCriterion, toCriterion_criteria,
    List.map_append, List.map_cons]
  exact ((opens_unary h).nested "AND" _ _).nested "OR" _ _

end

/-! ## Statements -/

/-- The record of a statement and the predicate of its criteria, with the keys as the statement names
them. -/
def bindStatement (s : Statement) : Binding (Document × Predicate) := do
  let record ← bindRecord s
  let p ← bindCriteria s.criteria
  pure (record, p)

/-- The operands of a statement in the order in which they are bound. -/
def Sql.Statement.operands (s : Statement) : List String :=
  s.columns.filterMap (fun c => c.expression) ++ s.criteria.conditions.map fun k => k.expression

theorem spends_value (c : Column) :
    Spends c.value (placeholders c.expression.toList) := by
  cases hc : c.expression with
  | none =>
    have hvalue : c.value = pure .null := by simp only [Column.value, hc]
    rw [hvalue]
    exact spends_pure Value.null
  | some text =>
    have hvalue : c.value = bindExpression false text := by simp only [Column.value, hc]
    rw [hvalue]
    exact spends_bindExpression false text

theorem spends_values (columns : List Column) :
    Spends (columns.mapM Column.value) (placeholders (columns.filterMap fun c => c.expression)) := by
  rw [List.filterMap_eq_flatMap_toList]
  induction columns with
  | nil => exact spends_pure []
  | cons c columns ih =>
    rw [List.mapM_cons, List.flatMap_cons, Binding.placeholders_append]
    exact (spends_value c).bind fun v => ih.bind fun vs => spends_pure (v :: vs)

theorem spends_bindRecord (s : Statement) :
    Spends (bindRecord s) (placeholders (s.columns.filterMap fun c => c.expression)) := by
  rw [bindRecord, bindColumns_eq]
  exact (spends_values s.columns).map _

theorem spends_bindCriteria (c : Criteria) :
    Spends (bindCriteria c) (placeholders (itemOperands c.items)) :=
  spends_bindCriterion (.group c.logical c.items)

/-- A statement takes a parameter for each placeholder in its operands. -/
theorem spends_bindStatement (s : Statement) : Spends (bindStatement s) (placeholders s.operands) := by
  rw [Statement.operands, Binding.placeholders_append]
  exact (spends_bindRecord s).bind fun record =>
    (spends_bindCriteria s.criteria).bind fun p => spends_pure (record, p)

theorem awaits_values (left right : List Column) (name : String) :
    Awaits (placeholders (left.filterMap fun c => c.expression)) (fun x =>
      (left ++ { name, expression := some x } :: right).mapM Column.value) := by
  have hopen : Awaits 0 (fun x =>
      ({ name, expression := some x } :: right).mapM Column.value) := by
    simp only [List.mapM_cons]
    exact .here fun v => (spends_values right).takes.bind fun vs => takes_pure (v :: vs)
  have hall : Awaits (placeholders (left.filterMap fun c => c.expression) + 0) (fun x =>
      (left.mapM Column.value) >>= fun vs =>
        ({ name, expression := some x } :: right).mapM Column.value >>= fun ws => pure (vs ++ ws)) :=
    .after (spends_values left).takes fun vs => hopen.bind fun ws => takes_pure (vs ++ ws)
  simp only [List.mapM_append]
  exact hall

/-- A column whose value is open. -/
theorem opens_column (s : Statement) (left right : List Column) (name : String) :
    Opens Statement.operands bindStatement
      (fun x => { s with columns := left ++ { name, expression := some x } :: right }) := by
  refine ⟨left.filterMap fun c => c.expression,
    right.filterMap (fun c => c.expression) ++ s.criteria.conditions.map fun k => k.expression,
    fun x => ?_, ?_⟩
  · simp [Statement.operands]
  · have hrecord : Awaits (placeholders (left.filterMap fun c => c.expression)) (fun x =>
        bindRecord { s with columns := left ++ { name, expression := some x } :: right }) := by
      simp only [bindRecord, bindColumns_eq, List.map_append, List.map_cons]
      exact (awaits_values left right name).map _
    exact hrecord.bind fun record =>
      (spends_bindCriteria s.criteria).takes.bind fun p => takes_pure (record, p)

/-- Criteria with an open operand. -/
theorem opens_criteria (s : Statement) {g : String → Criteria}
    (h : Opens (fun c => itemOperands c.items) bindCriteria g) :
    Opens Statement.operands bindStatement (fun x => { s with criteria := g x }) := by
  obtain ⟨taken, later, hoperands, hawaits⟩ := h
  refine ⟨(s.columns.filterMap fun c => c.expression) ++ taken, later, fun x => ?_, ?_⟩
  · rw [List.append_assoc, ← hoperands x]
    rfl
  · rw [Binding.placeholders_append]
    exact .after (spends_bindRecord s).takes fun record => hawaits.bind fun p => takes_pure (record, p)

/-- Among the columns of an insertion, the one whose value is open. -/
theorem zip_open {names left right : List String}
    (h : names.length = (left ++ right).length + 1) :
    ∃ (before after : List Column) (name : String), ∀ x,
      ((names.zip (left ++ x :: right)).map fun c => ({ name := c.1, expression := c.2 } : Column)) =
        before ++ { name, expression := some x } :: after := by
  induction left generalizing names with
  | nil =>
    cases names with
    | nil => cases h
    | cons name names => exact ⟨[], _, name, fun _ => rfl⟩
  | cons value left ih =>
    cases names with
    | nil => cases h
    | cons first names =>
      obtain ⟨before, after, name, hcolumns⟩ := ih (Nat.succ.inj h)
      exact ⟨{ name := first, expression := value } :: before, after, name,
        fun x => congrArg _ (hcolumns x)⟩

/-- A statement with a place left open has the operand of that place open. -/
theorem opens_body {before after : List Token} {f : String → Statement}
    (h : Grammar.OpenBody before after f) : Opens Statement.operands bindStatement f := by
  cases h with
  | inserted table _ _ hlength =>
    obtain ⟨left, right, name, hcolumns⟩ := zip_open hlength
    simp only [hcolumns]
    exact opens_column { kind := .insert, table } left right name
  | assigned table _ _ _ =>
    exact opens_column { kind := .update, table, criteria := _ } _ _ _
  | compared _ _ _ hopen => exact opens_criteria _ (opens_disjunction hopen)

end Schemaless
