import Schemaless.Proofs.Binding.Condition

/-!
# What criteria mean

The criteria of a statement mean something before any predicate is made of them: a condition
compares a field of the document with the value of its operand, a group joins the answers of its
items, and the operands take the parameters from left to right (`Criteria.meaning`). The predicate
that the criteria are bound to says the same of every document, takes the same parameters and fails
where the evaluation fails (`holds_bindCriteria`). Only the two names of connectives cannot be
fields: a condition on such a field would be read as a group.
-/

namespace Schemaless

open Sql

/-! ## Comparisons -/

namespace Operator

/-- The values that an operand of a membership condition lists. -/
def members : Value → List Value
  | .str s => (s.toList.splitOn ',').map fun part => .str (Text.trim (String.ofList part))
  | .arr items => items
  | v => [v]

/-- Whether a field, which may be missing, compares with a value as the operator asks. -/
def compares (field : Option Value) (v : Value) : Operator → Bool
  | equal => field.any fun f => f.equal v
  | notEqual => !field.any fun f => f.equal v
  | less => field.any fun f => f.compare v == some .lt
  | lessEqual => field.any fun f => f.compare v == some .lt || f.compare v == some .eq
  | greater => field.any fun f => f.compare v == some .gt
  | greaterEqual => field.any fun f => f.compare v == some .gt || f.compare v == some .eq
  | isIn => field.any fun f => (members v).any f.equal
  | notIn => !field.any fun f => (members v).any f.equal

theorem pieces_eq_splitOn (separator : Char) (cs : List Char) :
    Text.pieces separator [] none cs = cs.splitOn separator := by
  induction cs with
  | nil => rfl
  | cons c r ih =>
    have hquote : Text.nextQuote [] none c = none := rfl
    rw [Text.pieces, hquote, ih, List.splitOn_cons_eq_if_modifyHead]
    by_cases h : c = separator
    · rw [if_pos ⟨h, rfl⟩, if_pos (by simpa using h)]
    · rw [if_neg fun hc => h hc.1, if_neg (by simpa using h)]
      cases hr : r.splitOn separator with
      | nil => exact absurd hr (List.splitOn_ne_nil _ _)
      | cons first rest => rfl

theorem asList_eq_members (v : Value) : asList v = members v := by
  cases v with
  | str s => simp only [asList, members, pieces_eq_splitOn, Text.trim, String.toList_ofList]
  | null | bool _ | num _ | arr _ | obj _ => rfl

theorem fieldOrdered_eq (field : Option Value) (v : Value) (ask : Ordering → Bool) :
    Predicate.fieldOrdered field v ask = field.any fun f => (f.compare v).any ask := by
  cases field <;> rfl

/-- The condition that an operator builds asks for the comparison that it stands for. -/
theorem operatorHolds_operand (field : Option Value) (v : Value) (o : Operator) :
    Predicate.operatorHolds field (o.name, o.operand v) = o.compares field v := by
  have hlisted : Predicate.listed (.arr (asList v)) = fun f => (members v).any f.equal := by
    funext f
    rw [Predicate.listed, asList_eq_members]
  cases o with
  | equal | notEqual => rfl
  | less | lessEqual | greater | greaterEqual =>
    show Predicate.fieldOrdered field v _ = _
    rw [fieldOrdered_eq, compares]
    congr 1
    funext f
    cases f.compare v with
    | none => rfl
    | some order => cases order <;> rfl
  | isIn =>
    show field.any (Predicate.listed (.arr (asList v))) = _
    rw [hlisted, compares]
  | notIn =>
    show (!field.any (Predicate.listed (.arr (asList v)))) = _
    rw [hlisted, compares]

end Operator

/-- Whether a condition holds of a document. A placeholder in the left operand makes the right
operand the field. -/
def Sql.Condition.meaning (d : Document) (c : Condition) : Binding Bool := do
  let (name, operand) := if '?' ∈ c.left.toList then (c.right, c.left) else (c.left, c.right)
  let o ← Effect.ofExcept (Operator.resolve c.operator c.inverse)
  let v ← bindExpression o.isMembership operand
  pure (o.compares (d.get? (Text.trim name)) v)

/-! ## Groups -/

/-- Whether the operator of a group is `OR`, in capitals or not. -/
def isDisjunction (logical : Option String) : Bool :=
  logical.any fun text => Text.trim text ∈ ["OR", "Or", "oR", "or"]

/-- The answer of a group whose items have answered. -/
def joinedAnswer (logical : Option String) : List Bool → Bool
  | [] => true
  | answers => if isDisjunction logical then answers.any id else answers.all id

mutual

/-- Whether a node of the criteria tree holds of a document. -/
def Sql.Criterion.meaning (d : Document) : Criterion → Binding Bool
  | .condition c => c.meaning d
  | .group logical items => joinedAnswer logical <$> itemMeanings d items
termination_by structural c => c

def itemMeanings (d : Document) : List Criterion → Binding (List Bool)
  | [] => pure []
  | first :: rest => do
    let b ← first.meaning d
    let bs ← itemMeanings d rest
    pure (b :: bs)

end

def Sql.Criteria.meaning (d : Document) (c : Criteria) : Binding Bool :=
  (Criterion.group c.logical c.items).meaning d

mutual

/-- The conditions in a criteria tree. -/
def Sql.Criterion.conditions : Criterion → List Condition
  | .condition c => [c]
  | .group _ items => itemConditions items
termination_by structural c => c

def itemConditions : List Criterion → List Condition
  | [] => []
  | first :: rest => first.conditions ++ itemConditions rest

end

def Sql.Criteria.conditions (c : Criteria) : List Condition := itemConditions c.items

/-- The field of a condition is not named like a connective. -/
def Sql.Condition.OnField (c : Condition) : Prop := c.field ≠ andName ∧ c.field ≠ orName

instance (c : Condition) : Decidable c.OnField :=
  inferInstanceAs (Decidable (c.field ≠ andName ∧ c.field ≠ orName))

/-! ## The operator of a group -/

/-- Two letters with one small letter are the same, or one of them is the small letter. -/
theorem eq_or_eq_of_toLower_eq {c capital : Char} (hcapital : capital.toLower ≠ capital)
    (h : c.toLower = capital.toLower) : c = capital ∨ c = capital.toLower := by
  rw [← h]
  unfold Char.toLower at h hcapital ⊢
  split at h
  · split at h
    · left
      exact Char.ext ((UInt32.add_left_inj _).1 (congrArg Char.val h))
    · next hnot => rw [dif_neg hnot] at hcapital; exact absurd rfl hcapital
  · next hc => right; rw [dif_neg hc]

theorem equalsIgnoringCase_or (cs : List Char) :
    equalsIgnoringCase cs "or".toList =
      decide (String.ofList cs ∈ ["OR", "Or", "oR", "or"]) := by
  have hor : "or".toList.map Char.toLower = ['O'.toLower, 'R'.toLower] := by simp
  rw [equalsIgnoringCase, Bool.eq_iff_iff, beq_iff_eq, decide_eq_true_eq, hor]
  constructor
  · intro h
    obtain ⟨a, _, rfl, ha, h⟩ := List.map_eq_cons_iff.1 h
    obtain ⟨b, _, rfl, hb, h⟩ := List.map_eq_cons_iff.1 h
    obtain rfl := List.map_eq_nil_iff.1 h
    rcases eq_or_eq_of_toLower_eq (by decide) ha with rfl | rfl <;>
      rcases eq_or_eq_of_toLower_eq (by decide) hb with rfl | rfl <;> decide +kernel
  · intro h
    have hcs : cs = ['O', 'R'] ∨ cs = ['O', 'r'] ∨ cs = ['o', 'R'] ∨ cs = ['o', 'r'] := by
      simpa [← String.toList_inj] using h
    rcases hcs with rfl | rfl | rfl | rfl <;> rfl

theorem connective_eq (logical : Option String) :
    connective logical = if isDisjunction logical then orName else andName := by
  cases logical with
  | none => rfl
  | some text => rw [connective, equalsIgnoringCase_or]; rfl

/-! ## The predicate of a group -/

namespace Predicate

variable (d : Document)

theorem allHold_eq (ps : List Value) : allHold d ps = ps.all (subHolds d true) := by
  induction ps with
  | nil => rfl
  | cons p rest ih => rw [allHold, ih, List.all_cons]

theorem someHolds_eq (ps : List Value) : someHolds d ps = ps.any (subHolds d false) := by
  induction ps with
  | nil => rfl
  | cons p rest ih => rw [someHolds, ih, List.any_cons]

theorem holds_single_and (ps : List Value) :
    (single andName (.arr ps)).holds d = ps.all (subHolds d true) := by
  rw [holds_single_entry, entryHolds, if_pos rfl, conjunctionHolds, allHold_eq]

theorem holds_single_or (ps : List Value) :
    (single orName (.arr ps)).holds d = ps.any (subHolds d false) := by
  have hne : orName ≠ andName := by simp [orName, andName]
  rw [holds_single_entry, entryHolds, if_neg hne, if_pos rfl, disjunctionHolds, someHolds_eq]

theorem holds_single_connective (logical : Option String) (p : Predicate) (ps : List Value) :
    (single (connective logical) (.arr (.obj p.entries :: ps))).holds d =
      joinedAnswer logical (p.holds d :: ps.map (subHolds d !isDisjunction logical)) := by
  have hfirst (otherwise : Bool) : subHolds d otherwise (.obj p.entries) = p.holds d := by
    rw [subHolds, holds]
  have hanswer (bs : List Bool) : joinedAnswer logical (p.holds d :: bs) =
      if isDisjunction logical then (p.holds d :: bs).any id else (p.holds d :: bs).all id := rfl
  rw [connective_eq, hanswer]
  -- what is no predicate would count as true in a conjunction and as false in a disjunction
  cases h : isDisjunction logical with
  | true => simp [holds_single_or, hfirst, List.any_map]
  | false => simp [holds_single_and, hfirst, List.all_map]

end Predicate

/-! ## Criteria and their predicate -/

section

variable (d : Document)

theorem holds_bindCondition {c : Condition} (h : c.OnField) :
    (fun p => p.holds d) <$> bindCondition c = c.meaning d := by
  have hswapped : c.isSwapped = decide ('?' ∈ c.left.toList) := by
    rw [Condition.isSwapped, hasPlaceholder, List.contains_eq_mem, placeholder]
  have hoperands : (if '?' ∈ c.left.toList then (c.right, c.left) else (c.left, c.right)) =
      (if c.isSwapped then c.right else c.left, c.expression) := by
    by_cases hmark : '?' ∈ c.left.toList <;> simp [Condition.expression, hswapped, hmark]
  rw [bindCondition, Condition.meaning, hoperands]
  simp only [map_eq_pure_bind, bind_assoc, pure_bind, holds_single_build h.1 h.2,
    Operator.operatorHolds_operand]
  rfl

-- over the tree, a node together with the items of a group

mutual

theorem holds_bindCriterion : (c : Criterion) → (∀ k ∈ c.conditions, k.OnField) →
    (fun p => p.holds d) <$> bindCriterion c = c.meaning d
  | .condition c, h => holds_bindCondition d (h c (List.mem_singleton_self c))
  | .group logical [], _ => rfl
  | .group logical [single], h => by
    -- a group of one has no connective: its predicate is that of the item
    have hsingle := holds_bindCriterion single fun k hk => h k (List.mem_append_left _ hk)
    have hone : joinedAnswer logical ∘ (fun b => [b]) = id := by
      funext b
      simp [joinedAnswer]
    show (fun p => p.holds d) <$> bindCriterion single =
      joinedAnswer logical <$> itemMeanings d [single]
    have hitems : itemMeanings d [single] = (fun b => [b]) <$> single.meaning d := by
      rw [map_eq_pure_bind]
      rfl
    rw [hsingle, hitems, ← comp_map, hone, id_map]
  | .group logical (first :: second :: rest), h => by
    have hfirst := holds_bindCriterion first fun k hk => h k (List.mem_append_left _ hk)
    have hrest := subHolds_bindItems (!isDisjunction logical) (second :: rest)
      fun k hk => h k (List.mem_append_right _ hk)
    rw [bindCriterion, bindGroup, Criterion.meaning, itemMeanings, ← hfirst, ← hrest]
    simp only [map_eq_pure_bind, bind_assoc, pure_bind, Predicate.holds_single_connective]

/-- The answers of the items do not depend on what stands for an item that is no predicate: every
item is one. -/
theorem subHolds_bindItems (otherwise : Bool) : (items : List Criterion) →
    (∀ k ∈ itemConditions items, k.OnField) →
      (fun ps => ps.map (Predicate.subHolds d otherwise)) <$> bindItems items = itemMeanings d items
  | [], _ => rfl
  | first :: rest, h => by
    have hfirst := holds_bindCriterion first fun k hk => h k (List.mem_append_left _ hk)
    have hrest := subHolds_bindItems otherwise rest fun k hk => h k (List.mem_append_right _ hk)
    rw [bindItems, itemMeanings, ← hfirst, ← hrest]
    simp only [map_eq_pure_bind, bind_assoc, pure_bind, List.map_cons, Predicate.subHolds,
      Predicate.holds]

end

/-- The predicate of criteria says of every document what the criteria mean, and the two take the same
parameters and fail alike. -/
theorem holds_bindCriteria {c : Criteria} (hfields : ∀ k ∈ c.conditions, k.OnField)
    (cursor : Cursor) :
    (c.meaning d).on cursor =
      (((bindCriteria c).on cursor).1.map fun p => p.holds d, ((bindCriteria c).on cursor).2) := by
  have h := holds_bindCriterion d (.group c.logical c.items) hfields
  rw [Criteria.meaning, ← h, Effect.on_map]
  rfl

end

/-- A name on the right of its value, and a group with a group of one and an empty group in it. -/
def sampleCriteria : Criteria where
  logical := some " oR "
  items :=
    [.condition { left := "?", operator := "=", right := " name " },
      .group (some "xor")
        [.group none [.condition { left := "age", operator := ">=", right := "18" }],
          .condition { left := "city", operator := "in", right := "?", inverse := true },
          .group (some "OR") []]]

def sampleCursor : Cursor where
  parameters := [.str "Ann", .str "Oslo, Rome"]

/-- A document that only the group of the sample holds of. -/
def sampleDocument : Document := SortedMap.ofList [("age", .num (.int 20))]

theorem holds_bindCriteria_sample :
    (∀ k ∈ sampleCriteria.conditions, k.OnField) ∧
      ∃ p after, (bindCriteria sampleCriteria).on sampleCursor = (.ok p, after) ∧
        (sampleCriteria.meaning sampleDocument).on sampleCursor =
          (.ok true, after) ∧
        p.holds sampleDocument = true ∧ after.position = 2 := by
  have hfields : ∀ k ∈ sampleCriteria.conditions, k.OnField := by decide +kernel
  have hmeaning := holds_bindCriteria sampleDocument hfields sampleCursor
  have hholds : ((bindCriteria sampleCriteria).on sampleCursor).1.map
      (fun p => p.holds sampleDocument) = .ok true := rfl
  refine ⟨hfields, _, _, rfl, ?_, ?_, ?_⟩
  · rw [hmeaning, hholds]
    rfl
  · decide +kernel
  · decide +kernel

end Schemaless
