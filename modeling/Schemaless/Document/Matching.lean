import Schemaless.Document.Basic

/-!
# When a document satisfies a predicate

Every entry of a predicate has to hold. Under `$and` and `$or` stands a list of predicates, under
any other name a condition on the field of that name: an object whose names all start with `$` is a
set of operators that all have to hold, anything else is a value that the field has to equal. An
operator that is not known never holds.
-/

namespace Schemaless

/-- The name of a conjunction in a predicate. -/
def andName : String := "$and"

/-- The name of a disjunction in a predicate. -/
def orName : String := "$or"

namespace Predicate

/-- Whether a field is there and equals a value. -/
def fieldEquals (field : Option Value) (v : Value) : Bool := field.any (·.equal v)

/-- Whether a field is there, is comparable with a value and stands in the asked order to it. -/
def fieldOrdered (field : Option Value) (v : Value) (ask : Ordering → Bool) : Bool :=
  (field.bind (·.compare v)).any ask

/-- Whether a value equals an item of a list, or the value that stands in its place. -/
def listed (list : Value) (v : Value) : Bool :=
  match list with
  | .arr items => items.any (v.equal ·)
  | single => v.equal single

/-- Whether one operator holds of a field. -/
def operatorHolds (field : Option Value) : String × Value → Bool
  | ("$eq", v) => fieldEquals field v
  | ("$ne", v) => !fieldEquals field v
  | ("$lt", v) => fieldOrdered field v (· == .lt)
  | ("$lte", v) => fieldOrdered field v (· != .gt)
  | ("$gt", v) => fieldOrdered field v (· == .gt)
  | ("$gte", v) => fieldOrdered field v (· != .lt)
  | ("$in", v) => field.any (listed v)
  | ("$nin", v) => !field.any (listed v)
  | _ => false

/-- Whether an object is a set of operators. -/
def isOperatorSet (fields : List (String × Value)) : Bool :=
  !fields.isEmpty && fields.all fun f => f.1.toList.head? == some '$'

/-- Whether a condition holds of a field. -/
def conditionHolds (field : Option Value) : Value → Bool
  | .obj ops =>
    if isOperatorSet ops then ops.all (operatorHolds field) else fieldEquals field (.obj ops)
  | v => fieldEquals field v

mutual

/-- Whether every entry holds of a document. -/
def entriesHold (d : Document) : List (String × Value) → Bool
  | [] => true
  | e :: rest => entryHolds d e && entriesHold d rest
termination_by structural entries => entries

/-- Whether one entry holds. -/
def entryHolds (d : Document) : String × Value → Bool
  | (name, condition) =>
    if name = andName then conjunctionHolds d condition
    else if name = orName then disjunctionHolds d condition
    else conditionHolds (d.get? name) condition

/-- Whether every predicate of a list holds; what is no predicate is passed over. -/
def conjunctionHolds (d : Document) : Value → Bool
  | .arr items => allHold d items
  | _ => true

/-- Whether some predicate of a list holds. -/
def disjunctionHolds (d : Document) : Value → Bool
  | .arr items => someHolds d items
  | _ => false

/-- The conjunction of the predicates among some values. -/
def allHold (d : Document) : List Value → Bool
  | [] => true
  | v :: rest => subHolds d true v && allHold d rest

/-- The disjunction of the predicates among some values. -/
def someHolds (d : Document) : List Value → Bool
  | [] => false
  | v :: rest => subHolds d false v || someHolds d rest

/-- Whether a predicate inside a list holds; `otherwise` for a value that is none. -/
def subHolds (d : Document) (otherwise : Bool) : Value → Bool
  | .obj entries => entriesHold d entries
  | _ => otherwise

end

/-- Whether a document satisfies a predicate. The predicate without entries holds of all. -/
def holds (p : Predicate) (d : Document) : Bool := entriesHold d p.entries

@[simp] theorem holds_empty (d : Document) : holds SortedMap.empty d = true := rfl

theorem entriesHold_singleton (d : Document) (e : String × Value) :
    entriesHold d [e] = entryHolds d e := by
  simp [entriesHold]

end Predicate

end Schemaless
