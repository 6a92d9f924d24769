import Schemaless.Proofs.Sql.Grammar

/-!
# Places of values

A value stands in `VALUES`, after the `=` of an assignment, or on the right side of a comparison. Here
these places are left open: each rule of the grammar that leads down to one says which tokens stand
before the place and after it, and what the whole stands for as a function of the operand that will be
put there. Any operand may be (`derives_of_valuePlace`).
-/

namespace Schemaless.Sql.Grammar

variable {α : Type} {separator : Token} {Phrase : List Token → α → Prop}
  {ts us vs before after : List Token} {a : α} {as bs left right : List α} {x : String}

/-! ## A row with a place in it -/

/-- Phrases with the separator after each. -/
inductive Leading {α : Type} (separator : Token) (Phrase : List Token → α → Prop) :
    List Token → List α → Prop
  | nil : Leading separator Phrase [] []
  | cons {ts us : List Token} {a : α} {as : List α} : Phrase ts a → Leading separator Phrase us as →
      Leading separator Phrase (ts ++ separator :: us) (a :: as)

/-- Phrases with the separator in front of each. -/
inductive Trailing {α : Type} (separator : Token) (Phrase : List Token → α → Prop) :
    List Token → List α → Prop
  | nil : Trailing separator Phrase [] []
  | cons {ts us : List Token} {a : α} {as : List α} : Phrase ts a → Trailing separator Phrase us as →
      Trailing separator Phrase (separator :: ts ++ us) (a :: as)

/-- The phrases of a row on the left and on the right of one that is left out. -/
structure Beside {α : Type} (separator : Token) (Phrase : List Token → α → Prop)
    (before after : List Token) (left right : List α) : Prop where
  left : Leading separator Phrase before left
  right : Trailing separator Phrase after right

theorem Trailing.separated (h : Trailing separator Phrase us bs) (hts : Phrase ts a) :
    Separated separator Phrase (ts ++ us) (a :: bs) := by
  induction h generalizing ts a with
  | nil =>
    rw [List.append_nil]
    exact .one hts
  | cons hvs _ ih => exact .more hts (ih hvs)

theorem Beside.separated (h : Beside separator Phrase before after left right)
    (hts : Phrase ts a) :
    Separated separator Phrase (before ++ ts ++ after) (left ++ a :: right) := by
  obtain ⟨hleft, hright⟩ := h
  induction hleft with
  | nil => exact hright.separated hts
  | cons hvs _ ih =>
    rw [List.append_assoc, List.append_assoc, List.cons_append, ← List.append_assoc]
    exact .more hvs ih

/-! ## Places in criteria -/

/-- Conjunctions joined by `OR`, one link of one of them open. -/
inductive OpenDisjunction (Open : List Token → List Token → (String → Criterion) → Prop) :
    List Token → List Token → (String → List (List Criterion)) → Prop
  | mk {ts us vs ws before after : List Token} {f : String → Criterion}
      {left right : List Criterion} {lefts rights : List (List Criterion)} : Open ts us f →
      Beside (.keyword .AND) Unary before after left right →
        Beside (.keyword .OR) Conjunction vs ws lefts rights →
          OpenDisjunction Open (vs ++ (before ++ ts)) (us ++ after ++ ws)
            (fun x => lefts ++ (left ++ f x :: right) :: rights)

/-- A condition, negated or in parentheses or neither, whose right side is open. There is no
placeholder on the left side. -/
inductive OpenUnary : List Token → List Token → (String → Criterion) → Prop
  | comparison {ts : List Token} {left operator : String} {m : Mark} : Operand ts left →
      '?' ∉ left.toList → (m, operator) ∈ comparisons →
        OpenUnary (ts ++ [.mark m]) [] (fun x => .condition { left, operator, right := x })
  | negated {before after : List Token} {c : String → Sql.Condition} :
      OpenUnary before after (fun x => .condition (c x)) →
        OpenUnary (.keyword .NOT :: before) after
          (fun x => .condition { c x with inverse := !(c x).inverse })
  | group {before after : List Token} {g : String → List (List Criterion)} :
      OpenDisjunction OpenUnary before after g →
        OpenUnary (.mark .leftParen :: before) (after ++ [.mark .rightParen])
          (fun x => nested "OR" ((g x).map (nested "AND")))

theorem disjunction_of_link {rs ws : List Token} {c : Criterion} {left right : List Criterion}
    {lefts rights : List (List Criterion)} (hlink : Unary ts c)
    (hlinks : Beside (.keyword .AND) Unary before after left right)
    (hconjunctions : Beside (.keyword .OR) Conjunction rs ws lefts rights) :
    Disjunction (rs ++ (before ++ ts ++ after) ++ ws) (lefts ++ (left ++ c :: right) :: rights) :=
  hconjunctions.separated (hlinks.separated hlink)

theorem unary_of_open {before after : List Token} {f : String → Criterion} (hx : Operand us x) :
    OpenUnary before after f → Unary (before ++ us ++ after) (f x)
  | .comparison hleft _ hm => by
    simpa using Unary.condition (.comparison hleft hm hx)
  | .negated h => .negated (unary_of_open hx h)
  | .group (.mk h hlinks hconjunctions) => by
    have hdisjunction := disjunction_of_link (unary_of_open hx h) hlinks hconjunctions
    simpa using Unary.group hdisjunction

theorem disjunction_of_open {g : String → List (List Criterion)} (hx : Operand us x)
    (h : OpenDisjunction OpenUnary before after g) : Disjunction (before ++ us ++ after) (g x) := by
  obtain ⟨hopen, hlinks, hconjunctions⟩ := h
  have hdisjunction := disjunction_of_link (unary_of_open hx hopen) hlinks hconjunctions
  simpa only [List.append_assoc] using hdisjunction

/-! ## Places in statements -/

/-- A statement with a place left open. -/
inductive OpenBody : List Token → List Token → (String → Statement) → Prop
  | inserted {ts before after : List Token} {names left right : List String} (table : String) :
      Listed Name ts names → Beside (.mark .comma) Operand before after left right →
        names.length = (left ++ right).length + 1 →
          OpenBody
            (.keyword .INSERT :: .keyword .INTO :: .identifier table :: .mark .leftParen :: ts ++
              .mark .rightParen :: .keyword .VALUES :: .mark .leftParen :: before)
            (after ++ [.mark .rightParen])
            (fun x =>
              { kind := .insert, table,
                columns := (names.zip (left ++ x :: right)).map fun c =>
                  { name := c.1, expression := c.2 } })
  | assigned {ts us before after : List Token} {name : String} {left right : List Column}
      {c : Criteria} (table : String) : Name ts name →
      Beside (.mark .comma) Assignment before after left right → Filter us c →
        OpenBody
          (.keyword .UPDATE :: .identifier table :: .keyword .SET :: before ++ ts ++ [.mark .equal])
          (after ++ us)
          (fun x =>
            { kind := .update, table, columns := left ++ { name, expression := x } :: right,
              criteria := c })
  | compared {ts before after : List Token} {s : Statement} {g : String → List (List Criterion)} :
      Body ts s → s.kind ≠ .insert → s.criteria = {} →
        OpenDisjunction OpenUnary before after g →
          OpenBody (ts ++ .keyword .WHERE :: before) after (fun x => { s with criteria := criteria (g x) })

/-- A value may stand between these tokens of a statement. -/
inductive ValuePlace : List Token → List Token → (String → Statement) → Prop
  | mk {before after us : List Token} {f : String → Statement} : OpenBody before after f → Ending us →
      ValuePlace before (after ++ us) f

theorem filter_of_criteria_eq {c : Criteria} (h : Filter ts c) (hc : c = {}) : ts = [] := by
  cases h with
  | absent => rfl
  | @present us conjunctions _ =>
    match conjunctions, hc with
    | [], hc => cases hc
    | [_], hc => cases hc
    | _ :: _ :: _, hc => cases hc

/-- A statement without criteria may be given some. -/
theorem body_of_criteria_eq {s : Statement} {c : Criteria} (h : Body ts s) (hkind : s.kind ≠ .insert)
    (hs : s.criteria = {}) (hus : Filter us c) : Body (ts ++ us) { s with criteria := c } := by
  cases h with
  | selectAll table hfilter =>
    obtain rfl := filter_of_criteria_eq hfilter hs
    exact .selectAll table hus
  | select table hcolumns hfilter =>
    obtain rfl := filter_of_criteria_eq hfilter hs
    simpa using Body.select table hcolumns hus
  | insert => exact absurd rfl hkind
  | update table hcolumns hfilter =>
    obtain rfl := filter_of_criteria_eq hfilter hs
    simpa using Body.update table hcolumns hus
  | delete table hfilter =>
    obtain rfl := filter_of_criteria_eq hfilter hs
    exact .delete table hus

theorem body_of_open {f : String → Statement} (h : OpenBody before after f) (hx : Operand us x) :
    Body (before ++ us ++ after) (f x) := by
  cases h with
  | @inserted ts before after names left right table hnames hvalues hlength =>
    have hcount : names.length = (left ++ x :: right).length := by
      simp only [List.length_append, List.length_cons] at hlength ⊢
      omega
    have hbody := Body.insert table (.mk hnames (hvalues.separated hx) hcount)
    simpa using hbody
  | assigned table hname hcolumns hfilter =>
    have hbody := Body.update table (hcolumns.separated (.mk hname hx)) hfilter
    simpa using hbody
  | compared hbody hkind hcriteria hopen =>
    have hwhole := body_of_criteria_eq hbody hkind hcriteria (.present (disjunction_of_open hx hopen))
    simpa using hwhole

/-- The statement, with this many placeholders. -/
def withPlaceholders (s : Statement) (count : Nat) : Statement := { s with placeholders := count }

/-- Whatever operand is put in a place of a value, the whole is a statement. -/
theorem derives_of_valuePlace {f : String → Statement} (h : ValuePlace before after f)
    (hx : Operand us x) :
    Derives (before ++ us ++ after)
      (withPlaceholders (f x) ((before ++ us ++ after).count (.mark .placeholder))) := by
  obtain ⟨hopen, hend⟩ := h
  have hderives := Derives.mk (body_of_open hopen hx) hend
  simpa only [withPlaceholders, List.append_assoc] using hderives

end Schemaless.Sql.Grammar
