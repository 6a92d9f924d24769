import Schemaless.Sql.Statement.Parser

/-!
# What a reader of a part reads

`p.Reads a rest` says that a part was read, that it is `a`, and that `rest` is left. The combinators
of readers are taken apart by one equivalence each (`reads_map`, `reads_andThen`, `reads_behind`,
`finish_eq_ok`), and so are the readers of a single token. A list with separators is read as long as
a separator follows (`reads_parseSeparated`), and the two levels of criteria are such lists
(`parseConjuncts_eq`, `parseDisjuncts_eq`).
-/

namespace Schemaless.Sql

variable {α β : Type} {ts rest : List Token}

/-! ## Combinators -/

/-- A part was read, and these tokens are left. -/
def Parsed.Reads (p : Parsed α ts) (a : α) (rest : List Token) : Prop :=
  ∃ r : After ts, p = .ok (a, r) ∧ r.tokens = rest

namespace Parsed

@[simp] theorem reads_error (e : ParseFault) (a : α) :
    ¬Parsed.Reads (.error e : Parsed α ts) a rest := by
  rintro ⟨r, h, -⟩
  cases h

@[simp] theorem reads_ok {a b : α} {r : After ts} :
    Parsed.Reads (.ok (a, r) : Parsed α ts) b rest ↔ a = b ∧ r.tokens = rest := by
  constructor
  · rintro ⟨r', h, rfl⟩
    cases h
    exact ⟨rfl, rfl⟩
  · rintro ⟨rfl, rfl⟩
    exact ⟨r, rfl, rfl⟩

@[simp] theorem reads_single {a b : α} {t : Token} :
    (single a t ts).Reads b rest ↔ a = b ∧ ts = rest := reads_ok

@[simp] theorem reads_map {p : Parsed α ts} {f : α → β} {b : β} :
    (p.map f).Reads b rest ↔ ∃ a, p.Reads a rest ∧ f a = b := by
  rcases p with e | ⟨a, r⟩
  · simp [map]
  · simp only [map, reads_ok]
    constructor
    · rintro ⟨hb, hr⟩
      exact ⟨a, ⟨rfl, hr⟩, hb⟩
    · rintro ⟨_, ⟨rfl, hr⟩, hb⟩
      exact ⟨hb, hr⟩

@[simp] theorem reads_behind {p : Parsed α ts} {t : Token} {a : α} :
    (p.behind t).Reads a rest ↔ p.Reads a rest := by
  rcases p with e | ⟨b, r⟩
  · simp [behind]
  · simp [behind, After.behind]

theorem reads_andThen {p : Parsed α ts} {next : α → (us : List Token) → Parsed β us} {b : β} :
    (p.andThen next).Reads b rest ↔ ∃ a us, p.Reads a us ∧ (next a us).Reads b rest := by
  rcases p with e | ⟨a, r⟩
  · simp [andThen]
  · have hread : (andThen (.ok (a, r)) next).Reads b rest ↔ (next a r.tokens).Reads b rest := by
      rcases hnext : next a r.tokens with e | ⟨c, r'⟩ <;> simp [andThen, hnext, After.within]
    rw [hread]
    constructor
    · exact fun h => ⟨a, r.tokens, ⟨r, rfl, rfl⟩, h⟩
    · rintro ⟨_, _, ⟨_, ⟨⟩, rfl⟩, h⟩
      exact h

theorem finish_eq_ok {p : Parsed α ts} {next : α → List Token → Except ParseFault β} {b : β} :
    p.finish next = .ok b ↔ ∃ a us, p.Reads a us ∧ next a us = .ok b := by
  rcases p with e | ⟨a, r⟩
  · simp [finish]
  · constructor
    · exact fun h => ⟨a, r.tokens, ⟨r, rfl, rfl⟩, h⟩
    · rintro ⟨_, _, ⟨_, ⟨⟩, rfl⟩, h⟩
      exact h

end Parsed

theorem After.drop?_eq_none {r : After ts} {t : Token} (h : r.tokens.head? ≠ some t) :
    r.drop? t = none := by
  obtain ⟨us, fewer⟩ := r
  cases us with
  | nil => rfl
  | cons u us =>
    have hne : ¬u = t := by simpa using h
    simp [After.drop?, hne]

theorem After.drop?_eq_some {t : Token} {us : List Token} (fewer : (t :: us).length < ts.length) :
    (After.mk (t :: us) fewer).drop? t = some ⟨us, by simp at fewer; omega⟩ := by
  simp [After.drop?]

/-! ## Single tokens -/

@[simp] theorem reads_parseToken {t : Token} {u : Unit} :
    (parseToken t ts).Reads u rest ↔ ts = t :: rest := by
  cases ts with
  | nil => simp [parseToken]
  | cons v vs =>
    by_cases h : v = t
    · simp [parseToken, h]
    · simp [parseToken, h]

@[simp] theorem reads_parseIdentifier {name : String} :
    (parseIdentifier ts).Reads name rest ↔ ts = .identifier name :: rest := by
  unfold parseIdentifier
  split
  · simp
  · next hnot => simp only [Parsed.reads_error, false_iff]; exact hnot name rest

/-! ## Lists -/

/-- A list with separators goes on where a separator follows an item and ends where none does. -/
theorem reads_parseSeparated {separator : Token} {item : (ts : List Token) → Parsed α ts}
    {as : List α} :
    (parseSeparated separator item ts).Reads as rest ↔
      ∃ a us, (item ts).Reads a us ∧
        ((us.head? ≠ some separator ∧ as = [a] ∧ us = rest) ∨
          ∃ vs bs, us = separator :: vs ∧ (parseSeparated separator item vs).Reads bs rest ∧
            as = a :: bs) := by
  rw [parseSeparated]
  rcases item ts with e | ⟨a, us, fewer⟩
  · simp
  · by_cases hhead : us.head? = some separator
    · obtain ⟨vs, rfl⟩ : ∃ vs, us = separator :: vs := List.head?_eq_some_iff.1 hhead
      simp only [After.drop?_eq_some]
      constructor
      · intro h
        rcases hrest : parseSeparated separator item vs with e | ⟨bs, r⟩ <;> rw [hrest] at h
        · simp at h
        · obtain ⟨rfl, hr⟩ := Parsed.reads_ok.1 h
          exact ⟨a, _, ⟨_, rfl, rfl⟩, .inr ⟨vs, bs, rfl, by rw [hrest]; exact ⟨r, rfl, hr⟩, rfl⟩⟩
      · rintro ⟨_, _, ⟨_, ⟨⟩, rfl⟩, ⟨hnot, -⟩ | ⟨_, bs, ⟨⟩, ⟨r, hrest, hr⟩, rfl⟩⟩
        · exact absurd hhead hnot
        · rw [hrest]
          exact ⟨_, rfl, hr⟩
    · have hnone : (After.mk us fewer).drop? separator = none := After.drop?_eq_none hhead
      have hnot : ∀ vs, us ≠ separator :: vs := by
        rintro vs rfl
        exact hhead rfl
      simp only [hnone, Parsed.reads_ok]
      constructor
      · rintro ⟨rfl, rfl⟩
        exact ⟨a, us, ⟨rfl, rfl⟩, .inl ⟨hhead, rfl, rfl⟩⟩
      · rintro ⟨_, _, ⟨rfl, rfl⟩, ⟨-, rfl, rfl⟩ | ⟨vs, _, hvs, -⟩⟩
        · exact ⟨rfl, rfl⟩
        · exact absurd hvs (hnot vs)

theorem parseConjuncts_eq (ts : List Token) :
    parseConjuncts ts = parseSeparated (.keyword .AND) parseUnary ts := by
  rw [parseConjuncts, parseSeparated]
  rcases parseUnary ts with e | ⟨item, r⟩
  · rfl
  · simp only
    cases r.drop? (.keyword .AND) with
    | none => rfl
    | some r =>
      have hrest := parseConjuncts_eq r.tokens
      simp only [hrest]
      cases parseSeparated (.keyword .AND) parseUnary r.tokens <;> rfl
termination_by ts.length
decreasing_by exact r.fewer

theorem parseDisjuncts_eq (ts : List Token) :
    parseDisjuncts ts = parseSeparated (.keyword .OR) parseConjuncts ts := by
  rw [parseDisjuncts, parseSeparated]
  rcases parseConjuncts ts with e | ⟨items, r⟩
  · rfl
  · simp only
    cases r.drop? (.keyword .OR) with
    | none => rfl
    | some r =>
      have hrest := parseDisjuncts_eq r.tokens
      simp only [hrest]
      cases parseSeparated (.keyword .OR) parseConjuncts r.tokens <;> rfl
termination_by ts.length
decreasing_by exact r.fewer

/-! ## Statements -/

theorem map_eq_ok {ε : Type} {e : Except ε α} {f : α → β} {b : β} :
    e.map f = .ok b ↔ ∃ a, e = .ok a ∧ f a = b := by
  cases e <;> simp [Except.map]

theorem parseSelect_eq_ok {s : Statement} :
    parseSelect ts = .ok (s, rest) ↔
      ∃ columns table us criteria,
        (parseShownColumns ts).Reads columns (.keyword .FROM :: .identifier table :: us) ∧
          parseWhere us = .ok (criteria, rest) ∧
            s = { kind := .select, table, columns, criteria } := by
  simp only [parseSelect, Parsed.finish_eq_ok, reads_parseToken, reads_parseIdentifier, map_eq_ok]
  constructor
  · rintro ⟨columns, _, hcolumns, _, _, rfl, table, us, rfl, ⟨criteria, _⟩, hwhere, ⟨⟩⟩
    exact ⟨columns, table, us, criteria, hcolumns, hwhere, rfl⟩
  · rintro ⟨columns, table, us, criteria, hcolumns, hwhere, rfl⟩
    exact ⟨columns, _, hcolumns, (), _, rfl, table, us, rfl, (criteria, rest), hwhere, rfl⟩

theorem parseUpdate_eq_ok {s : Statement} :
    parseUpdate ts = .ok (s, rest) ↔
      ∃ table us columns vs criteria,
        ts = .identifier table :: .keyword .SET :: us ∧
          (parseList parseAssignment us).Reads columns vs ∧ parseWhere vs = .ok (criteria, rest) ∧
            s = { kind := .update, table, columns, criteria } := by
  simp only [parseUpdate, Parsed.finish_eq_ok, reads_parseToken, reads_parseIdentifier, map_eq_ok]
  constructor
  · rintro ⟨table, _, rfl, _, us, rfl, columns, vs, hcolumns, ⟨criteria, _⟩, hwhere, ⟨⟩⟩
    exact ⟨table, us, columns, vs, criteria, rfl, hcolumns, hwhere, rfl⟩
  · rintro ⟨table, us, columns, vs, criteria, rfl, hcolumns, hwhere, rfl⟩
    exact ⟨table, _, rfl, (), us, rfl, columns, vs, hcolumns, (criteria, rest), hwhere, rfl⟩

theorem parseDelete_eq_ok {s : Statement} :
    parseDelete ts = .ok (s, rest) ↔
      ∃ table us criteria, ts = .keyword .FROM :: .identifier table :: us ∧
        parseWhere us = .ok (criteria, rest) ∧ s = { kind := .delete, table, criteria } := by
  simp only [parseDelete, Parsed.finish_eq_ok, reads_parseToken, reads_parseIdentifier, map_eq_ok]
  constructor
  · rintro ⟨_, _, rfl, table, us, rfl, ⟨criteria, _⟩, hwhere, ⟨⟩⟩
    exact ⟨table, us, criteria, rfl, hwhere, rfl⟩
  · rintro ⟨table, us, criteria, rfl, hwhere, rfl⟩
    exact ⟨(), _, rfl, table, us, rfl, (criteria, rest), hwhere, rfl⟩

theorem insertion_eq_ok {table : String} {names values : List String} {s : Statement} :
    insertion table names values ts = .ok (s, rest) ↔
      ts.head? ≠ some (.mark .comma) ∧ names.length = values.length ∧ ts = rest ∧
        s = { kind := .insert, table,
              columns := (names.zip values).map fun c =>
                { name := c.1, expression := some c.2 } } := by
  have hzip : (names.zip values).map
        (fun c => ({ name := c.1, expression := some c.2 } : Column)) =
      names.zipWith (fun name value => { name, expression := some value }) values :=
    List.map_zip_eq_zipWith
  rw [insertion, hzip]
  by_cases hcomma : ts.head? = some (.mark .comma)
  · simp [hcomma]
  · by_cases hlength : names.length = values.length
    · simp [hcomma, hlength, and_comm, eq_comm]
    · simp [hcomma, hlength]

theorem parseInsert_eq_ok {s : Statement} :
    parseInsert ts = .ok (s, rest) ↔
      ∃ table us names vs values, ts = .keyword .INTO :: .identifier table :: us ∧
        (parseNames us).Reads names (.keyword .VALUES :: vs) ∧
          (parseOperands vs).Reads values rest ∧
            insertion table names values rest = .ok (s, rest) := by
  simp only [parseInsert, Parsed.finish_eq_ok, reads_parseToken, reads_parseIdentifier]
  constructor
  · rintro ⟨_, _, rfl, table, us, rfl, names, _, hnames, _, vs, rfl, values, ws, hvalues, h⟩
    obtain rfl := (insertion_eq_ok.1 h).2.2.1
    exact ⟨table, us, names, vs, values, rfl, hnames, hvalues, h⟩
  · rintro ⟨table, us, names, vs, values, rfl, hnames, hvalues, h⟩
    exact ⟨(), _, rfl, table, us, rfl, names, _, hnames, (), vs, rfl, values, rest, hvalues, h⟩

end Schemaless.Sql
