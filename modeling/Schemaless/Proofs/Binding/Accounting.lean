import Schemaless.Proofs.Binding.Layout
import Schemaless.Proofs.Client.Naming

/-!
# Placeholder accounting

The placeholders of a statement are counted over its tokens, and parameters are taken later, a few at a
time, by how many question marks the text of each operand has. The two agree: the operands stand among the
tokens in the order in which they are bound, with as many placeholders as question marks (`Laid`), so each
of them is served with the parameters of its own placeholders (`InTurn`). With one parameter for each
placeholder no binding misses one, with fewer a binding fails, and parameters beyond are never looked at
(`placeholder_accounting`).
-/

namespace Schemaless

open Sql Grammar

open Binding (Takes Yields Spends placeholders)

/-! ## Serving operands in turn -/

/-- Each item takes the parameters of the placeholders in its own phrase and answers from these alone, in
the order in which the phrases stand in the tokens. -/
inductive InTurn {α β : Type} (Phrase : List Token → β → Prop) (bind : β → Binding α) :
    List Token → List β → List Value → List α → Prop
  | done {gap : List Token} : Token.placeholder ∉ gap → InTurn Phrase bind gap [] [] []
  | served {gap us ts : List Token} {b : β} {bs : List β} {vs ws : List Value} {a : α} {as : List α} :
      Token.placeholder ∉ gap → Phrase us b → us.count Token.placeholder = vs.length →
        Yields (bind b) vs a → InTurn Phrase bind ts bs ws as →
          InTurn Phrase bind (gap ++ us ++ ts) (b :: bs) (vs ++ ws) (a :: as)

section

variable {α β : Type} {Phrase : List Token → β → Prop} {bind : β → Binding α} {ts : List Token}
  {bs : List β}

/-- Items that stand in a row and are bound in a row are served in turn. -/
theorem inTurn_of_laid (h : Laid Phrase ts bs)
    (htakes : ∀ us b, Phrase us b → Takes (bind b) (us.count Token.placeholder))
    (before : List Value) {rest : List Value} {as : List α} {cursor : Cursor}
    (hrun : (bs.mapM bind).on ⟨before ++ rest, before.length⟩ = (.ok as, cursor)) :
    ∃ vs after, rest = vs ++ after ∧ InTurn Phrase bind ts bs vs as ∧
      cursor = ⟨before ++ rest, (before ++ vs).length⟩ := by
  induction h generalizing before rest as cursor with
  | done hgap =>
    cases hrun
    exact ⟨[], rest, rfl, .done hgap, by rw [List.append_nil]⟩
  | @item gap us ts b bs hgap hphrase _ ih =>
    rw [List.mapM_cons] at hrun
    obtain ⟨a, middle, hfirst, hrun⟩ := Effect.bind_eq_ok.1 hrun
    obtain ⟨vs, after, rfl, hvs, hyields⟩ := htakes us b hphrase before rest a middle hfirst
    rw [hyields before after] at hfirst
    cases hfirst
    obtain ⟨as', last, hrest, hpure⟩ := Effect.bind_eq_ok.1 hrun
    cases hpure
    rw [← List.append_assoc, ← List.length_append] at hrest
    obtain ⟨ws, after, rfl, hserved, rfl⟩ := ih (before ++ vs) hrest
    refine ⟨vs ++ ws, after, by simp, .served hgap hphrase hvs.symm hyields hserved, by simp⟩

theorem count_of_laid {texts : β → List String} (h : Laid Phrase ts bs)
    (hcount : ∀ us b, Phrase us b → us.count Token.placeholder = placeholders (texts b)) :
    ts.count Token.placeholder = placeholders (bs.flatMap texts) := by
  induction h with
  | done hgap => exact List.count_eq_zero.2 hgap
  | item hgap hphrase _ ih =>
    rw [List.count_append, List.count_append, List.count_eq_zero.2 hgap, Nat.zero_add,
      hcount _ _ hphrase, ih, List.flatMap_cons, Binding.placeholders_append]

end

theorem count_columnPhrase {us : List Token} {c : Column} (h : ColumnPhrase us c) :
    us.count Token.placeholder = placeholders c.expression.toList := by
  rw [ColumnPhrase] at h
  split at h
  · next text hc => rw [hc, h.count]; rfl
  · next hc => rw [hc, h]; rfl

theorem count_conditionPhrase {us : List Token} {k : Sql.Condition} (h : ConditionPhrase us k) :
    us.count Token.placeholder = placeholders [k.expression] := h.count

theorem takes_of_columnPhrase (us : List Token) (c : Column) (h : ColumnPhrase us c) :
    Takes c.value (us.count Token.placeholder) := by
  rw [count_columnPhrase h]
  exact (spends_value c).takes

theorem takes_of_conditionPhrase (us : List Token) (k : Sql.Condition) (h : ConditionPhrase us k) :
    Takes (bindCondition k) (us.count Token.placeholder) := by
  rw [h.count]
  exact (spends_bindCondition k).takes

/-! ## The predicates of conditions in a tree -/

mutual

/-- The predicate of a node of the criteria tree, put together from the predicates of its conditions from
left to right. -/
inductive Assembles : Criterion → List Predicate → Predicate → Prop
  | condition (k : Sql.Condition) (p : Predicate) : Assembles (.condition k) [p] p
  | empty (logical : Option String) : Assembles (.group logical []) [] SortedMap.empty
  | single {logical : Option String} {c : Criterion} {ps : List Predicate} {p : Predicate} :
      Assembles c ps p → Assembles (.group logical [c]) ps p
  | joined {logical : Option String} {first second : Criterion} {rest : List Criterion}
      {ps : List Predicate} {vs : List Value} : AssembleItems (first :: second :: rest) ps vs →
        Assembles (.group logical (first :: second :: rest)) ps
          (Predicate.single (connective logical) (.arr vs))

/-- The predicates of the items of a group, each from its own conditions. -/
inductive AssembleItems : List Criterion → List Predicate → List Value → Prop
  | nil : AssembleItems [] [] []
  | cons {c : Criterion} {items : List Criterion} {ps qs : List Predicate} {p : Predicate}
      {vs : List Value} : Assembles c ps p → AssembleItems items qs vs →
        AssembleItems (c :: items) (ps ++ qs) (.obj p.entries :: vs)

end

mutual

theorem assembles_of_bindCriterion : (c : Criterion) → {cursor after : Cursor} → {p : Predicate} →
    (bindCriterion c).on cursor = (.ok p, after) →
      ∃ ps, (c.conditions.mapM bindCondition).on cursor = (.ok ps, after) ∧ Assembles c ps p
  | .condition k, cursor, after, p, h => by
    refine ⟨[p], ?_, .condition k p⟩
    rw [Criterion.conditions, List.mapM_cons]
    exact Effect.bind_eq_ok.2 ⟨p, after, h, rfl⟩
  | .group logical [], cursor, after, p, h => by
    cases h
    exact ⟨[], rfl, .empty logical⟩
  | .group logical [single], cursor, after, p, h => by
    obtain ⟨ps, hps, hassembles⟩ := assembles_of_bindCriterion single h
    rw [← List.append_nil single.conditions] at hps
    exact ⟨ps, hps, .single hassembles⟩
  | .group logical (first :: second :: rest), cursor, after, p, h => by
    rw [bindCriterion, bindGroup_of_two, Effect.map_eq_ok] at h
    obtain ⟨vs, hvs, rfl⟩ := h
    obtain ⟨ps, hps, hitems⟩ := assembleItems_of_bindItems (first :: second :: rest) hvs
    exact ⟨ps, hps, .joined hitems⟩

theorem assembleItems_of_bindItems : (items : List Criterion) → {cursor after : Cursor} →
    {vs : List Value} → (bindItems items).on cursor = (.ok vs, after) →
      ∃ ps, ((itemConditions items).mapM bindCondition).on cursor = (.ok ps, after) ∧
        AssembleItems items ps vs
  | [], cursor, after, vs, h => by
    cases h
    exact ⟨[], rfl, .nil⟩
  | first :: rest, cursor, after, vs, h => by
    rw [bindItems] at h
    obtain ⟨p, middle, hfirst, h⟩ := Effect.bind_eq_ok.1 h
    obtain ⟨ws, _, hrest, hpure⟩ := Effect.bind_eq_ok.1 h
    cases hpure
    obtain ⟨ps, hps, hassembles⟩ := assembles_of_bindCriterion first hfirst
    obtain ⟨qs, hqs, hitems⟩ := assembleItems_of_bindItems rest hrest
    refine ⟨ps ++ qs, ?_, .cons hassembles hitems⟩
    rw [itemConditions, List.mapM_append]
    exact Effect.bind_eq_ok.2 ⟨ps, middle, hps, Effect.bind_eq_ok.2 ⟨qs, after, hqs, rfl⟩⟩

end

/-! ## Statements -/

/-- A record and a predicate made from parameters that are all used: by the values of the columns and then
by the conditions, in the order in which their tokens stand. -/
inductive Served : List Token → Statement → List Value → Document → Predicate → Prop
  | mk {front back : List Token} {s : Statement} {us vs values : List Value}
      {predicates : List Predicate} {record : Document} {p : Predicate} :
      InTurn ColumnPhrase Column.value front s.columns us values →
        (∀ name, record.get? name = assigned s.columns values name) →
          InTurn ConditionPhrase bindCondition back s.criteria.conditions vs predicates →
            Assembles (.group s.criteria.logical s.criteria.items) predicates p →
              Served (front ++ back) s (us ++ vs) record p

section

variable {ts : List Token} {s : Statement}

/-- The placeholders among the tokens are those in the operands. -/
theorem placeholders_of_derives (h : Derives ts s) (hplain : PlainTokens ts)
    (hsides : ∀ k ∈ s.criteria.conditions, k.OneSided) :
    s.placeholders = placeholders s.operands := by
  have htokens : s.placeholders = ts.count Token.placeholder := by
    obtain ⟨-, -⟩ := h
    rfl
  obtain ⟨front, back, rfl, hcolumns, hconditions⟩ := laid_of_derives h hplain hsides
  rw [htokens, List.count_append, count_of_laid hcolumns fun _ _ => count_columnPhrase,
    count_of_laid hconditions fun _ _ => count_conditionPhrase, Statement.operands,
    Binding.placeholders_append, List.filterMap_eq_flatMap_toList, List.map_eq_flatMap]

theorem served_of_bindStatement (h : Derives ts s) (hplain : PlainTokens ts)
    (hsides : ∀ k ∈ s.criteria.conditions, k.OneSided) {ps : List Value} {record : Document}
    {p : Predicate} {after : Cursor}
    (hrun : (bindStatement s).on { parameters := ps } = (.ok (record, p), after)) :
    ∃ used rest, ps = used ++ rest ∧ Served ts s used record p ∧
      after = { parameters := ps, position := used.length } := by
  obtain ⟨front, back, rfl, hcolumns, hconditions⟩ := laid_of_derives h hplain hsides
  obtain ⟨_, middle, hrecord, hrun⟩ := Effect.bind_eq_ok.1 hrun
  obtain ⟨_, _, hcriteria, hpure⟩ := Effect.bind_eq_ok.1 hrun
  cases hpure
  obtain ⟨values, hvalues, hassigned⟩ := assigned_of_bindRecord hrecord
  obtain ⟨predicates, hpredicates, hassembles⟩ :=
    assembles_of_bindCriterion (.group s.criteria.logical s.criteria.items) hcriteria
  obtain ⟨us, others, rfl, hfront, rfl⟩ :=
    inTurn_of_laid hcolumns takes_of_columnPhrase [] hvalues
  obtain ⟨vs, rest, rfl, hback, rfl⟩ :=
    inTurn_of_laid hconditions takes_of_conditionPhrase us hpredicates
  exact ⟨us ++ vs, rest, by simp, .mk hfront hassigned hback hassembles, by simp⟩

end

/-- Every placeholder is served with one parameter. Take a text that is read as a statement, with no
question mark in a name or in a quoted text and no condition with placeholders on both sides, and bind the
values of its columns and then its criteria. With at least as many parameters as placeholders no
parameter is missed. A binding that succeeds has taken as many as there are placeholders, in the order of
the placeholders in the text, and goes the same way with more of them. With fewer it fails, and where it
fails for want of a parameter it names their number. -/
theorem placeholder_accounting {sql : String} {ts : List Token} {s : Statement}
    (hlex : lex sql.toList = .ok ts) (hparse : Statement.parse sql = .ok s)
    (hplain : ∀ text, .identifier text ∈ ts ∨ .text text ∈ ts → '?' ∉ text.toList)
    (hsides : ∀ k ∈ s.criteria.conditions, k.OneSided) (ps : List Value) :
    (s.placeholders ≤ ps.length →
        ∀ i n, ((bindStatement s).on { parameters := ps }).1 ≠ .error (.binding i n)) ∧
      (∀ record p after, (bindStatement s).on { parameters := ps } = (.ok (record, p), after) →
        after = { parameters := ps, position := s.placeholders } ∧
          (∃ used rest, ps = used ++ rest ∧ used.length = s.placeholders ∧
            Served ts s used record p) ∧
          ∀ more, (bindStatement s).on { parameters := ps ++ more } =
            (.ok (record, p), { parameters := ps ++ more, position := s.placeholders })) ∧
      (ps.length < s.placeholders →
        ∃ e after, (bindStatement s).on { parameters := ps } = (.error e, after) ∧
          ∀ i n, e = .binding i n → i = ps.length ∧ n = ps.length) := by
  have hderives : Derives ts s := by
    rw [Statement.parse, hlex] at hparse
    exact derives_of_ofTokens hparse
  have htokens := plainTokens_of_lex hlex hplain
  have hspends := spends_bindStatement s
  rw [← placeholders_of_derives hderives htokens hsides] at hspends
  rcases hspends.on ps with ⟨vs, rest, ⟨record, p⟩, rfl, hvs, hyields, hrun⟩ | ⟨e, after, hrun, he⟩
  · rw [hrun]
    refine ⟨fun _ i n h => ?_, fun record' p' after h => ?_, fun hlt => ?_⟩
    · cases h
    · cases h
      obtain ⟨used, rest', hsplit, hserved, hafter⟩ :=
        served_of_bindStatement hderives htokens hsides hrun
      have hlength : used.length = s.placeholders := congrArg Cursor.position hafter.symm
      refine ⟨rfl, ⟨used, rest', hsplit, hlength, hserved⟩, fun more => ?_⟩
      rw [List.append_assoc, hyields.on, hvs]
    · rw [List.length_append] at hlt
      omega
  · rw [hrun]
    refine ⟨fun hle i n h => ?_, fun record p after h => ?_, fun _ => ⟨e, after, rfl, fun i n h => ?_⟩⟩
    · have hlt := (he i n (Except.error.inj h)).1
      omega
    · cases h
    · exact (he i n h).2

/-- The tokens of the text that sets `name` under `id`. -/
def renameTokens : List Token :=
  .keyword .UPDATE :: .identifier "users" :: .keyword .SET ::
    (listTokens [equalsTokens "name"] ++ .keyword .WHERE :: equalsTokens "id")

/-- Of three parameters the third is left over, and one is too few. -/
theorem placeholder_accounting_rename :
    lex (updateText "users" "id" ["name"]).toList = .ok renameTokens ∧
      Statement.parse (updateText "users" "id" ["name"]) =
        .ok (updateStatement "users" "id" ["name"]) ∧
      (∃ record p,
        (bindStatement (updateStatement "users" "id" ["name"])).on
            { parameters := [.str "Ada", .ofInt 1, .null] } =
          (.ok (record, p), { parameters := [.str "Ada", .ofInt 1, .null], position := 2 }) ∧
        ∃ used rest, [.str "Ada", .ofInt 1, .null] = used ++ rest ∧ used.length = 2 ∧
          Served renameTokens (updateStatement "users" "id" ["name"]) used record p) ∧
      ∃ e after,
        (bindStatement (updateStatement "users" "id" ["name"])).on
            { parameters := [.str "Ada"] } = (.error e, after) ∧
          ∀ i n, e = .binding i n → i = 1 ∧ n = 1 := by
  have hlex : lex (updateText "users" "id" ["name"]).toList = .ok renameTokens :=
    lex_of_spells (spells_updateText "users" "id" ["name"])
  have hparse := parse_updateText "users" "id" "name" []
  have hplain : ∀ text, .identifier text ∈ renameTokens ∨ .text text ∈ renameTokens →
      '?' ∉ text.toList := by
    intro text h
    have hnames : text ∈ ["users", "name", "id"] := by
      simpa [renameTokens, listTokens, equalsTokens] using h
    have hall : ∀ name ∈ ["users", "name", "id"], '?' ∉ name.toList := by simp
    exact hall text hnames
  have hsides : ∀ k ∈ (updateStatement "users" "id" ["name"]).criteria.conditions,
      k.OneSided := by
    intro k hk
    obtain rfl := List.mem_singleton.1 hk
    exact .inl (by decide)
  obtain ⟨record, p, after, hrun⟩ : ∃ record p after,
      (bindStatement (updateStatement "users" "id" ["name"])).on
        { parameters := [.str "Ada", .ofInt 1, .null] } = (.ok (record, p), after) := ⟨_, _, _, rfl⟩
  obtain ⟨-, hserved, -⟩ :=
    placeholder_accounting hlex hparse hplain hsides [.str "Ada", .ofInt 1, .null]
  obtain ⟨-, -, hfails⟩ := placeholder_accounting hlex hparse hplain hsides [.str "Ada"]
  obtain ⟨rfl, hused, -⟩ := hserved record p after hrun
  exact ⟨hlex, hparse, ⟨record, p, hrun, hused⟩, hfails (by decide)⟩

end Schemaless
