import Schemaless.Proofs.Binding.Layout
import Schemaless.Proofs.Client.Removal

/-!
# Criteria in normal form

The criteria after `WHERE` have an item at least, and every group inside them has two: a chain of one
stands for its only link (`Sql.Criteria.normal_of_where`). So the predicate of the criteria has one entry,
and so has every predicate inside it: an operator on a field, or a connective over two predicates at least
(`Predicate.Formed`, `formed_bindCriterion_iff`). No part of it is empty, and a `DELETE` with `WHERE` does
not drop the collection.

A condition on a column that is named like a connective still escapes: its entry is read as a connective,
and without predicates under it a conjunction holds of every document (`where_clause_in_normal_form`,
`connective_column_is_no_condition`).
-/

namespace Schemaless

open Sql Grammar

/-! ## Where a clause stands -/

section

variable {ts us : List Token}

/-- The word that opens criteria. -/
abbrev Sql.Token.opening : Token := .keyword .WHERE

theorem opening_not_mem_name {name : String} (h : Name ts name) : Token.opening ∉ ts := by
  obtain ⟨hparts⟩ := h
  refine not_mem_separated (by decide) (fun us part hus => ?_) hparts
  obtain ⟨⟩ := hus
  simp

theorem opening_not_mem_operand {text : String} (h : Operand ts text) : Token.opening ∉ ts := by
  cases h with
  | name hname => exact opening_not_mem_name hname
  | placeholder | number _ | negative _ | text _ | truth | falsehood => simp

theorem opening_not_mem_shown {c : Column} (h : Shown ts c) : Token.opening ∉ ts := by
  cases h with
  | plain hname => exact opening_not_mem_name hname
  | labelled label hname | labelledAs label hname => simp [opening_not_mem_name hname]

theorem opening_not_mem_assignment {c : Column} (h : Assignment ts c) : Token.opening ∉ ts := by
  obtain ⟨hname, hvalue⟩ := h
  simp [opening_not_mem_name hname, opening_not_mem_operand hvalue]

theorem opening_not_mem_insertion {columns : List Column} (h : Insertion ts columns) :
    Token.opening ∉ ts := by
  obtain ⟨hnames, hvalues, -⟩ := h
  have hnone := not_mem_separated (t := Token.opening) (by decide) (fun _ _ => opening_not_mem_name) hnames
  have hnone' := not_mem_separated (t := Token.opening) (by decide) (fun _ _ => opening_not_mem_operand)
    hvalues
  simp [hnone, hnone']

/-- Criteria that are there are a disjunction. -/
theorem exists_disjunction_of_filter {c : Criteria} (h : Filter us c) (hopening : Token.opening ∈ us) :
    ∃ ts conjunctions, Disjunction ts conjunctions ∧ c = criteria conjunctions := by
  cases h with
  | absent => cases hopening
  | present hts => exact ⟨_, _, hts, rfl⟩

/-- The tokens of a statement have the word only in front of its criteria. -/
theorem exists_disjunction_of_derives {s : Statement} (h : Derives ts s) (hopening : Token.opening ∈ ts) :
    ∃ us conjunctions, Disjunction us conjunctions ∧ s.criteria = criteria conjunctions := by
  obtain @⟨ts, us, s, hbody, hend⟩ := h
  have hend : Token.opening ∉ us := by
    cases hend with
    | bare => exact List.not_mem_nil
    | semicolon => simp
  have hin := (List.mem_append.1 hopening).resolve_right hend
  cases hbody with
  | selectAll table hfilter =>
    exact exists_disjunction_of_filter hfilter (by simpa using hin)
  | select table hshown hfilter =>
    have hnone := not_mem_separated (t := Token.opening) (by decide) (fun _ _ => opening_not_mem_shown)
      hshown
    exact exists_disjunction_of_filter hfilter (by simpa [hnone] using hin)
  | insert table hinsertion =>
    exact absurd hin (by simp [opening_not_mem_insertion hinsertion])
  | update table hassigned hfilter =>
    have hnone := not_mem_separated (t := Token.opening) (by decide)
      (fun _ _ => opening_not_mem_assignment) hassigned
    exact exists_disjunction_of_filter hfilter (by simpa [hnone] using hin)
  | delete table hfilter =>
    exact exists_disjunction_of_filter hfilter (by simpa using hin)

end

/-! ## Criteria -/

namespace Sql

/-- Every group has at least two items. -/
inductive Criterion.Normal : Criterion → Prop
  | condition (k : Condition) : Normal (.condition k)
  | group {logical : Option String} {items : List Criterion} : 2 ≤ items.length →
      (∀ item ∈ items, item.Normal) → Normal (.group logical items)

/-- There is some item, and every group among the items and inside them has at least two. -/
structure Criteria.Normal (c : Criteria) : Prop where
  nonempty : c.items ≠ []
  items : ∀ item ∈ c.items, item.Normal

theorem separated_ne_nil {α : Type} {separator : Token} {Phrase : List Token → α → Prop}
    {ts : List Token} {as : List α} (h : Separated separator Phrase ts as) : as ≠ [] := by
  cases h <;> exact List.cons_ne_nil _ _

theorem Criterion.normal_nested {connective : String} {links : List Criterion} (hne : links ≠ [])
    (h : ∀ link ∈ links, link.Normal) : (nested connective links).Normal := by
  cases links with
  | nil => exact absurd rfl hne
  | cons first rest =>
    cases rest with
    | nil => exact h first List.mem_cons_self
    | cons second rest =>
      exact .group (by simp only [List.length_cons]; omega) h

theorem Criterion.normal_conjunctions {conjunctions : List (List Criterion)}
    (h : ∀ links ∈ conjunctions, links ≠ [] ∧ ∀ link ∈ links, link.Normal) :
    ∀ item ∈ conjunctions.map (nested "AND"), item.Normal := by
  intro item hitem
  obtain ⟨links, hlinks, rfl⟩ := List.mem_map.1 hitem
  exact Criterion.normal_nested (h links hlinks).1 (h links hlinks).2

-- along the derivation: a criterion, a chain of them, and chains joined by OR

mutual

theorem Criterion.normal_of_unary {ts : List Token} {c : Criterion} : Unary ts c → c.Normal
  | .negated _ => .condition _
  | .group h => by
    have hconjunctions := Criterion.normal_of_disjunction h
    have hne := separated_ne_nil h
    exact Criterion.normal_nested (by simpa using hne) (Criterion.normal_conjunctions hconjunctions)
  | .condition _ => .condition _

theorem Criterion.normal_of_conjunction {ts : List Token} {links : List Criterion} :
    Conjunction ts links → ∀ link ∈ links, link.Normal
  | .one h => by simpa using Criterion.normal_of_unary h
  | .more h h' => List.forall_mem_cons.2
      ⟨Criterion.normal_of_unary h, Criterion.normal_of_conjunction h'⟩

theorem Criterion.normal_of_disjunction {ts : List Token} {conjunctions : List (List Criterion)} :
    Disjunction ts conjunctions → ∀ links ∈ conjunctions, links ≠ [] ∧ ∀ link ∈ links, link.Normal
  | .one h => by simpa using ⟨separated_ne_nil h, Criterion.normal_of_conjunction h⟩
  | .more h h' => List.forall_mem_cons.2
      ⟨⟨separated_ne_nil h, Criterion.normal_of_conjunction h⟩, Criterion.normal_of_disjunction h'⟩

end

/-- The criteria of a clause are in normal form. -/
theorem Criteria.normal_criteria {ts : List Token} {conjunctions : List (List Criterion)}
    (h : Disjunction ts conjunctions) : (criteria conjunctions).Normal := by
  have hconjunctions := Criterion.normal_of_disjunction h
  cases h with
  | @one ts links hlinks => exact (hconjunctions links List.mem_cons_self).elim .mk
  | @more ts us links rest hlinks hrest =>
    have hne := separated_ne_nil hrest
    obtain ⟨second, rest, rfl⟩ := List.exists_cons_of_ne_nil hne
    exact ⟨List.cons_ne_nil _ _, Criterion.normal_conjunctions hconjunctions⟩

end Sql

/-! ## Predicates -/

namespace Predicate

/-- The entries of a predicate in normal form: an operator on a field, or a connective over at least two
predicates in normal form. -/
inductive Formed (Field : String → Prop) : List (String × Value) → Prop
  | field {name : String} (o : Operator) (v : Value) : Field name → Formed Field [(name, o.build v)]
  | joined {name : String} {subs : List (List (String × Value))} : name = andName ∨ name = orName →
      2 ≤ subs.length → (∀ sub ∈ subs, Formed Field sub) →
        Formed Field [(name, .arr (subs.map .obj))]

variable {Field : String → Prop} {name : String}

theorem formed_single_iff (o : Operator) (v : Value) :
    Formed Field (Predicate.single name (o.build v)).entries ↔ Field name := by
  have hentries : (Predicate.single name (o.build v)).entries = [(name, o.build v)] := rfl
  rw [hentries]
  constructor
  · generalize hone : [(name, o.build v)] = entries
    intro h
    cases h with
    | field o' v' hfield =>
      simp only [List.cons.injEq, Prod.mk.injEq, and_true] at hone
      rwa [hone.1]
    | joined hname hsubs hformed => simp [Operator.build] at hone
  · exact .field o v

theorem formed_joined_iff {subs : List (List (String × Value))} (hname : name = andName ∨ name = orName)
    (hsubs : 2 ≤ subs.length) :
    Formed Field (Predicate.single name (.arr (subs.map .obj))).entries ↔
      ∀ sub ∈ subs, Formed Field sub := by
  have hentries : (Predicate.single name (.arr (subs.map .obj))).entries =
    [(name, .arr (subs.map .obj))] := rfl
  rw [hentries]
  constructor
  · generalize hone : [(name, Value.arr (subs.map .obj))] = entries
    intro h
    cases h with
    | field o v hfield => simp [Operator.build] at hone
    | joined hname' hsubs' hformed =>
      simp only [List.cons.injEq, Prod.mk.injEq, Value.arr.injEq, and_true] at hone
      have hinjective : Function.Injective Value.obj := fun a b h => Value.obj.inj h
      rwa [List.map_injective_iff.2 hinjective hone.2]
  · exact .joined hname hsubs

theorem Formed.isEmpty_eq_false {p : Predicate} (h : Formed Field p.entries) : p.isEmpty = false := by
  rw [SortedMap.isEmpty]
  generalize p.entries = entries at h
  cases h <;> rfl

end Predicate

/-! ## From criteria to predicates -/

theorem connective_cases (logical : Option String) :
    connective logical = andName ∨ connective logical = orName := by
  rw [connective_eq]
  split
  · exact .inr rfl
  · exact .inl rfl

section

variable {Field : String → Prop}

theorem bindCriterion_group {logical : Option String} {items : List Criterion}
    (h : 2 ≤ items.length) :
    bindCriterion (.group logical items) =
      (fun ps => Predicate.single (connective logical) (.arr ps)) <$> bindItems items := by
  obtain ⟨first, rest, rfl⟩ := List.exists_cons_of_length_pos (l := items) (by omega)
  rw [List.length_cons] at h
  obtain ⟨second, rest, rfl⟩ := List.exists_cons_of_length_pos (l := rest) (by omega)
  rw [bindCriterion, bindGroup_of_two]

-- over the tree, a node together with the items of a group

mutual

/-- The predicate of a node in normal form is in normal form, with the fields of its conditions. -/
theorem formed_bindCriterion_iff : (c : Criterion) → c.Normal → ∀ {cursor after : Cursor} {p : Predicate},
    (bindCriterion c).on cursor = (.ok p, after) →
      (Predicate.Formed Field p.entries ↔ ∀ k ∈ c.conditions, Field k.field)
  | .condition k, _, _, _, _, h => by
    obtain ⟨o, v, rfl⟩ := exists_build_of_bindCondition h
    rw [Predicate.formed_single_iff, Criterion.conditions, List.forall_mem_singleton]
  | .group logical items, hnormal, _, _, _, h => by
    obtain ⟨hitems, hnormal⟩ : 2 ≤ items.length ∧ ∀ item ∈ items, item.Normal := by
      cases hnormal with
      | group hlength hall => exact ⟨hlength, hall⟩
    rw [bindCriterion_group hitems] at h
    obtain ⟨ps, hps, rfl⟩ := Effect.map_eq_ok.1 h
    obtain ⟨subs, rfl, hlength, hsubs⟩ := formed_bindItems_iff items hnormal hps
    exact (Predicate.formed_joined_iff (connective_cases logical) (by omega)).trans hsubs

theorem formed_bindItems_iff : (items : List Criterion) → (∀ item ∈ items, item.Normal) →
    ∀ {cursor after : Cursor} {ps : List Value}, (bindItems items).on cursor = (.ok ps, after) →
      ∃ subs : List (List (String × Value)), ps = subs.map .obj ∧ subs.length = items.length ∧
        ((∀ sub ∈ subs, Predicate.Formed Field sub) ↔ ∀ k ∈ itemConditions items, Field k.field)
  | [], _, _, _, _, h => by
    cases h
    exact ⟨[], rfl, rfl, iff_of_true (List.forall_mem_nil _) (List.forall_mem_nil _)⟩
  | first :: rest, hnormal, _, _, _, h => by
    obtain ⟨hfirst, hrest⟩ := List.forall_mem_cons.1 hnormal
    obtain ⟨p, _, hp, h⟩ := Effect.bind_eq_ok.1 h
    obtain ⟨ps, _, hps, h⟩ := Effect.bind_eq_ok.1 h
    cases h
    obtain ⟨subs, rfl, hlength, hsubs⟩ := formed_bindItems_iff rest hrest hps
    refine ⟨p.entries :: subs, rfl, congrArg (· + 1) hlength, ?_⟩
    rw [List.forall_mem_cons, itemConditions, List.forall_mem_append, hsubs,
      formed_bindCriterion_iff first hfirst hp]

end

end

/-! ## Predicates of a statement -/

/-- The fields that criteria ask for. A condition that stands alone on the key column asks for the native
key. -/
def Sql.Criteria.fields (config : Config) (table : String) (c : Criteria) : List String :=
  match c.items with
  | [.condition k] => [if k.field = config.keyOf table then nativeKey else k.field]
  | items => (itemConditions items).map fun k => k.field

theorem Sql.Criteria.fields_of_ne {c : Criteria} (h : ∀ k, c.items ≠ [.condition k]) (config : Config)
    (table : String) : c.fields config table = c.conditions.map fun k => k.field := by
  unfold fields
  split
  · next k hitems => exact absurd hitems (h k)
  · rfl

/-- Criteria in normal form other than a single condition are bound like one group. -/
theorem Sql.Criteria.Normal.exists_group {c : Criteria} (h : c.Normal)
    (hsole : ¬∃ k, c.items = [.condition k]) :
    ∃ logical items, (Criterion.group logical items).Normal ∧
      bindGroup c.logical c.items = bindCriterion (.group logical items) ∧
      c.conditions = (Criterion.group logical items).conditions := by
  obtain ⟨logical, items⟩ := c
  obtain ⟨hne, hall⟩ := h
  rcases items with - | ⟨item, - | ⟨second, rest⟩⟩
  · exact absurd rfl hne
  · cases item with
    | condition k => exact absurd ⟨k, rfl⟩ hsole
    | group logical' items => exact ⟨logical', items, hall _ List.mem_cons_self, rfl, List.append_nil _⟩
  · exact ⟨logical, _, .group (by simp only [List.length_cons]; omega) hall, rfl, rfl⟩

section

variable {c : Config} {t : Statement} {cursor after : Cursor} {p : Predicate}

/-- The predicate of a group is on no key column. -/
theorem resolveKey_of_group {table : String} {logical : Option String} {items : List Criterion}
    (hand : c.keyOf table ≠ andName) (hor : c.keyOf table ≠ orName) (hitems : 2 ≤ items.length)
    (h : (bindCriterion (.group logical items)).on cursor = (.ok p, after)) :
    resolveKey c table true p = p := by
  rw [bindCriterion_group hitems] at h
  obtain ⟨ps, -, rfl⟩ := Effect.map_eq_ok.1 h
  refine resolveKey_single_of_ne (fun hname => ?_) _
  rcases connective_cases logical with h | h
  · exact hand (hname.symm.trans h)
  · exact hor (hname.symm.trans h)

theorem formed_keyedPredicate_iff {Field : String → Prop} (hnormal : t.criteria.Normal)
    (hand : c.keyOf t.table ≠ andName) (hor : c.keyOf t.table ≠ orName)
    (h : (keyedPredicate c t).on cursor = (.ok p, after)) :
    Predicate.Formed Field p.entries ↔ ∀ name ∈ t.criteria.fields c t.table, Field name := by
  obtain ⟨q, hq, rfl⟩ : ∃ q, (bindCriteria t.criteria).on cursor = (.ok q, after) ∧
      resolveKey c t.table true q = p := by
    rw [keyedPredicate, ← map_eq_pure_bind] at h
    obtain ⟨q, hq, hp⟩ := Effect.map_eq_ok.1 h
    exact ⟨q, hq, hp⟩
  rw [bindCriteria] at hq
  by_cases hsole : ∃ k, t.criteria.items = [.condition k]
  · obtain ⟨k, hk⟩ := hsole
    rw [hk] at hq
    obtain ⟨o, v, rfl⟩ := exists_build_of_bindCondition hq
    rw [resolveKey_single_eq, Predicate.formed_single_iff, Criteria.fields, hk]
    exact List.forall_mem_singleton.symm
  · obtain ⟨logical, items, hgroup, hbind, hconditions⟩ := hnormal.exists_group hsole
    rw [hbind] at hq
    have hitems : 2 ≤ items.length := by
      cases hgroup
      assumption
    rw [resolveKey_of_group hand hor hitems hq, formed_bindCriterion_iff _ hgroup hq,
      Criteria.fields_of_ne (fun k hk => hsole ⟨k, hk⟩), List.forall_mem_map, hconditions]

/-- Without a condition on a column named like a connective, no entry of the predicate is taken for a
connective that it is not. -/
theorem proper_fields_iff (hand : c.keyOf t.table ≠ andName) (hor : c.keyOf t.table ≠ orName) :
    (∀ name ∈ t.criteria.fields c t.table, name ≠ andName ∧ name ≠ orName) ↔
      ∀ k ∈ t.criteria.conditions, k.OnField := by
  by_cases hsole : ∃ k, t.criteria.items = [.condition k]
  · obtain ⟨k, hk⟩ := hsole
    have hconditions : t.criteria.conditions = [k] := by
      rw [Criteria.conditions, hk]
      rfl
    rw [Criteria.fields, hk, hconditions, List.forall_mem_singleton, List.forall_mem_singleton,
      Condition.OnField]
    split
    · next hkey => exact iff_of_true (by decide) (hkey ▸ ⟨hand, hor⟩)
    · exact Iff.rfl
  · rw [Criteria.fields_of_ne fun k hk => hsole ⟨k, hk⟩, List.forall_mem_map]
    exact Iff.rfl

/-- A `DELETE` with criteria removes through their predicate. -/
theorem modify_delete_of_criteria (hkind : t.kind = .delete) (hne : t.criteria.items ≠ [])
    (parameters : List Value) :
    modify c t parameters = bound parameters (keyedPredicate c t) >>= fun p =>
      (Store.remove (t.place c) p).onTable t.table := by
  rw [modify, hkind]
  show runDelete c t parameters = _
  rw [runDelete, if_neg (by simpa using hne)]

/-- A `DELETE` with criteria leaves every collection there. -/
theorem isSome_collection?_of_delete (hkind : t.kind = .delete) (hne : t.criteria.items ≠ [])
    (parameters : List Value) {s : Store} {q : Place} (hq : (s.catalog.collection? q).isSome) :
    (((modify c t parameters).on s).2.catalog.collection? q).isSome := by
  rw [modify_delete_of_criteria hkind hne, Effect.on_bind, on_bound]
  cases ((keyedPredicate c t).on { parameters }).1 with
  | error e => exact hq
  | ok p =>
    show (((Store.remove (t.place c) p).onTable t.table).on s).2.catalog.collection? q |>.isSome
    rw [Store.on_onTable, Store.on_remove]
    split
    · exact hq
    · split
      · exact hq
      · rw [Catalog.collection?_put]
        split
        · rfl
        · exact hq

end

/-! ## Statements with a clause -/

theorem Sql.Criteria.normal_of_parse {sql : String} {ts : List Token} {t : Statement}
    (hlex : lex sql.toList = .ok ts) (hopening : Token.keyword .WHERE ∈ ts)
    (hparse : Statement.parse sql = .ok t) : t.criteria.Normal := by
  rw [Statement.parse, hlex] at hparse
  obtain ⟨us, conjunctions, hclause, hcriteria⟩ :=
    exists_disjunction_of_derives (derives_of_ofTokens hparse) hopening
  rw [hcriteria]
  exact Criteria.normal_criteria hclause

/-- The criteria of a text with a `WHERE` that is read are in normal form. Where they are translated, the
predicate has one entry, an operator on a field that they ask for or a connective over two predicates at
least, and so have all predicates inside it. A `DELETE` runs with this predicate, so it drops no
collection. An entry is taken for a connective, though it has no predicates under it, exactly if some
condition is on a column named like one. -/
theorem where_clause_in_normal_form {sql : String} {ts : List Token} {t : Statement}
    (hlex : lex sql.toList = .ok ts) (hopening : Token.keyword .WHERE ∈ ts)
    (hparse : Statement.parse sql = .ok t) :
    t.criteria.Normal ∧
      ∀ c : Config, c.keyOf t.table ≠ andName → c.keyOf t.table ≠ orName →
        (∀ cursor p after, (keyedPredicate c t).on cursor = (.ok p, after) →
          p.isEmpty = false ∧
          Predicate.Formed (· ∈ t.criteria.fields c t.table) p.entries ∧
          (Predicate.Formed (fun name => name ≠ andName ∧ name ≠ orName) p.entries ↔
            ∀ k ∈ t.criteria.conditions, k.OnField)) ∧
        (t.kind = .delete → ∀ parameters,
          (modify c t parameters = bound parameters (keyedPredicate c t) >>= fun p =>
            (Store.remove (t.place c) p).onTable t.table) ∧
          ∀ (s : Store) (q : Place), (s.catalog.collection? q).isSome →
            (((modify c t parameters).on s).2.catalog.collection? q).isSome) := by
  have hnormal := Criteria.normal_of_parse hlex hopening hparse
  refine ⟨hnormal, fun c hand hor => ⟨fun cursor p after hp => ?_, fun hkind parameters => ⟨?_, ?_⟩⟩⟩
  · have hformed : Predicate.Formed (· ∈ t.criteria.fields c t.table) p.entries :=
      (formed_keyedPredicate_iff hnormal hand hor hp).2 fun _ => id
    refine ⟨hformed.isEmpty_eq_false, hformed, ?_⟩
    rw [formed_keyedPredicate_iff hnormal hand hor hp, proper_fields_iff hand hor]
  · exact modify_delete_of_criteria hkind hnormal.nonempty parameters
  · exact fun s q hq => isSome_collection?_of_delete hkind hnormal.nonempty parameters hq

/-- The criteria that the key and the name equal parameters. -/
def keyAndNameText : String := askText "id" ++ " AND " ++ askText "name"

/-- `DELETE FROM users WHERE id = ? AND name = ?`, with the names quoted. -/
def keyAndNameTokens : List Token :=
  [.keyword .DELETE, .keyword .FROM, .identifier "users", .keyword .WHERE] ++
    (equalsTokens "id" ++ .keyword .AND :: equalsTokens "name")

/-- What the tokens mean. -/
def deleteKeyAndName : Statement :=
  rowsOf .delete "users" { logical := some "AND", items :=
    [.condition (equalCondition "id" "?"), .condition (equalCondition "name" "?")] } 2

theorem derives_keyAndNameTokens :
    Derives keyAndNameTokens deleteKeyAndName := by
  have hcondition (column : String) :
      Unary (equalsTokens column) (.condition (equalCondition column "?")) :=
    .condition (.comparison (.name (name_identifier column)) (by decide) .placeholder)
  have hclause : Disjunction (equalsTokens "id" ++ .keyword .AND :: equalsTokens "name") _ :=
    .one (.more (hcondition "id") (.one (hcondition "name")))
  exact .mk (.delete "users" (.present hclause)) .bare

theorem lex_keyAndNameText :
    lex ("DELETE FROM " ++ rowsText "users" keyAndNameText).toList = .ok keyAndNameTokens := by
  have htext : keyAndNameText.toList =
      (askText "id").toList ++ ' ' :: ("AND".toList ++ ' ' :: (askText "name").toList) := by
    simp [keyAndNameText]
  have hspells : Spells keyAndNameText.toList
      (equalsTokens "id" ++ .keyword .AND :: equalsTokens "name") := by
    rw [htext]
    exact (spells_askText "id").append
      ((spells_askText "name").spacedKeyword (by simp [Keyword.table])).space (setOff_space _)
  rw [lex_deleteFrom, lex_of_spells (spells_rowsText hspells "users")]
  rfl

theorem where_clause_in_normal_form_keyAndName :
    lex ("DELETE FROM " ++ rowsText "users" keyAndNameText).toList = .ok keyAndNameTokens ∧
      Token.keyword .WHERE ∈ keyAndNameTokens ∧
      Statement.parse ("DELETE FROM " ++ rowsText "users" keyAndNameText) = .ok deleteKeyAndName ∧
      deleteKeyAndName.criteria.Normal ∧ localClient.config.keyOf "users" ≠ andName ∧
      localClient.config.keyOf "users" ≠ orName ∧
      (∃ p after, (keyedPredicate localClient.config deleteKeyAndName).on
          { parameters := [.ofInt 1, .str "Ada"] } = (.ok p, after) ∧
        Predicate.Formed (fun name => name ≠ andName ∧ name ≠ orName) p.entries) ∧
      (((modify localClient.config deleteKeyAndName [.ofInt 1, .str "Ada"]).on
        twoUsers).2.catalog.collection? ⟨"mydb", "users"⟩).isSome := by
  have hopening : Token.keyword .WHERE ∈ keyAndNameTokens := by decide
  have hparse : Statement.parse ("DELETE FROM " ++ rowsText "users" keyAndNameText) =
      .ok deleteKeyAndName := by
    rw [Statement.parse, lex_keyAndNameText]
    exact ofTokens_of_derives derives_keyAndNameTokens
  have hand : localClient.config.keyOf "users" ≠ andName := by decide
  have hor : localClient.config.keyOf "users" ≠ orName := by decide
  obtain ⟨hnormal, hclause⟩ := where_clause_in_normal_form lex_keyAndNameText hopening hparse
  obtain ⟨hpredicate, hdelete⟩ := hclause localClient.config hand hor
  refine ⟨lex_keyAndNameText, hopening, hparse, hnormal, hand, hor, ⟨_, _, rfl, ?_⟩, ?_⟩
  · obtain ⟨-, -, hproper⟩ := hpredicate { parameters := [.ofInt 1, .str "Ada"] } _ _ rfl
    exact hproper.2 (by decide +kernel)
  · exact (hdelete rfl _).2 twoUsers _ rfl

/-- The local store with two users: a `DELETE` where the column `$and` equals a parameter removes both. -/
theorem connective_column_is_no_condition :
    ∃ ts t p s', lex ("DELETE FROM " ++ rowsText "users" (askText andName)).toList = .ok ts ∧
      Token.keyword .WHERE ∈ ts ∧
      Statement.parse ("DELETE FROM " ++ rowsText "users" (askText andName)) = .ok t ∧
      t.kind = .delete ∧ localClient.config.keyOf t.table ≠ andName ∧
      localClient.config.keyOf t.table ≠ orName ∧
      ((keyedPredicate localClient.config t).on { parameters := [.ofInt 1] }).1 = .ok p ∧
      ¬Predicate.Formed (fun name => name ≠ andName ∧ name ≠ orName) p.entries ∧
      (∀ d, p.holds d = true) ∧
      (modify localClient.config t [.ofInt 1]).on twoUsers = (.ok 2, s') ∧
      s'.documentsAt ⟨"mydb", "users"⟩ = [] := by
  have hlex : lex ("DELETE FROM " ++ rowsText "users" (askText andName)).toList =
      .ok ([.keyword .DELETE, .keyword .FROM, .identifier "users", .keyword .WHERE] ++
        equalsTokens andName) := by
    rw [lex_deleteFrom, lex_of_spells (spells_rowsText (spells_askText andName) "users")]
    rfl
  have hp : ((keyedPredicate localClient.config (rowsOf .delete "users" (keyCriteria andName) 1)).on
      { parameters := [.ofInt 1] }).1 =
        .ok (Predicate.single andName (Operator.equal.build (.ofInt 1))) := rfl
  have hall (d : Document) :
      (Predicate.single andName (Operator.equal.build (.ofInt 1))).holds d = true := by
    rw [holds_single_entry, Predicate.entryHolds, if_pos rfl]
    rfl
  obtain ⟨s', hdelete, hremoved, -⟩ := on_modify_delete (s := twoUsers) rfl rfl hp
  have hboth : (twoUsers.documentsAt ⟨"mydb", "users"⟩).filter
      (Predicate.single andName (Operator.equal.build (.ofInt 1))).holds =
        twoUsers.documentsAt ⟨"mydb", "users"⟩ := List.filter_eq_self.2 fun d _ => hall d
  have hnone : (twoUsers.documentsAt ⟨"mydb", "users"⟩).filter (fun d =>
      !(Predicate.single andName (Operator.equal.build (.ofInt 1))).holds d) = [] :=
    List.filter_eq_nil_iff.2 fun d _ => by simp [hall d]
  refine ⟨_, _, _, s', hlex, by decide, parse_deleteFrom_askText "users" andName, rfl, by decide,
    by decide, hp, ?_, hall, ?_, ?_⟩
  · rw [Predicate.formed_single_iff]
    exact fun h => h.1 rfl
  · exact hdelete.trans (congrArg (fun ds : Collection => (Except.ok ds.length, s')) hboth)
  · exact hremoved.left.trans hnone

end Schemaless
