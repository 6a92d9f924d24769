import Schemaless.Proofs.Sql.Grammar
import Schemaless.Proofs.Store.LogicalKey

/-!
# Two conditions joined

`WHERE a AND b` selects what both conditions select, `WHERE a OR b` what one of them does, and a `DELETE`
removes as much: so say the predicates of the conditions (`holds_joined`). But the key is resolved at the
top of a predicate only. A condition on the key column that stands alone asks for the native key, and
inside a group it asks for the column, so the two agree where the documents have agreeing keys
(`joined_conditions`) and not in general: a document without the key column is found by the value of its
native key, and not by this condition joined with another (`joined_condition_misses_key`).
-/

namespace Schemaless

open Sql

/-! ## What criteria select -/

/-- Statements for a table with these criteria select the documents that pass a test: a `SELECT` answers
with their rows, a `DELETE` removes them and counts them. -/
structure Selects (c : Config) (table : String) (criteria : Criteria) (parameters : List Value)
    (s : Store) (test : Document → Bool) : Prop where
  read : ∀ t, t.kind = .select → t.table = table → t.criteria = criteria →
    select c t parameters s =
      .ok (((s.documentsAt ⟨c.database, table⟩).filter test).map (Row.ofDocument t))
  delete : ∀ t, t.kind = .delete → t.table = table → t.criteria = criteria → s.readOnly = false →
    ∃ s', (modify c t parameters).on s =
        (.ok ((s.documentsAt ⟨c.database, table⟩).filter test).length, s') ∧
      s'.documentsAt ⟨c.database, table⟩ =
        (s.documentsAt ⟨c.database, table⟩).filter fun d => !test d

section

variable {c : Config} {table : String} {parameters : List Value} {s : Store}

/-- A removal leaves what it does not count. -/
theorem Store.on_remove_of_writable {p : Place} (hw : s.readOnly = false) (filter : Predicate) :
    ∃ s', (remove p filter).on s = (.ok ((s.documentsAt p).filter filter.holds).length, s') ∧
      s'.documentsAt p = (s.documentsAt p).filter fun d => !filter.holds d := by
  rcases hrun : (remove p filter).on s with ⟨e | n, s'⟩
  · rw [on_remove, if_neg (by simp [hw])] at hrun
    split at hrun <;> cases hrun
  · refine ⟨s', by rw [affected_of_remove hrun], ?_⟩
    rw [on_remove, if_neg (by simp [hw])] at hrun
    cases hat : Catalog.collection? s.catalog p with
    | none =>
      have hds : s.documentsAt p = [] := by rw [documentsAt, Catalog.documents, hat]; rfl
      rw [hat] at hrun
      cases hrun
      rw [hds]
      rfl
    | some ds =>
      have hds : s.documentsAt p = ds := Catalog.documents_of_collection? hat
      rw [hat] at hrun
      cases hrun
      rw [documentsAt, Catalog.documents_put, if_pos rfl, hds]

theorem selects_of_bound {criteria : Criteria} {p : Predicate} {test : Document → Bool}
    (hitems : criteria.items.isEmpty = false)
    (hbound : ((bindCriteria criteria).on { parameters }).1 = .ok p)
    (htest : ∀ d ∈ s.documentsAt ⟨c.database, table⟩,
      Predicate.holds (resolveKey c table true p) d = test d) :
    Selects c table criteria parameters s test where
  read := by
    rintro t hkind rfl rfl
    rw [select_eq hkind, on_keyedPredicate, hbound]
    simp only [Except.map, Statement.place, List.filter_congr htest]
  delete := by
    rintro t hkind rfl rfl hw
    obtain ⟨s', hrun, hleft⟩ :=
      Store.on_remove_of_writable (p := t.place c) hw (resolveKey c t.table true p)
    have hkept := List.filter_congr (l := s.documentsAt (t.place c))
      (p := fun d => !Predicate.holds (resolveKey c t.table true p) d) (q := fun d => !test d)
      fun d hd => by rw [htest d hd]
    refine ⟨s', ?_, ?_⟩
    · rw [modify, hkind]
      show (runDelete c t parameters).on s = _
      rw [on_runDelete, if_neg (by simp [hitems]), on_keyedPredicate, hbound]
      show ((Store.remove (t.place c) (resolveKey c t.table true p)).onTable t.table).on s = _
      rw [Store.onTable_eq_ok, hrun, Statement.place, List.filter_congr htest]
    · rw [← Statement.place, hleft, hkept]

/-! ## Conditions -/

/-- A condition that is bound asks its field what an operator builds of a value. -/
theorem exists_build_of_bindCondition {k : Sql.Condition} {cursor after : Cursor} {p : Predicate}
    (h : (bindCondition k).on cursor = (.ok p, after)) :
    ∃ o v, p = Predicate.single k.field (Operator.build o v) := by
  obtain ⟨o, _, -, hrest⟩ := Effect.bind_eq_ok.1 h
  obtain ⟨v, _, -, hpure⟩ := Effect.bind_eq_ok.1 hrest
  cases hpure
  exact ⟨o, v, rfl⟩

theorem bindCondition_eq_ok {k : Sql.Condition} {cursor after : Cursor} {p : Predicate}
    (h : (bindCondition k).on cursor = (.ok p, after)) :
    ∃ condition, p = Predicate.single k.field condition := by
  obtain ⟨o, v, hp⟩ := exists_build_of_bindCondition h
  exact ⟨o.build v, hp⟩

/-- A condition without placeholders binds the same wherever the cursor stands, and leaves it there. -/
theorem on_bindCondition_of_no_placeholder {k : Sql.Condition} {p : Predicate} {after : Cursor}
    (hleft : hasPlaceholder k.left = false) (hright : hasPlaceholder k.right = false)
    (h : (bindCondition k).on { parameters } = (.ok p, after)) :
    (bindCondition k).on { parameters } = (.ok p, { parameters }) := by
  have hnone : placeholderCount k.expression = 0 := by
    have hmark : hasPlaceholder k.expression = false := by
      rw [Condition.expression]
      split
      · exact hleft
      · exact hright
    exact List.count_eq_zero.2 (by simpa [hasPlaceholder] using hmark)
  have htakes := (spends_bindCondition k).takes
  rw [hnone] at htakes
  obtain ⟨vs, rest, hsplit, hvs, hyields⟩ := htakes [] parameters p after h
  obtain rfl := List.length_eq_zero_iff.1 hvs
  exact hyields [] parameters

theorem resolveKey_single_of_ne {name : String} (h : name ≠ c.keyOf table) (condition : Value) :
    resolveKey c table true (Predicate.single name condition) = Predicate.single name condition := by
  by_cases hnative : name = nativeKey
  · subst hnative
    exact resolveKey_single (.inl rfl) condition
  · rw [resolveKey_of_missing (by rw [get?_single, if_neg (Ne.symm hnative)]), get?_single,
      if_neg (Ne.symm h)]

/-- The entry of a predicate with one entry moves to the native key if it is under the key column. -/
theorem resolveKey_single_eq (c : Config) (table name : String) (condition : Value) :
    resolveKey c table true (Predicate.single name condition) =
      Predicate.single (if name = c.keyOf table then nativeKey else name) condition := by
  split
  · next hkey => exact resolveKey_single (.inr hkey) condition
  · next hkey => exact resolveKey_single_of_ne hkey condition

/-- A group of two is the conjunction or the disjunction of its predicates. -/
theorem holds_joined (logical : Option String) (p q : Predicate) (d : Document) :
    (Predicate.single (connective logical) (.arr [.obj p.entries, .obj q.entries])).holds d =
      if isDisjunction logical then p.holds d || q.holds d else p.holds d && q.holds d := by
  have hq (otherwise : Bool) : Predicate.subHolds d otherwise (.obj q.entries) = q.holds d := by
    rw [Predicate.subHolds, Predicate.holds]
  rw [Predicate.holds_single_connective, List.map_cons, List.map_nil, hq]
  show (if isDisjunction logical then _ else _) = _
  split <;> simp

/-! ## Conditions joined -/

theorem on_bindCriteria_pair {k₁ k₂ : Sql.Condition} {p₁ p₂ : Predicate} (logical : Option String)
    (h₁ : (bindCondition k₁).on { parameters } = (.ok p₁, { parameters }))
    {after : Cursor} (h₂ : (bindCondition k₂).on { parameters } = (.ok p₂, after)) :
    ((bindCriteria { logical, items := [.condition k₁, .condition k₂] }).on { parameters }).1 =
      .ok (Predicate.single (connective logical) (.arr [.obj p₁.entries, .obj p₂.entries])) := by
  have hgroup : bindCriteria { logical, items := [.condition k₁, .condition k₂] } =
      bindCondition k₁ >>= fun p => bindCondition k₂ >>= fun q =>
        pure (Predicate.single (connective logical) (.arr [.obj p.entries, .obj q.entries])) := by
    simp only [bindCriteria, bindGroup, bindItems, bindCriterion, bind_assoc, pure_bind]
  rw [hgroup, Effect.on_bind, h₁]
  simp only [Effect.on_bind, h₂]
  rfl

theorem exists_predicate_of_select {t : Statement} {k : Sql.Condition} {rows : List Row}
    (hkind : t.kind = .select)
    (h : select c { t with criteria := Grammar.criteria [[.condition k]] } parameters s = .ok rows) :
    ∃ p after, (bindCondition k).on { parameters } = (.ok p, after) := by
  rw [select_eq (by exact hkind), on_keyedPredicate] at h
  change Except.map _ (((bindCondition k).on { parameters }).1.map _) = _ at h
  rcases hrun : (bindCondition k).on { parameters } with ⟨e | p, after⟩
  · rw [hrun] at h
    cases h
  · exact ⟨p, after, rfl⟩

/-- Two conditions select documents each, `AND` those that both select and `OR` those that one of them
does. -/
def SelectTogether (c : Config) (table : String) (k₁ k₂ : Sql.Condition) (parameters : List Value)
    (s : Store) : Prop :=
  ∃ test₁ test₂ : Document → Bool,
    Selects c table (Grammar.criteria [[.condition k₁]]) parameters s test₁ ∧
    Selects c table (Grammar.criteria [[.condition k₂]]) parameters s test₂ ∧
    Selects c table (Grammar.criteria [[.condition k₁, .condition k₂]]) parameters s
      (fun d => test₁ d && test₂ d) ∧
    Selects c table (Grammar.criteria [[.condition k₁], [.condition k₂]]) parameters s
      (fun d => test₁ d || test₂ d)

/-- Two conditions that run alone select together, provided that the documents have agreeing keys where a
condition is on the key column. -/
theorem joined_conditions {t : Statement} {k₁ k₂ : Sql.Condition} {rows₁ rows₂ : List Row}
    (hand : c.keyOf t.table ≠ andName) (hor : c.keyOf t.table ≠ orName)
    (hkeys : k₁.field = c.keyOf t.table ∨ k₂.field = c.keyOf t.table →
      ∀ d ∈ s.documentsAt ⟨c.database, t.table⟩, d.KeysAgree (c.keyOf t.table))
    (hleft : hasPlaceholder k₁.left = false) (hright : hasPlaceholder k₁.right = false)
    (hkind : t.kind = .select)
    (h₁ : select c { t with criteria := Grammar.criteria [[.condition k₁]] } parameters s = .ok rows₁)
    (h₂ : select c { t with criteria := Grammar.criteria [[.condition k₂]] } parameters s = .ok rows₂) :
    SelectTogether c t.table k₁ k₂ parameters s := by
  obtain ⟨p₁, _, hrun₁⟩ := exists_predicate_of_select hkind h₁
  obtain ⟨p₂, _, hrun₂⟩ := exists_predicate_of_select hkind h₂
  have hstill₁ := on_bindCondition_of_no_placeholder hleft hright hrun₁
  obtain ⟨condition₁, rfl⟩ := bindCondition_eq_ok hrun₁
  obtain ⟨condition₂, rfl⟩ := bindCondition_eq_ok hrun₂
  -- alone, a condition on the key column is read against the native key
  have hresolved {name : String} (hname : k₁.field = name ∨ k₂.field = name) (condition : Value) :
      ∀ d ∈ s.documentsAt ⟨c.database, t.table⟩,
        Predicate.holds (resolveKey c t.table true (Predicate.single name condition)) d =
          (Predicate.single name condition).holds d := by
    intro d hd
    by_cases hkey : name = c.keyOf t.table
    · rw [hkey] at hname
      exact holds_resolveKey hand hor (hkeys hname d hd) _
    · rw [resolveKey_single_of_ne hkey]
  have hand' : connective (some "AND") = andName := by decide +kernel
  have hor' : connective (some "OR") = orName := by decide +kernel
  have hjoined {logical : Option String} (hlogical : connective logical ≠ c.keyOf t.table) :
      ∀ d ∈ s.documentsAt ⟨c.database, t.table⟩,
        Predicate.holds (resolveKey c t.table true (Predicate.single (connective logical) (.arr
            [.obj (Predicate.single k₁.field condition₁).entries,
              .obj (Predicate.single k₂.field condition₂).entries]))) d =
          if isDisjunction logical then
            (Predicate.single k₁.field condition₁).holds d ||
              (Predicate.single k₂.field condition₂).holds d
          else (Predicate.single k₁.field condition₁).holds d &&
            (Predicate.single k₂.field condition₂).holds d := by
    intro d _
    rw [resolveKey_single_of_ne hlogical, holds_joined]
  refine ⟨(Predicate.single k₁.field condition₁).holds, (Predicate.single k₂.field condition₂).holds,
    ?_, ?_, ?_, ?_⟩
  · exact selects_of_bound rfl (congrArg Prod.fst hrun₁) (hresolved (.inl rfl) condition₁)
  · exact selects_of_bound rfl (congrArg Prod.fst hrun₂) (hresolved (.inr rfl) condition₂)
  · exact selects_of_bound rfl (on_bindCriteria_pair (some "AND") hstill₁ hrun₂)
      (hjoined (by rw [hand']; exact hand.symm))
  · exact selects_of_bound rfl (on_bindCriteria_pair (some "OR") hstill₁ hrun₂)
      (hjoined (by rw [hor']; exact hor.symm))

end

/-- `SELECT * FROM users`. -/
def readUsers : Statement := { kind := .select, table := "users" }

theorem joined_conditions_twoUsers :
    "id" ≠ andName ∧ "id" ≠ orName ∧
      (∀ d ∈ twoUsers.documentsAt ⟨"mydb", "users"⟩, d.KeysAgree "id") ∧
      hasPlaceholder "id" = false ∧ hasPlaceholder "1" = false ∧ readUsers.kind = .select ∧
      (∃ rows, select Workspace.local.client.config
        { readUsers with criteria := Grammar.criteria [[.condition (equalCondition "id" "1")]] } []
          twoUsers = .ok rows) ∧
      (∃ rows, select Workspace.local.client.config
        { readUsers with
          criteria := Grammar.criteria [[.condition (equalCondition "name" "'Grace'")]] } []
          twoUsers = .ok rows) ∧
      SelectTogether Workspace.local.client.config "users" (equalCondition "id" "1")
        (equalCondition "name" "'Grace'") [] twoUsers := by
  have hand : "id" ≠ andName := by decide
  have hor : "id" ≠ orName := by decide
  have hleft : hasPlaceholder "id" = false := by decide
  have hright : hasPlaceholder "1" = false := by decide
  obtain ⟨ada, grace, hat, hada, hgrace⟩ : ∃ ada grace,
      twoUsers.documentsAt ⟨"mydb", "users"⟩ = [ada, grace] ∧ ada.KeysAgree "id" ∧
        grace.KeysAgree "id" :=
    ⟨_, _, rfl, .some (Value.equal_refl (.ofInt 1)), .some (Value.equal_refl (.ofInt 2))⟩
  have hkeys : ∀ d ∈ twoUsers.documentsAt ⟨"mydb", "users"⟩, d.KeysAgree "id" := by
    rw [hat]
    simp [hada, hgrace]
  obtain ⟨rows₁, h₁⟩ : ∃ rows, select Workspace.local.client.config
      { readUsers with criteria := Grammar.criteria [[.condition (equalCondition "id" "1")]] } []
        twoUsers = .ok rows := ⟨_, rfl⟩
  obtain ⟨rows₂, h₂⟩ : ∃ rows, select Workspace.local.client.config
      { readUsers with
        criteria := Grammar.criteria [[.condition (equalCondition "name" "'Grace'")]] } []
        twoUsers = .ok rows := ⟨_, rfl⟩
  have htogether := joined_conditions (c := Workspace.local.client.config) (t := readUsers)
    (s := twoUsers) hand hor (fun _ => hkeys) hleft hright rfl h₁ h₂
  exact ⟨hand, hor, hkeys, hleft, hright, rfl, ⟨rows₁, h₁⟩, ⟨rows₂, h₂⟩, htogether⟩

/-- `INSERT INTO users(name) VALUES(?)`, without the key column. -/
def insertName : Statement :=
  { kind := .insert, table := "users", columns := [{ name := "name", expression := some "?" }],
    placeholders := 1 }

/-- The local store after a user without the key column was inserted, who got a generated key. -/
def namedUser : Store :=
  (Workspace.local.run [.executeStatement insertName [.str "Ada"]]).client.store

theorem reachable_namedUser : namedUser.Reachable := Store.Reachable.run (.empty _ _) _

/-- The key that was generated for the user. -/
def keyCondition : Sql.Condition := equalCondition "id" "'000000000000000000000001'"

def nameCondition : Sql.Condition := equalCondition "name" "'Ada'"

theorem Selects.length_rows {c : Config} {table : String} {criteria : Criteria}
    {parameters : List Value} {s : Store} {test : Document → Bool}
    (h : Selects c table criteria parameters s test) :
    (select c { kind := .select, table, criteria } parameters s).toOption.map List.length =
      some ((s.documentsAt ⟨c.database, table⟩).filter test).length := by
  rw [h.read _ rfl rfl rfl]
  simp [Except.toOption]

/-- The document with the generated key is selected by its key and by its name, and not by both
together. -/
theorem joined_condition_misses_key :
    ¬∀ (c : Config) (t : Statement) (parameters : List Value) (s : Store) (k₁ k₂ : Sql.Condition)
        (rows₁ rows₂ : List Row),
      s.Reachable → t.kind = .select → k₁.OnField → k₂.OnField →
      hasPlaceholder k₁.left = false → hasPlaceholder k₁.right = false →
      hasPlaceholder k₂.left = false → hasPlaceholder k₂.right = false →
      select c { t with criteria := Grammar.criteria [[.condition k₁]] } parameters s = .ok rows₁ →
      select c { t with criteria := Grammar.criteria [[.condition k₂]] } parameters s = .ok rows₂ →
      SelectTogether c t.table k₁ k₂ parameters s := by
  intro h
  obtain ⟨test₁, test₂, h₁, h₂, hboth, -⟩ := h Workspace.local.client.config readUsers [] namedUser
    keyCondition nameCondition _ _ reachable_namedUser rfl (by decide +kernel) (by decide +kernel)
    (by decide) (by decide) (by decide) (by decide) rfl rfl
  have hone : (namedUser.documentsAt ⟨"mydb", "users"⟩).length = 1 := by decide +kernel
  obtain ⟨ada, hat⟩ := List.length_eq_one_iff.1 hone
  have hselected {criteria : Criteria} {test : Document → Bool} {n : Nat}
      (hselects : Selects Workspace.local.client.config "users" criteria [] namedUser test)
      (hrows : (select Workspace.local.client.config
        { kind := .select, table := "users", criteria } [] namedUser).toOption.map List.length =
          some n) : (test ada).toNat = n := by
    rw [hselects.length_rows] at hrows
    have hlength : ([ada].filter test).length = n := by
      rw [← hat]
      exact Option.some.inj hrows
    rw [← hlength]
    cases htest : test ada <;> simp [htest]
  have hkey : (test₁ ada).toNat = 1 := hselected h₁ (by decide +kernel)
  have hname : (test₂ ada).toNat = 1 := hselected h₂ (by decide +kernel)
  have hneither : (test₁ ada && test₂ ada).toNat = 0 := hselected hboth (by decide +kernel)
  have hand : ∀ a b : Bool, a.toNat = 1 → b.toNat = 1 → (a && b).toNat ≠ 0 := by decide
  exact hand _ _ hkey hname hneither

end Schemaless
