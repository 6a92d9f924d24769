import Schemaless.Proofs.Client.NormalForm
import Schemaless.Proofs.Client.Order

/-!
# Read-only stores

A read-only store stays as it is. No step is made on it (`Store.eq_of_steps`), and all work is made of
steps, so no run of any clients changes it until one of them makes it writable (`Store.eq_of_guarded`).
The flag is looked at by each operation of the store, past what a statement does before: a statement
that binds is refused at its table, with one exception (`Sql.Statement.readOnlyAnswer`). A `DELETE`
without criteria counts first, and where there is nothing it never comes to an operation.
-/

namespace Schemaless

open Sql

/-! ## Runs -/

namespace Store

variable {s t : Store}

/-- The stores that work leads to from a store, in any order and from any clients, as long as nobody
makes it writable. -/
inductive Guarded (s : Store) : Store → Prop where
  | here : Guarded s s
  | act (w : Workspace) (a : Action) (hkeeps : a ≠ .setReadOnly false)
      (h : Guarded s w.client.store) : Guarded s (w.perform a).2.client.store
  | seed (c : Config) (tables : List (String × Value)) {t : Store} (h : Guarded s t) :
      Guarded s (seedTables c tables t).2

/-- Every step needs a writable store. -/
theorem Step.writable (h : Step s t) : s.readOnly = false := by
  cases h <;> assumption

theorem eq_of_steps (hro : s.readOnly = true) (h : Steps s t) : t = s := by
  induction h with
  | refl => rfl
  | tail _ hlast ih =>
    subst ih
    exact absurd hro (by rw [hlast.writable]; decide)

theorem eq_of_perform {w : Workspace} {a : Action} (hro : w.client.store.readOnly = true)
    (hkeeps : a ≠ .setReadOnly false) : (w.perform a).2.client.store = w.client.store := by
  by_cases hswitch : ∃ on, a = .setReadOnly on
  · obtain ⟨on, rfl⟩ := hswitch
    cases on with
    | false => exact absurd rfl hkeeps
    | true =>
      show { w.client.store with readOnly := true } = w.client.store
      rw [← hro]
  · exact eq_of_steps hro (w.steps_perform_of_ne fun on hon => hswitch ⟨on, hon⟩)

/-- A run leaves a read-only store as it was. -/
theorem eq_of_guarded (hro : s.readOnly = true) (h : Guarded s t) : t = s := by
  induction h with
  | here => rfl
  | act w a hkeeps _ ih => exact (eq_of_perform (by rw [ih, hro]) hkeeps).trans ih
  | seed c tables _ ih =>
    subst ih
    exact eq_of_steps hro (steps_seedTables c tables _)

end Store

/-! ## Statements -/

section

variable {c : Config} {t : Statement} {ps : List Value} {s : Store}

/-- A modifying statement whose values and criteria bind. -/
def Sql.Statement.Binds (c : Config) (t : Statement) (ps : List Value) : Prop :=
  match t.kind with
  | .insert => ∃ record, ((bindRecord t).on { parameters := ps }).1 = .ok record
  | .update => ∃ values, ((recordAndPredicate c t).on { parameters := ps }).1 = .ok values
  | .delete =>
    t.criteria.items = [] ∨ ∃ p, ((keyedPredicate c t).on { parameters := ps }).1 = .ok p
  | .select => False

/-- What a read-only store answers to a modifying statement that binds. -/
def Sql.Statement.readOnlyAnswer (c : Config) (t : Statement) (s : Store) : Except Failure Nat :=
  if t.kind = .delete ∧ t.criteria.items.isEmpty ∧ (s.documentsAt (t.place c)).isEmpty then .ok 0
  else .error (.store t.table (.internal (.readOnly t.table)))

theorem readOnlyAnswer_of_ne (h : t.kind ≠ .delete) :
    t.readOnlyAnswer c s = .error (.store t.table (.internal (.readOnly t.table))) :=
  if_neg fun hdelete => h hdelete.1

theorem on_runInsert_of_readOnly (hro : s.readOnly = true) (hkind : t.kind = .insert)
    {record : Document} (hrecord : ((bindRecord t).on { parameters := ps }).1 = .ok record) :
    (runInsert c t ps).on s = (t.readOnlyAnswer c s, s) := by
  rw [on_runInsert, hrecord, readOnlyAnswer_of_ne (by rw [hkind]; decide)]
  simp only [Store.on_insert, if_pos hro]
  rfl

theorem on_runUpdate_of_readOnly (hro : s.readOnly = true) (hkind : t.kind = .update)
    {values : Document × Predicate}
    (hvalues : ((recordAndPredicate c t).on { parameters := ps }).1 = .ok values) :
    (runUpdate c t ps).on s = (t.readOnlyAnswer c s, s) := by
  rw [on_runUpdate, hvalues, readOnlyAnswer_of_ne (by rw [hkind]; decide)]
  simp only [Store.on_onTable, Store.on_replace, if_pos hro]
  rfl

theorem on_runDelete_of_readOnly (hro : s.readOnly = true) (hkind : t.kind = .delete)
    (hbinds : t.criteria.items = [] ∨
      ∃ p, ((keyedPredicate c t).on { parameters := ps }).1 = .ok p) :
    (runDelete c t ps).on s = (t.readOnlyAnswer c s, s) := by
  rw [on_runDelete, Statement.readOnlyAnswer]
  by_cases hitems : t.criteria.items.isEmpty = true
  · rw [if_pos hitems]
    have hcount : s.count (t.place c) = 0 ↔ (s.documentsAt (t.place c)).isEmpty = true := by
      rw [Store.count, List.length_eq_zero_iff, List.isEmpty_iff]
    by_cases hnone : (s.documentsAt (t.place c)).isEmpty = true
    · rw [if_pos (hcount.2 hnone), if_pos ⟨hkind, hitems, hnone⟩]
    · rw [if_neg fun h => hnone (hcount.1 h), if_neg fun h => hnone h.2.2, Store.on_drop, if_pos hro]
      rfl
  · obtain ⟨p, hp⟩ := hbinds.resolve_left fun h => hitems (List.isEmpty_iff.mpr h)
    rw [if_neg hitems, if_neg fun h => hitems h.2.1, hp]
    simp only [Store.on_onTable, Store.on_remove, if_pos hro]
    rfl

theorem on_modify_of_readOnly (hro : s.readOnly = true) (hbinds : t.Binds c ps) :
    (modify c t ps).on s = (t.readOnlyAnswer c s, s) := by
  rw [modify]
  cases hkind : t.kind with
  | insert =>
    rw [Statement.Binds, hkind] at hbinds
    obtain ⟨record, hrecord⟩ := hbinds
    exact on_runInsert_of_readOnly hro hkind hrecord
  | update =>
    rw [Statement.Binds, hkind] at hbinds
    obtain ⟨values, hvalues⟩ := hbinds
    exact on_runUpdate_of_readOnly hro hkind hvalues
  | delete =>
    rw [Statement.Binds, hkind] at hbinds
    exact on_runDelete_of_readOnly hro hkind hbinds
  | select =>
    rw [Statement.Binds, hkind] at hbinds
    exact hbinds.elim

end

/-- A text without the word has no criteria. -/
theorem Sql.Grammar.criteria_eq_of_derives {ts : List Token} {s : Statement}
    (h : Grammar.Derives ts s) (hnone : Token.keyword .WHERE ∉ ts) : s.criteria = {} := by
  have habsent {us : List Token} {c : Criteria} (hfilter : Grammar.Filter us c)
      (hus : Token.keyword .WHERE ∉ us) : c = {} := by
    cases hfilter with
    | absent => rfl
    | present _ => exact absurd List.mem_cons_self hus
  obtain @⟨ts, us, s, hbody, -⟩ := h
  rw [List.mem_append, not_or] at hnone
  cases hbody with
  | selectAll table hfilter => exact habsent hfilter fun hin => hnone.1 (by simp [hin])
  | select table _ hfilter => exact habsent hfilter fun hin => hnone.1 (by simp [hin])
  | insert table _ => rfl
  | update table _ hfilter => exact habsent hfilter fun hin => hnone.1 (by simp [hin])
  | delete table hfilter => exact habsent hfilter fun hin => hnone.1 (by simp [hin])

/-- A statement that is read has criteria exactly if its text has a `WHERE`. -/
theorem Sql.Criteria.items_eq_nil_iff {sql : String} {ts : List Token} {t : Statement}
    (hlex : lex sql.toList = .ok ts) (hparse : Statement.parse sql = .ok t) :
    t.criteria.items = [] ↔ Token.keyword .WHERE ∉ ts := by
  refine ⟨fun hitems hin => (normal_of_parse hlex hin hparse).nonempty hitems, fun hnone => ?_⟩
  rw [Statement.parse, hlex] at hparse
  rw [Grammar.criteria_eq_of_derives (derives_of_ofTokens hparse) hnone]

/-! ## Statements of a client -/

/-- An action that runs a modifying statement. Its text is parsed, or the statement was before. -/
inductive Action.Executes (parser : String → Except ParseFault Statement) (t : Statement)
    (ps : List Value) : Action → Prop
  | execute {sql : String} (h : parser sql = .ok t) : Executes parser t ps (.execute sql ps)
  | executeStatement : Executes parser t ps (.executeStatement t ps)
  | executeHeld (index : Nat) {sql : String} (h : parser sql = .ok t) :
      Executes parser t ps (.executeHeld index sql ps)

namespace Workspace

open Client ClientM

variable {w : Workspace} {a : Action} {t : Statement} {ps : List Value}

theorem answer_withSession (c : Client) (t : Statement) (ps : List Value) :
    ((withSession (modifyStore t ps)).on c).1 =
      c.lent.bind fun _ => ((modify c.config t ps).on c.store).1 := by
  rw [on_withSession, lent]
  rcases acquire_outcome c with ⟨s, rest, hidle, hacquire⟩ | ⟨hidle, hconnect, hacquire⟩ |
      ⟨e, hidle, hconnect, hacquire⟩ <;> rw [hacquire, hidle]
  · rfl
  · rw [hconnect]
    rfl
  · rw [hconnect]
    rfl

/-- An action that runs a modifying statement answers what the statement does, if it finds a
session. -/
theorem answer_of_executes (h : a.Executes w.client.parser t ps) :
    ∃ access, (∀ answer, w.grant access = .error answer → (w.perform a).1 = answer) ∧
      ∀ pool, w.grant access = .ok pool →
        (w.perform a).1 =
          some (((modify w.client.config t ps).on w.client.store).1.map .affected) := by
  have hown {call : ClientM Nat} (hcall : call.on w.client =
      (withSession (modifyStore t ps)).on w.client) :
      (∀ answer, w.grant .own = .error answer →
        (perform.answered (w.onClient (Answer.affected <$> call))).1 = answer) ∧
      ∀ pool, w.grant .own = .ok pool →
        (perform.answered (w.onClient (Answer.affected <$> call))).1 =
          some (((modify w.client.config t ps).on w.client.store).1.map .affected) := by
    rw [onClient_map, hcall, perform.answered, answer_withSession, grant]
    cases w.client.lent with
    | error e => exact ⟨fun _ h => Except.error.inj h, fun _ h => (by cases h)⟩
    | ok pool => exact ⟨fun _ h => (by cases h), fun _ _ => rfl⟩
  cases h with
  | execute h => exact ⟨.own, hown (on_parse_bind h _)⟩
  | executeStatement => exact ⟨.own, hown rfl⟩
  | executeHeld index h =>
    refine ⟨.held index, ?_⟩
    rw [perform, onClient_map, executeHeld, on_parse_bind h, on_modifyStore, perform.ifHeld, grant]
    cases w.session? index with
    | none => exact ⟨fun _ h => Except.error.inj h, fun _ h => (by cases h)⟩
    | some s => exact ⟨fun _ h => (by cases h), fun _ _ => rfl⟩

end Workspace

/-! ## What a read-only store keeps to -/

/-- A read-only store stays as it is, databases and next key, whatever is done until someone makes it
writable. A modifying statement that binds is refused at its table, but for a `DELETE` without criteria on
a table with no documents; and so it is answered to a client that has a session. The text of a statement
without criteria has no `WHERE`. -/
theorem readOnly_store_unchanged {s : Store} (hro : s.readOnly = true) :
    (∀ t, s.Guarded t → t = s) ∧
      (∀ (c : Config) (t : Statement) (ps : List Value), t.Binds c ps →
        (modify c t ps).on s =
          (if t.kind = .delete ∧ t.criteria.items.isEmpty ∧ (s.documentsAt (t.place c)).isEmpty then
              .ok 0
            else .error (.store t.table (.internal (.readOnly t.table))), s)) ∧
      (∀ (w : Workspace) (a : Action) (t : Statement) (ps : List Value), w.client.store = s →
        a.Executes w.client.parser t ps → t.Binds w.client.config ps →
        ∃ access, (∀ answer, w.grant access = .error answer → (w.perform a).1 = answer) ∧
          ∀ pool, w.grant access = .ok pool →
            (w.perform a).1 = some ((t.readOnlyAnswer w.client.config s).map .affected)) ∧
      ∀ (sql : String) (ts : List Token) (t : Statement), lex sql.toList = .ok ts →
        Statement.parse sql = .ok t → (t.criteria.items.isEmpty ↔ Token.keyword .WHERE ∉ ts) := by
  refine ⟨fun t => Store.eq_of_guarded hro, fun c t ps => on_modify_of_readOnly hro, ?_, ?_⟩
  · rintro w a t ps rfl ha hbinds
    obtain ⟨access, hnone, hsome⟩ := Workspace.answer_of_executes ha
    refine ⟨access, hnone, fun pool hpool => ?_⟩
    rw [hsome pool hpool, on_modify_of_readOnly hro hbinds]
  · intro sql ts t hlex hparse
    rw [List.isEmpty_iff]
    exact Criteria.items_eq_nil_iff hlex hparse

/-- The local store with two users, made read-only. -/
def frozenUsers : Store := { twoUsers with readOnly := true }

/-- A third user is refused; the notes, of which there are none, may be deleted. -/
theorem readOnly_store_unchanged_frozenUsers :
    frozenUsers.readOnly = true ∧
      (Workspace.perform { client := { localClient with store := frozenUsers } }
        (.executeStatement insertUser [.ofInt 3, .str "Linus"])).2.client.store = frozenUsers ∧
      insertUser.Binds localClient.config [.ofInt 3, .str "Linus"] ∧
      (modify localClient.config insertUser [.ofInt 3, .str "Linus"]).on frozenUsers =
        (.error (.store "users" (.internal (.readOnly "users"))), frozenUsers) ∧
      (rowsOf .delete "notes" {} 0).Binds localClient.config [] ∧
      (modify localClient.config (rowsOf .delete "notes" {} 0) []).on frozenUsers =
        (.ok 0, frozenUsers) := by
  have hinsert : insertUser.Binds localClient.config [.ofInt 3, .str "Linus"] := ⟨_, rfl⟩
  have hdelete : (rowsOf .delete "notes" {} 0).Binds localClient.config [] := .inl rfl
  obtain ⟨hsame, hstatement, -, -⟩ := readOnly_store_unchanged (s := frozenUsers) rfl
  refine ⟨rfl, hsame _ (.act _ _ (by intro h; cases h) .here), hinsert, ?_, hdelete, ?_⟩
  · exact hstatement _ _ _ hinsert
  · exact hstatement _ _ _ hdelete

end Schemaless
