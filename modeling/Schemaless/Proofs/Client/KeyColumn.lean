import Schemaless.Proofs.Client.Store
import Schemaless.Proofs.Store.KeyAssignment

/-!
# Tables whose key column is kept

Where every `INSERT` gives the key column a value and nothing assigns the native key or updates the key
column, the two fields of each document of the table are one value (`Document.OneKey`): an insertion
copies the key, an update carries both fields over, and what is left of a table by a removal has been
there before (`oneKey_modify`). A client that runs such statements only, in whatever order and among
whatever statements for other tables, keeps to this (`Workspace.oneKey_run`). So no predicate can tell
whether its key is resolved, and statements find what they would find if the key column were a column
like any other (`key_column_is_ordinary`).
-/

namespace Schemaless

open Sql

/-! ## Other collections -/

namespace Store

/-- The collection at a place is the same. -/
def SameAt (q : Place) (s t : Store) : Prop := t.documentsAt q = s.documentsAt q

instance {q : Place} : Std.Refl (SameAt q) := ⟨fun _ => rfl⟩

instance {q : Place} : IsTrans Store (SameAt q) := ⟨fun _ _ _ h h' => h'.trans h⟩

section

variable {p q : Place}

theorem sameAt_put (h : q ≠ p) (s : Store) (ds : Collection) :
    SameAt q s { s with catalog := s.catalog.put p ds } := by
  rw [SameAt, documentsAt, Catalog.documents_put, if_neg h]
  rfl

theorem sameAt_insert (h : q ≠ p) (d : Document) : (insert p d).Moves (SameAt q) := by
  have happend (key : Value) (d : Document) (s : Store) : SameAt q s ((append p key d).on s).2 := by
    rw [on_append]
    split
    · rfl
    · exact sameAt_put h s _
  intro s
  rw [on_insert]
  split
  · rfl
  · split
    · exact happend _ _ s
    · exact happend _ _ { s with nextKey := s.nextKey + 1 }

theorem sameAt_replace (h : q ≠ p) (filter : Predicate) (d : Document) :
    (replace p filter d).Moves (SameAt q) := by
  intro s
  rw [on_replace]
  split
  · rfl
  · split
    · rfl
    · split
      · rfl
      · exact sameAt_put h s _

theorem sameAt_remove (h : q ≠ p) (filter : Predicate) : (remove p filter).Moves (SameAt q) := by
  intro s
  rw [on_remove]
  split
  · rfl
  · split
    · rfl
    · exact sameAt_put h s _

theorem sameAt_drop (h : q ≠ p) : (drop p).Moves (SameAt q) := by
  intro s
  rw [on_drop]
  split
  · rfl
  · split
    · rfl
    · rw [SameAt, documentsAt, Catalog.documents_drop, if_neg h]
      rfl

end

/-! ## What is left -/

/-- The collection at a place has no new documents. -/
def WithinAt (p : Place) (s t : Store) : Prop := t.documentsAt p ⊆ s.documentsAt p

instance {p : Place} : Std.Refl (WithinAt p) := ⟨fun s => List.Subset.refl (s.documentsAt p)⟩

instance {p : Place} : IsTrans Store (WithinAt p) := ⟨fun _ _ _ h h' => List.Subset.trans h' h⟩

theorem within_remove (p : Place) (filter : Predicate) : (remove p filter).Moves (WithinAt p) := by
  intro s
  rw [on_remove]
  split
  · exact refl_of _ s
  · cases hat : Catalog.collection? s.catalog p with
    | none => exact refl_of _ s
    | some ds =>
      have hds : s.documentsAt p = ds := Catalog.documents_of_collection? hat
      rw [WithinAt, documentsAt, Catalog.documents_put, if_pos rfl, hds]
      exact List.filter_subset_self _

theorem within_drop (p : Place) : (drop p).Moves (WithinAt p) := by
  intro s
  rw [on_drop]
  split
  · exact refl_of _ s
  · split
    · exact refl_of _ s
    · rw [WithinAt, documentsAt, Catalog.documents_drop, if_pos rfl]
      exact List.nil_subset _

end Store

/-- A modifying statement leaves the tables of other names alone. -/
theorem sameAt_modify {c : Config} {t : Statement} {q : Place} (h : q ≠ t.place c)
    (parameters : List Value) : (modify c t parameters).Moves (Store.SameAt q) := by
  unfold modify
  cases t.kind with
  | insert =>
    refine (moves_bound _ _).bind fun record => ?_
    exact (moves_onTable (Store.sameAt_insert h _) _).bind fun _ => Effect.moves_pure _
  | update =>
    refine (moves_bound _ _).bind fun (record, p) => ?_
    exact Effect.moves_get.bind fun s => moves_onTable (Store.sameAt_replace h _ _) _
  | delete =>
    simp only [runDelete]
    split
    · refine Effect.moves_get.bind fun s => ?_
      split
      · exact Effect.moves_pure _
      · exact (moves_onTable (Store.sameAt_drop h) _).bind fun _ => Effect.moves_pure _
    · exact (moves_bound _ _).bind fun p => moves_onTable (Store.sameAt_remove h _) _
  | select => exact Effect.moves_throw _

/-! ## One value under both keys -/

/-- The document has a value under the column and the same value as its native key. -/
def Document.OneKey (column : String) (d : Document) : Prop :=
  ∃ v, d.get? column = some v ∧ d.get? nativeKey = some v

theorem Document.OneKey.keysAgree {column : String} {d : Document} (h : d.OneKey column) :
    d.KeysAgree column := by
  obtain ⟨v, hcolumn, hnative⟩ := h
  rw [Document.KeysAgree, hcolumn, hnative]
  exact .some (Value.equal_refl v)

/-- The statement gives a field a value. -/
def Sql.Statement.Assigns (t : Statement) (name : String) : Prop :=
  (t.kind = .insert ∨ t.kind = .update) ∧ ∃ column ∈ t.columns, column.name = name

/-- The native key is not assigned, and the key column by insertions alone, but by all of them. -/
structure Sql.Statement.KeepsKey (t : Statement) (column : String) : Prop where
  native : ¬t.Assigns nativeKey
  insertion : t.kind = .insert → t.Assigns column
  update : t.kind = .update → ¬t.Assigns column

section

variable {c : Config} {t : Statement} {s : Store} {parameters : List Value}

/-- The documents of a table have one value under both keys. -/
def Store.OneKeyAt (c : Config) (table : String) (s : Store) : Prop :=
  ∀ d ∈ s.documentsAt ⟨c.database, table⟩, d.OneKey (c.keyOf table)

theorem Store.mem_of_insert {p : Place} {d x : Document} {key : Value}
    (hkey : d.get? nativeKey = some key) (hx : x ∈ ((insert p d).on s).2.documentsAt p) :
    x ∈ s.documentsAt p ∨ x = d := by
  rw [on_insert] at hx
  split at hx
  · exact .inl hx
  · simp only [hkey, on_append] at hx
    split at hx
    · exact .inl hx
    · rw [documentsAt, Catalog.documents_put, if_pos rfl, List.mem_append, List.mem_singleton] at hx
      exact hx

theorem oneKey_insert (hkind : t.kind = .insert) (ht : t.KeepsKey (c.keyOf t.table))
    (h : s.OneKeyAt c t.table) : ((modify c t parameters).on s).2.OneKeyAt c t.table := by
  obtain ⟨-, column, hcolumn, hname⟩ := ht.insertion hkind
  have hguarded : ∀ column ∈ t.columns, column.name ≠ nativeKey := fun column hmem heq =>
    ht.native ⟨.inl hkind, column, hmem, heq⟩
  rw [modify, hkind]
  show ((runInsert c t parameters).on s).2.OneKeyAt c t.table
  rw [on_runInsert]
  rcases hbind : (bindRecord t).on { parameters } with ⟨e | record, after⟩
  · exact h
  · obtain ⟨v, hv⟩ := get?_of_bindRecord_of_mem hcolumn hbind
    rw [hname] at hv
    have hnative := get?_of_bindRecord_of_not_mem hguarded hbind
    have hresolved : resolveKey c t.table false record = record.insert nativeKey v := by
      rw [resolveKey_of_missing hnative, hv]
      rfl
    have hkey : (record.insert nativeKey v).get? nativeKey = some v := by
      rw [SortedMap.get?_insert, if_pos rfl]
    -- the key is copied, so that the column keeps it
    have hcolumn : (record.insert nativeKey v).get? (c.keyOf t.table) = some v := by
      rw [SortedMap.get?_insert, hv, ite_self]
    have hall : ((Store.insert (t.place c) (record.insert nativeKey v)).on s).2.OneKeyAt c t.table := by
      intro d hd
      rcases Store.mem_of_insert hkey hd with hd | rfl
      · exact h d hd
      · exact ⟨v, hcolumn, hkey⟩
    simp only [hresolved]
    rcases hrun : (Store.insert (t.place c) (record.insert nativeKey v)).on s with ⟨_ | _, s'⟩ <;>
      rw [hrun] at hall <;> exact hall

theorem oneKey_update (hkind : t.kind = .update) (ht : t.KeepsKey (c.keyOf t.table))
    (h : s.OneKeyAt c t.table) : ((modify c t parameters).on s).2.OneKeyAt c t.table := by
  have hguarded : ∀ column ∈ t.columns, column.name ≠ nativeKey := fun column hmem heq =>
    ht.native ⟨.inr hkind, column, hmem, heq⟩
  have hkept : ∀ column ∈ t.columns, column.name ≠ c.keyOf t.table := fun column hmem heq =>
    ht.update hkind ⟨.inr hkind, column, hmem, heq⟩
  have hkeyed : ∀ d ∈ s.documentsAt (t.place c), ∃ key, d.get? nativeKey = some key := by
    intro d hd
    obtain ⟨v, -, hv⟩ := h d hd
    exact ⟨v, hv⟩
  rcases modify_update_cases parameters hkind hguarded hkeyed with
    ⟨e, hrun⟩ | ⟨record, p, after, hbind, ⟨-, hrun⟩ | ⟨before, d, rest, hat, -, -, hrun⟩⟩
  · rw [hrun]
    exact h
  · rw [hrun]
    exact h
  · obtain ⟨_, hrecord, -⟩ := recordAndPredicate_eq_ok hbind
    have hnative := get?_of_bindRecord_of_not_mem hguarded hrecord
    have hcolumn := get?_of_bindRecord_of_not_mem hkept hrecord
    -- both fields are carried over from the document that is replaced
    have hone : (Document.overlay d record).OneKey (c.keyOf t.table) := by
      obtain ⟨v, hv, hv'⟩ := h d (by rw [← Statement.place, hat]; simp)
      exact ⟨v, by rw [Document.get?_overlay, hcolumn, hv]; rfl,
        by rw [Document.get?_overlay, hnative, hv']; rfl⟩
    rw [hrun]
    intro x hx
    rw [Store.documentsAt, ← Statement.place, Catalog.documents_put, if_pos rfl] at hx
    have hmem : x ∈ s.documentsAt (t.place c) ∨ x = Document.overlay d record := by
      rw [hat]
      grind
    rcases hmem with hx | rfl
    · exact h x hx
    · exact hone

/-- What a deletion leaves of a table has been there before. -/
theorem within_runDelete (c : Config) (t : Statement) (parameters : List Value) :
    (runDelete c t parameters).Moves (Store.WithinAt (t.place c)) := by
  simp only [runDelete]
  split
  · refine Effect.moves_get.bind fun s => ?_
    split
    · exact Effect.moves_pure _
    · exact (moves_onTable (Store.within_drop _) _).bind fun _ => Effect.moves_pure _
  · exact (moves_bound _ _).bind fun p => moves_onTable (Store.within_remove _ p) _

theorem oneKey_delete (hkind : t.kind = .delete) (h : s.OneKeyAt c t.table) :
    ((modify c t parameters).on s).2.OneKeyAt c t.table := by
  rw [modify, hkind]
  intro d hd
  exact h d (within_runDelete c t parameters s hd)

/-- A statement that keeps the key of its table leaves both keys one value. -/
theorem oneKey_modify {table : String} (ht : t.table = table → t.KeepsKey (c.keyOf table))
    (h : s.OneKeyAt c table) : ((modify c t parameters).on s).2.OneKeyAt c table := by
  by_cases htable : t.table = table
  · subst htable
    cases hkind : t.kind with
    | insert => exact oneKey_insert hkind (ht rfl) h
    | update => exact oneKey_update hkind (ht rfl) h
    | delete => exact oneKey_delete hkind h
    | select =>
      rw [modify, hkind]
      exact h
  · have hplace : (⟨c.database, table⟩ : Place) ≠ t.place c := fun heq =>
      htable (Place.mk.inj heq).2.symm
    have hsame : Store.SameAt ⟨c.database, table⟩ s _ := sameAt_modify hplace parameters s
    rw [Store.OneKeyAt, hsame]
    exact h

end

/-! ## Clients -/

/-- The client has a configuration and a parser, and the documents of a table in its store have one value
under both keys. -/
structure Client.KeepsOneKey (config : Config) (parser : String → Except ParseFault Statement)
    (table : String) (k : Client) : Prop where
  configured : k.config = config
  parses : k.parser = parser
  keys : k.store.OneKeyAt config table

/-- An action runs statements, and those for a table that it can change keep the key. -/
def Action.KeepsKey (parser : String → Except ParseFault Statement) (table column : String) :
    Action → Prop
  | .execute sql _ | .executeHeld _ sql _ =>
    ∀ t, parser sql = .ok t → t.table = table → t.KeepsKey column
  | .executeStatement t _ => t.table = table → t.KeepsKey column
  | .prepare _ | .query .. | .queryStatement .. | .queryHeld .. | .hold | .release _ => True
  | _ => False

section

variable {config : Config} {parser : String → Except ParseFault Statement} {table : String}

open ClientM

open Effect (Keeping)

theorem Client.KeepsOneKey.withPool {k : Client} (h : k.KeepsOneKey config parser table)
    (pool : Pool) : Client.KeepsOneKey config parser table { k with pool } :=
  ⟨h.configured, h.parses, h.keys⟩

namespace ClientM

variable {α : Type}

theorem oneKey_withSession {work : ClientM α}
    (h : work.Moves (Keeping (Client.KeepsOneKey config parser table))) :
    (withSession work).Moves (Keeping (Client.KeepsOneKey config parser table)) := by
  intro k hk
  obtain ⟨r, pool, hacquire⟩ := on_acquire k
  rw [on_withSession, hacquire]
  cases r with
  | error e => exact hk.withPool pool
  | ok session => exact (h _ (hk.withPool pool)).withPool _

theorem oneKey_parse_bind {sql : String} {f : Statement → ClientM α}
    (h : ∀ t, parser sql = .ok t → (f t).Moves (Keeping (Client.KeepsOneKey config parser table))) :
    (parse sql >>= f).Moves (Keeping (Client.KeepsOneKey config parser table)) := by
  intro k hk
  cases hparse : k.parser sql with
  | error e =>
    have herror : (parse sql).on k = (.error (.parse e), k) := by
      show ((k.parser sql).mapError Failure.parse, k) = _
      rw [hparse]
      rfl
    rw [Effect.on_bind, herror]
    exact hk
  | ok t =>
    rw [Effect.on_bind, on_parse hparse]
    exact h t (by rw [← hk.parses, hparse]) k hk

theorem oneKey_modifyStore {t : Statement} (ht : t.table = table → t.KeepsKey (config.keyOf table))
    (parameters : List Value) :
    (modifyStore t parameters).Moves (Keeping (Client.KeepsOneKey config parser table)) := by
  intro k hk
  rw [on_modifyStore]
  refine ⟨hk.configured, hk.parses, ?_⟩
  rw [hk.configured]
  exact oneKey_modify ht hk.keys

theorem oneKey_deliverRows (t : Statement) (parameters : List Value) (receiver : Receiver) :
    (deliverRows t parameters receiver).Moves (Keeping (Client.KeepsOneKey config parser table)) :=
  Effect.moves_of_still fun _ => rfl

end ClientM

namespace Workspace

/-- One action after the other. -/
theorem oneKey_perform {w : Workspace} {a : Action}
    (ha : a.KeepsKey parser table (config.keyOf table))
    (hw : w.client.KeepsOneKey config parser table) :
    (w.perform a).2.client.KeepsOneKey config parser table := by
  have held (index : Nat) (r : Except Failure Answer × Workspace)
      (h : r.2.client.KeepsOneKey config parser table) :
      (perform.ifHeld w index r).2.client.KeepsOneKey config parser table := by
    unfold perform.ifHeld
    cases w.session? index with
    | none => exact hw
    | some s => exact h
  have onClient {m : ClientM Answer}
      (h : m.Moves (Keeping (Client.KeepsOneKey config parser table))) :
      (w.onClient m).2.client.KeepsOneKey config parser table := h w.client hw
  cases a with
  | execute sql ps =>
    exact onClient ((oneKey_parse_bind fun t ht =>
      oneKey_withSession (oneKey_modifyStore (ha t ht) ps)).map _)
  | executeStatement t ps =>
    exact onClient ((oneKey_withSession (oneKey_modifyStore ha ps)).map _)
  | executeHeld index sql ps =>
    exact held _ _ (onClient ((oneKey_parse_bind fun t ht => oneKey_modifyStore (ha t ht) ps).map _))
  | prepare sql =>
    have hparse : (parse sql).Moves (Keeping (Client.KeepsOneKey config parser table)) :=
      Effect.moves_of_still fun _ => rfl
    have hprepare := onClient (hparse.map Answer.statement)
    exact hprepare
  | query sql ps receiver =>
    exact onClient ((oneKey_parse_bind fun t _ =>
      oneKey_withSession (oneKey_deliverRows t ps receiver)).map _)
  | queryStatement t ps receiver =>
    exact onClient ((oneKey_withSession (oneKey_deliverRows t ps receiver)).map _)
  | queryHeld index sql ps receiver =>
    exact held _ _ (onClient ((oneKey_parse_bind fun t _ => oneKey_deliverRows t ps receiver).map _))
  | hold =>
    obtain ⟨r, pool, hacquire⟩ := on_acquire w.client
    rw [perform, perform.answered, Workspace.hold, hacquire]
    cases r with
    | error e => exact hw.withPool pool
    | ok session => exact hw.withPool pool
  | release index =>
    rw [perform, perform.answered, Workspace.release]
    cases w.session? index with
    | none => exact hw
    | some session => exact hw.withPool _
  | persist | columns | databases | tables | dropTable | configure | setReadOnly | store => exact ha.elim

theorem oneKey_run {w : Workspace} {actions : List Action}
    (hactions : ∀ a ∈ actions, a.KeepsKey parser table (config.keyOf table))
    (hw : w.client.KeepsOneKey config parser table) :
    (w.run actions).client.KeepsOneKey config parser table := by
  induction actions generalizing w with
  | nil => exact hw
  | cons a rest ih =>
    have hfirst := oneKey_perform (hactions a (by simp)) hw
    exact ih (fun b hb => hactions b (by simp [hb])) hfirst

end Workspace

end

/-- From an empty table on, statements that keep the key leave each document with one value under the key
column and the native key. In every state that they lead to, no predicate of criteria changes what it
selects when its key is resolved, and reading, updating and deleting do what they do where the key column
is a column like any other. -/
theorem key_column_is_ordinary {w : Workspace} {table : String} {actions : List Action} {c : Config}
    {s : Store} (hc : w.client.config = c) (hs : (w.run actions).client.store = s)
    (hand : c.keyOf table ≠ andName) (hor : c.keyOf table ≠ orName)
    (hempty : w.client.store.documentsAt ⟨c.database, table⟩ = [])
    (hactions : ∀ a ∈ actions, a.KeepsKey w.client.parser table (c.keyOf table)) :
    (w.run actions).client.config = c ∧
      (∀ d ∈ s.documentsAt ⟨c.database, table⟩,
        ∃ v, d.get? (c.keyOf table) = some v ∧ d.get? nativeKey = some v) ∧
      (∀ criteria cursor p after, (bindCriteria criteria).on cursor = (.ok p, after) →
        (s.documentsAt ⟨c.database, table⟩).filter (Predicate.holds (resolveKey c table true p)) =
          (s.documentsAt ⟨c.database, table⟩).filter p.holds) ∧
      ∀ t parameters, t.table = table →
        (t.kind = .select → select c t parameters s =
          select (c.setTableKey table nativeKey) t parameters s) ∧
        (t.kind ≠ .insert → (modify c t parameters).on s =
          (modify (c.setTableKey table nativeKey) t parameters).on s) := by
  subst hc hs
  have hstart : w.client.KeepsOneKey w.client.config w.client.parser table :=
    ⟨rfl, rfl, by simp [Store.OneKeyAt, hempty]⟩
  have hrun := Workspace.oneKey_run hactions hstart
  have hkeys : ∀ d ∈ (w.run actions).client.store.documentsAt ⟨w.client.config.database, table⟩,
      d.KeysAgree (w.client.config.keyOf table) := fun d hd => (hrun.keys d hd).keysAgree
  refine ⟨hrun.configured, hrun.keys, ?_, ?_⟩
  · intro criteria cursor p after _
    exact List.filter_congr fun d hd => holds_resolveKey hand hor (hkeys d hd) p
  · rintro t parameters rfl
    have halike := readsAlike_of_keysAgree hand hor hkeys
    exact ⟨fun hkind => (halike.select_eq hkind parameters).symm,
      fun hkind => (halike.on_modify hkind parameters).symm⟩

/-- Two users are inserted, one is renamed, the other deleted. -/
def userActions : List Action :=
  [.executeStatement insertUser [.ofInt 1, .str "Ada"],
    .executeStatement insertUser [.ofInt 2, .str "Grace"],
    .executeStatement renameUser [.str "Lady", .ofInt 2],
    .executeStatement deleteUser [.ofInt 1]]

theorem key_column_is_ordinary_userActions :
    "id" ≠ andName ∧ "id" ≠ orName ∧
      Workspace.local.client.store.documentsAt ⟨"mydb", "users"⟩ = [] ∧
      (∀ a ∈ userActions, a.KeepsKey Workspace.local.client.parser "users" "id") ∧
      ∃ d, (Workspace.local.run userActions).client.store.documentsAt ⟨"mydb", "users"⟩ = [d] ∧
        (∃ v, d.get? "id" = some v ∧ d.get? nativeKey = some v) ∧
        (modify Workspace.local.client.config deleteUser [.ofInt 2]).on
            (Workspace.local.run userActions).client.store =
          (modify (Workspace.local.client.config.setTableKey "users" nativeKey) deleteUser
            [.ofInt 2]).on (Workspace.local.run userActions).client.store := by
  have hand : "id" ≠ andName := by decide
  have hor : "id" ≠ orName := by decide
  have hinsert : insertUser.KeepsKey "id" :=
    ⟨by simp [Statement.Assigns, insertUser, nativeKey], by simp [Statement.Assigns, insertUser],
      by simp [insertUser]⟩
  have hrename : renameUser.KeepsKey "id" :=
    ⟨by simp [Statement.Assigns, renameUser, nativeKey], by simp [renameUser],
      by simp [Statement.Assigns, renameUser]⟩
  have hdelete : deleteUser.KeepsKey "id" :=
    ⟨by simp [Statement.Assigns, deleteUser], by simp [deleteUser], by simp [deleteUser]⟩
  have hactions : ∀ a ∈ userActions, a.KeepsKey Workspace.local.client.parser "users" "id" := by
    simp [userActions, Action.KeepsKey, hinsert, hrename, hdelete]
  have hone : ((Workspace.local.run userActions).client.store.documentsAt
      ⟨"mydb", "users"⟩).length = 1 := by decide +kernel
  obtain ⟨d, hat⟩ := List.length_eq_one_iff.1 hone
  have hand' : Workspace.local.client.config.keyOf "users" ≠ andName := hand
  obtain ⟨-, hkeys, -, hordinary⟩ := key_column_is_ordinary rfl rfl hand' hor rfl hactions
  refine ⟨hand, hor, rfl, hactions, d, hat, hkeys d ?_, ?_⟩
  · show d ∈ (Workspace.local.run userActions).client.store.documentsAt ⟨"mydb", "users"⟩
    rw [hat]
    exact List.mem_singleton_self d
  · exact (hordinary deleteUser [.ofInt 2] rfl).2 (by decide)

end Schemaless
