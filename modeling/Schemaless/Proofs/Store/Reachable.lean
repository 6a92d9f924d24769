import Schemaless.Shell.Command
import Schemaless.Proofs.Client.Store

/-!
# Stores that work leads to

A store starts empty. Whatever is done to it from then on is an action of some client's user or the
loading of a seed (`Store.Reachable`); each action may be done by another client, with a
configuration, a parser and sessions of its own, so the work of several clients may be interleaved in
any order. What holds of empty stores and is kept by every step, and by making the store read-only
or writable, holds of all stores that are reached (`Store.Reachable.keeps`).
-/

namespace Schemaless.Store

/-- The stores that any work, in any order and from any clients, makes of an empty one. -/
inductive Reachable : Store → Prop where
  | empty (address : String) (users : SortedMap String) : Reachable { address, users }
  | act (w : Workspace) (a : Action) (h : Reachable w.client.store) :
      Reachable (w.perform a).2.client.store
  | seed (c : Config) (tables : List (String × Value)) {s : Store} (h : Reachable s) :
      Reachable (seedTables c tables s).2

theorem steps_seedTables (c : Config) (tables : List (String × Value)) (s : Store) :
    Steps s (seedTables c tables s).2 := by
  induction tables generalizing s with
  | nil => exact .refl
  | cons entry rest ih =>
    obtain ⟨table, v⟩ := entry
    rw [seedTables]
    cases seedDocuments table v with
    | error e => exact .refl
    | ok documents =>
      have h : Steps s ((seedTable c table documents).on s).2 := moves_insertAll _ _ s
      rcases hrun : (seedTable c table documents).on s with ⟨e | _, t⟩ <;> rw [hrun] at h
      · simp only [hrun]
        exact h
      · simp only [hrun]
        exact h.trans (ih t)

theorem keeps_of_steps {P : Store → Prop} (hstep : ∀ s t, Step s t → P s → P t) {s t : Store}
    (h : Steps s t) (hs : P s) : P t := by
  induction h with
  | refl => exact hs
  | tail _ hlast ih => exact hstep _ _ hlast ih

theorem Reachable.keeps {P : Store → Prop} (hempty : ∀ address users, P { address, users })
    (hstep : ∀ s t, Step s t → P s → P t)
    (hswitch : ∀ (s : Store) on, P s → P { s with readOnly := on }) {s : Store} (h : Reachable s) :
    P s := by
  induction h with
  | empty address users => exact hempty address users
  | act w a _ ih =>
    rcases w.steps_perform a with hsteps | ⟨on, hon⟩
    · exact keeps_of_steps hstep hsteps ih
    · rw [hon]
      exact hswitch _ on ih
  | seed c tables _ ih => exact keeps_of_steps hstep (steps_seedTables c tables _) ih

/-- A list of actions leads from a store that is reached to another. -/
theorem Reachable.run {w : Workspace} (h : Reachable w.client.store) (actions : List Action) :
    Reachable (w.run actions).client.store := by
  induction actions generalizing w with
  | nil => exact h
  | cons a rest ih => exact ih (.act w a h)

end Schemaless.Store

namespace Schemaless

/-! ## A small store -/

/-- A user of an empty local store, who has set the key column `id`. -/
def Workspace.local : Workspace :=
  { client :=
      { config := { host := "127.0.0.1", database := "mydb", keyColumn := "id" },
        store := { address := Store.defaultAddress } } }

/-- `INSERT INTO users(id, name) VALUES(?, ?)`. -/
def insertUser : Sql.Statement :=
  { kind := .insert, table := "users",
    columns := [{ name := "id", expression := some "?" }, { name := "name", expression := some "?" }],
    placeholders := 2 }

/-- The local store after two users were inserted. -/
def twoUsers : Store :=
  (Workspace.local.run
    [.executeStatement insertUser [.ofInt 1, .str "Ada"],
     .executeStatement insertUser [.ofInt 2, .str "Grace"]]).client.store

theorem reachable_twoUsers : twoUsers.Reachable := Store.Reachable.run (.empty _ _) _

end Schemaless
