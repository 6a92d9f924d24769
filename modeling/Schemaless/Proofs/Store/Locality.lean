import Schemaless.Proofs.Store.Catalog
import Schemaless.Proofs.Store.Dependence

/-!
# Work on one table

A statement works at one place of the store. It changes nothing but the collection there and, if it
inserts a record without a key, the number of the next key (`Store.ChangesAt`); and what it answers and
leaves there depends on these alone (`Store.AgreeAt`). `StoreM.ActsAt` says both, and every statement has
it (`actsAt_modify`, `select_of_agreeAt`).

Two pieces of work at different places, of which one at most draws a key, may therefore change places:
neither sees what the other does, and the two changes come to one store (`StoreM.ActsAt.eitherOrder`).
-/

namespace Schemaless

open Sql

/-- Two computations on a state answer the same in either order, and come to the same state. -/
def EitherOrder {σ α β : Type} (f : σ → α × σ) (g : σ → β × σ) (s : σ) : Prop :=
  (g (f s).2).1 = (g s).1 ∧ (f (g s).2).1 = (f s).1 ∧ (g (f s).2).2 = (f (g s).2).2

theorem EitherOrder.of_runs {σ α β : Type} {f : σ → α × σ} {g : σ → β × σ} {s t u v : σ} {x : α}
    {y : β} (hf : f s = (x, t)) (hg : g s = (y, u)) (hthen : g t = (y, v)) (hthen' : f u = (x, v)) :
    EitherOrder f g s := by
  rw [EitherOrder, hf, hg]
  show (g t).1 = y ∧ (f u).1 = x ∧ (g t).2 = (f u).2
  rw [hthen, hthen']
  exact ⟨rfl, rfl, rfl⟩

namespace Store

variable {spends : Prop} {p q : Place} {s t u : Store}

/-! ## What work at a place changes -/

/-- `t` is `s` but for one collection and, where keys are spent, the number of the next key. -/
structure ChangesAt (spends : Prop) (p : Place) (s t : Store) : Prop where
  rest : t = { s with catalog := t.catalog, nextKey := t.nextKey }
  elsewhere : ∀ q, q ≠ p → t.catalog.collection? q = s.catalog.collection? q
  inhabited : s.catalog.Inhabited → t.catalog.Inhabited
  unspent : ¬spends → t.nextKey = s.nextKey

namespace ChangesAt

theorem refl (spends : Prop) (p : Place) (s : Store) : ChangesAt spends p s s :=
  ⟨rfl, fun _ _ => rfl, id, fun _ => rfl⟩

theorem trans (h : ChangesAt spends p s t) (h' : ChangesAt spends p t u) : ChangesAt spends p s u := by
  refine ⟨?_, fun q hq => (h'.elsewhere q hq).trans (h.elsewhere q hq), fun hs => ?_, fun hns => ?_⟩
  · rw [h'.rest, h.rest]
  · exact h'.inhabited (h.inhabited hs)
  · exact (h'.unspent hns).trans (h.unspent hns)

theorem put (spends : Prop) (p : Place) (s : Store) (ds : Collection) :
    ChangesAt spends p s { s with catalog := s.catalog.put p ds } :=
  ⟨rfl, fun q hq => by rw [Catalog.collection?_put, if_neg hq], fun h => h.put p ds, fun _ => rfl⟩

theorem drop (spends : Prop) (p : Place) (s : Store) :
    ChangesAt spends p s { s with catalog := s.catalog.drop p } :=
  ⟨rfl, fun q hq => by rw [Catalog.collection?_drop, if_neg hq], fun h => h.drop p, fun _ => rfl⟩

theorem spend (hspends : spends) (p : Place) (s : Store) :
    ChangesAt spends p s { s with nextKey := s.nextKey + 1 } :=
  ⟨rfl, fun _ _ => rfl, id, fun hns => absurd hspends hns⟩

/-- Who has a login stays. -/
theorem address (h : ChangesAt spends p s t) : t.address = s.address := by rw [h.rest]

theorem users (h : ChangesAt spends p s t) : t.users = s.users := by rw [h.rest]

end ChangesAt

/-! ## What work at a place depends on -/

/-- Two stores look the same to work at a place. -/
structure AgreeAt (spends : Prop) (p : Place) (s t : Store) : Prop where
  readOnly : t.readOnly = s.readOnly
  collection : t.catalog.collection? p = s.catalog.collection? p
  nextKey : spends → t.nextKey = s.nextKey

namespace AgreeAt

theorem documentsAt (h : AgreeAt spends p s t) : t.documentsAt p = s.documentsAt p := by
  rw [Store.documentsAt, Catalog.documents, h.collection]
  rfl

theorem put (h : AgreeAt spends p s t) (ds : Collection) :
    AgreeAt spends p { s with catalog := s.catalog.put p ds }
      { t with catalog := t.catalog.put p ds } :=
  ⟨h.readOnly, by rw [Catalog.collection?_put, Catalog.collection?_put, if_pos rfl, if_pos rfl],
    h.nextKey⟩

theorem drop (h : AgreeAt spends p s t) :
    AgreeAt spends p { s with catalog := s.catalog.drop p } { t with catalog := t.catalog.drop p } :=
  ⟨h.readOnly, by rw [Catalog.collection?_drop, Catalog.collection?_drop, if_pos rfl, if_pos rfl],
    h.nextKey⟩

theorem spend (h : AgreeAt spends p s t) :
    AgreeAt spends p { s with nextKey := s.nextKey + 1 } { t with nextKey := t.nextKey + 1 } :=
  ⟨h.readOnly, h.collection, fun hs => congrArg (· + 1) (h.nextKey hs)⟩

end AgreeAt

/-- Work at another place, unless both draw keys, is not seen. -/
theorem ChangesAt.agreeAt {spends' : Prop} (h : ChangesAt spends p s t) (hne : q ≠ p)
    (hone : ¬(spends ∧ spends')) : AgreeAt spends' q s t :=
  ⟨by rw [h.rest], h.elsewhere q hne, fun hs' => h.unspent fun hs => hone ⟨hs, hs'⟩⟩

end Store

/-! ## Work at a place -/

namespace StoreM

open Store

variable {α β : Type} {spends : Prop} {p q : Place}

/-- Work that changes one place and depends on that place alone. -/
structure ActsAt (spends : Prop) (p : Place) (m : StoreM α) : Prop where
  changes : ∀ s, ChangesAt spends p s (m.on s).2
  depends : ∀ s t, AgreeAt spends p s t →
    (m.on t).1 = (m.on s).1 ∧ AgreeAt spends p (m.on s).2 (m.on t).2

namespace ActsAt

theorem still {m : StoreM α} (hstill : ∀ s, (m.on s).2 = s)
    (hanswer : ∀ s t, AgreeAt spends p s t → (m.on t).1 = (m.on s).1) : ActsAt spends p m := by
  refine ⟨fun s => ?_, fun s t h => ⟨hanswer s t h, ?_⟩⟩
  · rw [hstill]
    exact .refl _ _ s
  · rw [hstill, hstill]
    exact h

theorem pure (a : α) : ActsAt spends p (Pure.pure a : StoreM α) :=
  still (fun _ => rfl) fun _ _ _ => rfl

theorem throw (e : Failure) : ActsAt spends p (MonadExcept.throw e : StoreM α) :=
  still (fun _ => rfl) fun _ _ _ => rfl

theorem bind {m : StoreM α} {f : α → StoreM β} (hm : ActsAt spends p m)
    (hf : ∀ a, ActsAt spends p (f a)) : ActsAt spends p (m >>= f) := by
  refine ⟨fun s => ?_, fun s t h => ?_⟩
  · have hchanges := hm.changes s
    rw [Effect.on_bind]
    rcases hrun : m.on s with ⟨e | a, u⟩ <;> rw [hrun] at hchanges
    · exact hchanges
    · exact hchanges.trans ((hf a).changes u)
  · obtain ⟨hanswer, hagree⟩ := hm.depends s t h
    rw [Effect.on_bind, Effect.on_bind]
    rcases hs : m.on s with ⟨r, u⟩
    rcases ht : m.on t with ⟨r', v⟩
    rw [hs, ht] at hanswer hagree
    cases hanswer
    cases r with
    | error e => exact ⟨rfl, hagree⟩
    | ok a => exact (hf a).depends u v hagree

theorem map {m : StoreM α} (hm : ActsAt spends p m) (g : α → β) : ActsAt spends p (g <$> m) := by
  rw [map_eq_pure_bind]
  exact hm.bind fun a => .pure (g a)

theorem onTable {m : StoreM α} (hm : ActsAt spends p m) (table : String) :
    ActsAt spends p (m.onTable table) := by
  refine ⟨hm.changes, fun s t h => ?_⟩
  obtain ⟨hanswer, hagree⟩ := hm.depends s t h
  rw [on_onTable, on_onTable, hanswer]
  exact ⟨rfl, hagree⟩

/-- What is bound does not come from the store. -/
theorem bound {ps : List Value} {b : Binding α} {f : α → StoreM β}
    (hf : ∀ a, (b.on { parameters := ps }).1 = .ok a → ActsAt spends p (f a)) :
    ActsAt spends p (Schemaless.bound ps b >>= f) := by
  cases hb : (b.on { parameters := ps }).1 with
  | error e =>
    have hbound : Schemaless.bound ps b = MonadExcept.throw e := by
      rw [Schemaless.bound, hb]
      rfl
    rw [hbound]
    exact .throw e
  | ok a =>
    rw [Schemaless.bound, hb, Effect.ofExcept_ok, pure_bind]
    exact hf a hb

/-- What is read may decide the work, as far as it can be seen at the place. -/
theorem read {f : Store → StoreM α} (hf : ∀ s, ActsAt spends p (f s))
    (hseen : ∀ s t, AgreeAt spends p s t → f t = f s) : ActsAt spends p (get >>= f) := by
  have hrun (s : Store) : (get >>= f).on s = (f s).on s := rfl
  refine ⟨fun s => (hf s).changes s, fun s t h => ?_⟩
  rw [hrun, hrun, hseen s t h]
  exact (hf s).depends s t h

/-! ### Operations -/

/-- A read-only store refuses the work, and is seen to be read-only. -/
theorem guarded {m : StoreM α} {refusal : Failure} {g : Store → Except Failure α × Store}
    (hm : ∀ s, m.on s = if s.readOnly then (.error refusal, s) else g s)
    (hchanges : ∀ s, ChangesAt spends p s (g s).2)
    (hdepends : ∀ s t, AgreeAt spends p s t →
      (g t).1 = (g s).1 ∧ AgreeAt spends p (g s).2 (g t).2) : ActsAt spends p m := by
  refine ⟨fun s => ?_, fun s t h => ?_⟩
  · rw [hm]
    split
    · exact .refl _ _ s
    · exact hchanges s
  · rw [hm, hm]
    by_cases hro : s.readOnly = true
    · rw [if_pos hro, if_pos (h.readOnly.trans hro)]
      exact ⟨rfl, h⟩
    · rw [if_neg hro, if_neg fun hro' => hro (h.readOnly.symm.trans hro')]
      exact hdepends s t h

theorem append (key : Value) (d : Document) : ActsAt spends p (Store.append p key d) := by
  refine ⟨fun s => ?_, fun s t h => ?_⟩
  · rw [on_append]
    split
    · exact .refl _ _ s
    · exact .put _ p s _
  · rw [on_append, on_append, h.documentsAt]
    split
    · exact ⟨rfl, h⟩
    · exact ⟨rfl, h.put _⟩

theorem insert {d : Document} (hd : d.get? nativeKey = none → spends) :
    ActsAt spends p (Store.insert p d) := by
  have happend (key : Value) (d : Document) : ActsAt spends p (Store.append p key d) :=
    append key d
  refine guarded (fun s => on_insert p s d) (fun s => ?_) fun s t h => ?_
  · cases hkey : d.get? nativeKey with
    | some key => exact (happend _ _).changes s
    | none => exact (ChangesAt.spend (hd hkey) p s).trans ((happend _ _).changes _)
  · cases hkey : d.get? nativeKey with
    | some key => exact (happend _ _).depends s t h
    | none =>
      -- both draw the same key
      have hdrawn : keyText t.nextKey = keyText s.nextKey := congrArg keyText (h.nextKey (hd hkey))
      simp only [hdrawn]
      exact (happend _ _).depends _ _ h.spend

theorem replace (filter : Predicate) (d : Document) :
    ActsAt spends p (Store.replace p filter d) := by
  refine guarded (fun s => on_replace p s filter d) (fun s => ?_) fun s t h => ?_
  · split
    · exact .refl _ _ s
    · split
      · exact .refl _ _ s
      · exact .put _ p s _
  · rw [h.documentsAt]
    split
    · exact ⟨rfl, h⟩
    · split
      · exact ⟨rfl, h⟩
      · exact ⟨rfl, h.put _⟩

theorem remove (filter : Predicate) : ActsAt spends p (Store.remove p filter) := by
  refine guarded (fun s => on_remove p s filter) (fun s => ?_) fun s t h => ?_
  · split
    · exact .refl _ _ s
    · exact .put _ p s _
  · rw [h.collection]
    split
    · exact ⟨rfl, h⟩
    · exact ⟨rfl, h.put _⟩

theorem drop : ActsAt spends p (Store.drop p) := by
  refine guarded (on_drop p) (fun s => ?_) fun s t h => ?_
  · split
    · exact .refl _ _ s
    · exact .drop _ p s
  · rw [h.collection]
    split
    · exact ⟨rfl, h⟩
    · exact ⟨rfl, h.drop⟩

/-! ### Two places -/

/-- Work at two places comes to the same in either order, unless both draw keys. -/
theorem eitherOrder {spends' : Prop} {m : StoreM α} {n : StoreM β} (hm : ActsAt spends p m)
    (hn : ActsAt spends' q n) (hne : p ≠ q) (hone : ¬(spends ∧ spends')) {s : Store}
    (hs : s.catalog.Inhabited) : EitherOrder m.on n.on s := by
  have hms := hm.changes s
  have hns := hn.changes s
  have hnm := hn.changes (m.on s).2
  have hmn := hm.changes (n.on s).2
  obtain ⟨hanswer, hagree⟩ := hn.depends s _ (hms.agreeAt hne.symm hone)
  obtain ⟨hanswer', hagree'⟩ := hm.depends s _ (hns.agreeAt hne fun h => hone h.symm)
  have hcatalog : (n.on (m.on s).2).2.catalog = (m.on (n.on s).2).2.catalog := by
    refine (hnm.inhabited (hms.inhabited hs)).ext (hmn.inhabited (hns.inhabited hs)) fun x => ?_
    by_cases hx : x = q
    · subst hx
      rw [hmn.elsewhere x hne.symm, hagree.collection]
    · rw [hnm.elsewhere x hx]
      by_cases hx' : x = p
      · rw [hx', hagree'.collection]
      · rw [hms.elsewhere x hx', hmn.elsewhere x hx', hns.elsewhere x hx]
  have hnext : (n.on (m.on s).2).2.nextKey = (m.on (n.on s).2).2.nextKey := by
    by_cases hspends : spends
    · rw [hnm.unspent fun h => hone ⟨hspends, h⟩, hagree'.nextKey hspends]
    · rw [hmn.unspent hspends]
      by_cases hspends' : spends'
      · exact hagree.nextKey hspends'
      · rw [hnm.unspent hspends', hms.unspent hspends, hns.unspent hspends']
  refine ⟨hanswer, hanswer', ?_⟩
  rw [hnm.rest, hmn.rest, hcatalog, hnext, hms.rest, hns.rest]

end ActsAt

end StoreM

/-! ## Statements -/

section

variable {c : Config} {t : Statement} {ps : List Value}

/-- The statement inserts a document: its record, with the key resolved. -/
def Sql.Statement.Brings (c : Config) (t : Statement) (ps : List Value) (d : Document) : Prop :=
  t.kind = .insert ∧ ∃ record, ((bindRecord t).on { parameters := ps }).1 = .ok record ∧
    d = resolveKey c t.table false record

/-- The statement inserts a document that needs a generated key. -/
def Sql.Statement.DrawsKey (c : Config) (t : Statement) (ps : List Value) : Prop :=
  ∃ d, t.Brings c ps d ∧ d.get? nativeKey = none

theorem actsAt_modify : StoreM.ActsAt (t.DrawsKey c ps) (t.place c) (modify c t ps) := by
  unfold modify
  cases hkind : t.kind with
  | insert =>
    refine .bound fun record hrecord => ?_
    have hbrings : t.Brings c ps (resolveKey c t.table false record) :=
      ⟨hkind, record, hrecord, rfl⟩
    exact ((StoreM.ActsAt.insert fun hnone => ⟨_, hbrings, hnone⟩).onTable _).bind fun _ => .pure _
  | update =>
    refine .bound fun values _ => ?_
    refine .read (fun s => (StoreM.ActsAt.replace _ _).onTable t.table) fun s s' h => ?_
    simp only [Store.find, h.documentsAt]
  | delete =>
    simp only [runDelete]
    split
    · refine .read (fun s => ?_) fun s s' h => ?_
      · split
        · exact .pure 0
        · exact (StoreM.ActsAt.drop.onTable _).bind fun _ => .pure _
      · have hcount : s'.count (t.place c) = s.count (t.place c) :=
          congrArg List.length h.documentsAt
        rw [hcount]
    · exact .bound fun p _ => (StoreM.ActsAt.remove p).onTable _
  | select => exact .throw _

theorem select_of_agreeAt {spends : Prop} {s s' : Store} (h : s.AgreeAt spends (t.place c) s') :
    select c t ps s' = select c t ps s := by
  have hfind (filter : Option Predicate) :
      s'.find (t.place c) filter = s.find (t.place c) filter := by
    cases filter <;> simp only [Store.find, h.documentsAt]
  simp only [select, hfind]

end

end Schemaless
