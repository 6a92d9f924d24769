import Schemaless.Store.Basic

/-!
# Look-ups in a catalog

What the two writes to a catalog do to every look-up: `Catalog.put` gives one place its documents and
leaves every other place alone (`collection?_put`), `Catalog.drop` takes one place away
(`collection?_drop`). `Catalog.Inhabited` says that every database has a collection; both writes
keep it, since `drop` takes an emptied database away as well.
-/

namespace Schemaless

namespace SortedMap

variable {α : Type}

theorem get?_of_isEmpty {m : SortedMap α} (h : m.isEmpty = true) (n : String) :
    m.get? n = none := by
  have : m.entries = [] := by simpa [isEmpty] using h
  simp [get?, this]

theorem isEmpty_insert (m : SortedMap α) (name : String) (value : α) :
    (m.insert name value).isEmpty = false := by
  have h : (m.insert name value).get? name = some value := by simp [get?_insert]
  cases hm : (m.insert name value).isEmpty with
  | false => rfl
  | true => rw [get?_of_isEmpty hm] at h; cases h

end SortedMap

namespace Catalog

variable {c : Catalog} {p q : Place}

theorem collection?_congr {c c' : Catalog} (h : c'.get? q.database = c.get? q.database) :
    collection? c' q = collection? c q := by
  rw [collection?, h, collection?]

/-! ## Putting documents at a place -/

theorem get?_put (c : Catalog) (p : Place) (ds : Collection) (name : String) :
    (put c p ds).get? name =
      if name = p.database then
        some (((c.get? p.database).getD SortedMap.empty).insert p.collection ds)
      else c.get? name := by
  rw [put, SortedMap.get?_insert]

theorem collection?_put (c : Catalog) (p q : Place) (ds : Collection) :
    collection? (put c p ds) q = if q = p then some ds else collection? c q := by
  obtain ⟨pd, pc⟩ := p
  obtain ⟨qd, qc⟩ := q
  by_cases hd : qd = pd
  · subst hd
    simp only [collection?, get?_put, if_true, Option.bind_some, SortedMap.get?_insert,
      Place.mk.injEq, true_and]
    split
    · rfl
    · cases c.get? qd <;> rfl
  · have hne : (⟨qd, qc⟩ : Place) ≠ ⟨pd, pc⟩ := fun h => hd (Place.mk.inj h).1
    rw [if_neg hne]
    refine collection?_congr ?_
    rw [get?_put, if_neg hd]

theorem documents_put (c : Catalog) (p q : Place) (ds : Collection) :
    documents (put c p ds) q = if q = p then ds else documents c q := by
  rw [documents, collection?_put]
  split <;> rfl

/-! ## Dropping a place -/

theorem get?_drop (c : Catalog) (p : Place) (name : String) :
    (drop c p).get? name =
      if name = p.database then
        ((c.get? name).map (·.erase p.collection)).filter (!·.isEmpty)
      else c.get? name := by
  rw [drop]
  cases hdb : c.get? p.database with
  | none => by_cases h : name = p.database <;> simp [h, hdb]
  | some db =>
    cases hrest : (db.erase p.collection).isEmpty with
    | true =>
      by_cases h : name = p.database <;>
        simp [h, hdb, hrest, SortedMap.get?_erase, Option.filter_some]
    | false =>
      by_cases h : name = p.database <;>
        simp [h, hdb, hrest, SortedMap.get?_insert, Option.filter_some]

theorem collection?_drop (c : Catalog) (p q : Place) :
    collection? (drop c p) q = if q = p then none else collection? c q := by
  obtain ⟨pd, pc⟩ := p
  obtain ⟨qd, qc⟩ := q
  by_cases hd : qd = pd
  · subst hd
    simp only [collection?, get?_drop, if_true, Place.mk.injEq, true_and]
    cases hdb : c.get? qd with
    | none => simp
    | some db =>
      have hget : (db.erase pc).get? qc = if qc = pc then none else db.get? qc :=
        SortedMap.get?_erase db pc qc
      cases hrest : (db.erase pc).isEmpty with
      | true =>
        rw [SortedMap.get?_of_isEmpty hrest] at hget
        simp [hrest, ← hget, Option.filter_some]
      | false => simp [hrest, hget, Option.filter_some]
  · have hne : (⟨qd, qc⟩ : Place) ≠ ⟨pd, pc⟩ := fun h => hd (Place.mk.inj h).1
    rw [if_neg hne]
    refine collection?_congr ?_
    rw [get?_drop, if_neg hd]

theorem documents_drop (c : Catalog) (p q : Place) :
    documents (drop c p) q = if q = p then [] else documents c q := by
  rw [documents, collection?_drop]
  split <;> rfl

theorem documents_of_collection? {c : Catalog} {p : Place} {ds : Collection}
    (h : collection? c p = some ds) : documents c p = ds := by
  rw [documents, h]
  rfl

/-! ## No empty database -/

/-- Every database has a collection. -/
def Inhabited (c : Catalog) : Prop :=
  ∀ name database, c.get? name = some database → database.isEmpty = false

theorem Inhabited.put (h : Inhabited c) (p : Place) (ds : Collection) :
    Inhabited (put c p ds) := by
  intro name database hget
  rw [get?_put] at hget
  split at hget
  · cases hget
    exact SortedMap.isEmpty_insert _ _ _
  · exact h name database hget

theorem Inhabited.drop (h : Inhabited c) (p : Place) : Inhabited (drop c p) := by
  intro name database hget
  rw [get?_drop] at hget
  split at hget
  · simpa using (Option.filter_eq_some_iff.1 hget).2
  · exact h name database hget

theorem Inhabited.collection?_of_get? (h : Inhabited c) {name : String} {database : Database}
    (hget : c.get? name = some database) :
    ∃ collection ds, collection? c ⟨name, collection⟩ = some ds := by
  have hne := h name database hget
  cases hentries : database.entries with
  | nil => simp [SortedMap.isEmpty, hentries] at hne
  | cons e rest =>
    obtain ⟨collection, ds⟩ := e
    refine ⟨collection, ds, ?_⟩
    rw [collection?, hget, Option.bind_some, SortedMap.get?, hentries, List.lookup_cons_self]

/-- Catalogs without empty databases are told apart by their collections. -/
theorem Inhabited.ext {c c' : Catalog} (h : Inhabited c) (h' : Inhabited c')
    (hsame : ∀ p, collection? c p = collection? c' p) : c = c' := by
  refine SortedMap.ext_get? fun name => ?_
  cases hget : c.get? name with
  | none =>
    cases hget' : c'.get? name with
    | none => rfl
    | some database =>
      obtain ⟨collection, ds, hds⟩ := h'.collection?_of_get? hget'
      rw [← hsame, collection?, hget] at hds
      cases hds
  | some database =>
    cases hget' : c'.get? name with
    | none =>
      obtain ⟨collection, ds, hds⟩ := h.collection?_of_get? hget
      rw [hsame, collection?, hget'] at hds
      cases hds
    | some database' =>
      congr 1
      refine SortedMap.ext_get? fun collection => ?_
      have hcollection := hsame ⟨name, collection⟩
      rwa [collection?, collection?, hget, hget', Option.bind_some, Option.bind_some] at hcollection

end Catalog

end Schemaless
