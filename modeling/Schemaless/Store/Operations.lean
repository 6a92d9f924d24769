import Schemaless.Store.Basic

/-!
# What a store does

Inserting, replacing, removing, counting and finding documents, and dropping a collection. A
read-only store refuses every change before anything else. Keys stay unique in a collection: an
insertion under a key that is equal to a present one is refused, and a replacement keeps the key.
-/

namespace Schemaless.Store

/-- Whether a document has a key equal to a value. -/
def hasKey (key : Value) (d : Document) : Bool := (d.get? nativeKey).any (·.equal key)

/-- Refuses a change while the store is read-only. -/
def checkWritable (p : Place) : StoreM Unit := fun s =>
  if s.readOnly then (.error (.internal (.readOnly p.collection)), s) else (.ok (), s)

/-- Gives a document its key: its own, or the next generated one. -/
def withKey (d : Document) : StoreM (Value × Document) := fun s =>
  match d.get? nativeKey with
  | some key => (.ok (key, d), s)
  | none =>
    let key := Value.str (keyText s.nextKey)
    (.ok (key, d.insert nativeKey key), { s with nextKey := s.nextKey + 1 })

/-- Appends a document to a collection unless a document there has an equal key. -/
def append (p : Place) (key : Value) (d : Document) : StoreM Unit := fun s =>
  let documents := Catalog.documents s.catalog p
  if documents.any (hasKey key) then (.error (.duplicateKey p.collection key), s)
  else (.ok (), { s with catalog := Catalog.put s.catalog p (documents ++ [d]) })

/-- Inserts a document. -/
def insert (p : Place) (d : Document) : StoreM Unit := do
  checkWritable p
  let (key, d) ← withKey d
  append p key d

/-- Inserts documents one after the other, up to the first that is refused. -/
def insertAll (p : Place) : List Document → StoreM Unit
  | [] => pure ()
  | d :: rest => do
    insert p d
    insertAll p rest

/-- Puts an item in the place of the first one that satisfies a test. -/
def replaceFirst {α : Type} (test : α → Bool) (item : α) : List α → List α
  | [] => []
  | a :: rest => if test a then item :: rest else a :: replaceFirst test item rest

/-- The document that takes the place of `old`: it has the same key, or none and takes it over. -/
def successor (p : Place) (old new : Document) : Except Failure Document :=
  let key := (old.get? nativeKey).getD .null
  match new.get? nativeKey with
  | none => .ok (new.insert nativeKey key)
  | some k =>
    if k.equal key then .ok new
    else .error (.internal (.keyChanged nativeKey p.collection key k))

/-- Replaces the first document that satisfies a predicate; the number of documents replaced. -/
def replace (p : Place) (filter : Predicate) (d : Document) : StoreM Nat := do
  checkWritable p
  let s ← get
  let documents := Catalog.documents s.catalog p
  match documents.find? (Predicate.holds filter) with
  | none => pure 0
  | some old =>
    let new ← Effect.ofExcept (successor p old d)
    let documents := replaceFirst (Predicate.holds filter) new documents
    set { s with catalog := Catalog.put s.catalog p documents }
    pure 1

/-- Removes every document that satisfies a predicate; their number. -/
def remove (p : Place) (filter : Predicate) : StoreM Nat := do
  checkWritable p
  let s ← get
  match Catalog.collection? s.catalog p with
  | none => pure 0
  | some documents =>
    let kept := documents.filter fun d => !Predicate.holds filter d
    set { s with catalog := Catalog.put s.catalog p kept }
    pure (documents.length - kept.length)

/-- Removes a collection. -/
def drop (p : Place) : StoreM Unit := do
  checkWritable p
  let s ← get
  match Catalog.collection? s.catalog p with
  | none => throw (.collectionNotFound p.collection)
  | some _ => set { s with catalog := Catalog.drop s.catalog p }

/-- The documents of a collection. -/
def documentsAt (s : Store) (p : Place) : Collection := Catalog.documents s.catalog p

/-- The number of documents of a collection. -/
def count (s : Store) (p : Place) : Nat := (s.documentsAt p).length

/-- The documents that satisfy a predicate, or all, in the order of insertion. -/
def find (s : Store) (p : Place) (filter : Option Predicate) : List Document :=
  match filter with
  | none => s.documentsAt p
  | some f => (s.documentsAt p).filter (Predicate.holds f)

end Schemaless.Store
