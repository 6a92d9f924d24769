import Schemaless.Config.Credential
import Schemaless.Document.Matching
import Schemaless.Effect

/-!
# The store

A store listens at one address. Its databases hold collections, and a collection holds documents in
the order of their insertion. Users, if there are any, have to log in. A document that is inserted
without a native key gets the next generated one.
-/

namespace Schemaless

/-- The documents of a collection, in the order of insertion. -/
abbrev Collection : Type := List Document

/-- The collections of a database. -/
abbrev Database : Type := SortedMap Collection

/-- The databases of a store. -/
abbrev Catalog : Type := SortedMap Database

/-- A collection's place in a store. -/
structure Place where
  database : String
  collection : String
deriving DecidableEq

namespace Catalog

/-- The collection at a place, if there is one. -/
def collection? (c : Catalog) (p : Place) : Option Collection :=
  (c.get? p.database).bind (·.get? p.collection)

/-- The documents at a place; none where there is no collection. -/
def documents (c : Catalog) (p : Place) : Collection := (collection? c p).getD []

/-- Puts documents at a place, making the collection and the database if they are missing. -/
def put (c : Catalog) (p : Place) (documents : Collection) : Catalog :=
  c.insert p.database (((c.get? p.database).getD SortedMap.empty).insert p.collection documents)

/-- Removes the collection at a place, and its database if nothing is left in it. -/
def drop (c : Catalog) (p : Place) : Catalog :=
  match c.get? p.database with
  | none => c
  | some database =>
    let rest := database.erase p.collection
    if rest.isEmpty then c.erase p.database else c.insert p.database rest

/-- The names of the collections of a database. -/
def collectionNames (c : Catalog) (database : String) : List String :=
  ((c.get? database).map SortedMap.names).getD []

end Catalog

/-- A store. -/
structure Store where
  address : String
  /-- The passwords of the users. -/
  users : SortedMap String := SortedMap.empty
  catalog : Catalog := SortedMap.empty
  readOnly : Bool := false
  /-- The number of the next generated key. -/
  nextKey : Nat := 1

namespace Store

/-- The address of a store nobody placed elsewhere. -/
def defaultAddress : String := "127.0.0.1:27017"

/-- The text of a generated key: its number, of 64 bits, in 24 hexadecimal digits. -/
def keyText (n : Nat) : String :=
  let ds := Nat.toDigits 16 (n % 0x10000000000000000)
  String.ofList (List.replicate (24 - ds.length) '0' ++ ds)

/-- Whether a credential is that of a user. -/
def knows (s : Store) (credential : Credential) : Bool :=
  s.users.get? credential.username == some credential.password

/-- Opens a session: the address has to be the store's, and where there are users one of them has to
log in. -/
def permit (s : Store) (address : String) (credential : Option Credential) : Except Failure Unit :=
  if address ≠ s.address then .error (.refused address)
  else if s.users.isEmpty || credential.any s.knows then .ok ()
  else .error (.loginRejected address)

end Store

/-- A computation on a store. -/
abbrev StoreM (α : Type) : Type := Effect Store α

namespace StoreM

variable {α : Type}

/-- Names the table in the failures of a computation. -/
def onTable (table : String) (m : StoreM α) : StoreM α := fun s =>
  let (r, s) := m.on s
  (r.mapError (.store table), s)

end StoreM

end Schemaless
