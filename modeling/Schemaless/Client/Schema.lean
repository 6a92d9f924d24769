import Schemaless.Client.Basic

/-!
# What can be known of a store

Databases and tables are known by their names. Tables have no schema, so the columns of a table are
those of a sample: the first documents, up to the configured number. The names stand in the order
in which they first occur, and the kind of a column is that of its value in the last document of
the sample.
-/

namespace Schemaless

/-- A column of a sample; without a kind if the last document lacks it. -/
structure SampledColumn where
  name : String
  kind : Option Value.Kind
deriving DecidableEq

/-- What a session leads to. -/
inductive SessionKind where
  | memory
  | remote
deriving DecidableEq

/-- Adds names that are not there yet. -/
def addNames (names more : List String) : List String :=
  more.foldl (fun ns n => if ns.contains n then ns else ns ++ [n]) names

/-- The names of the fields of some documents, in the order in which they first occur. -/
def sampledNames (documents : List Document) : List String :=
  documents.foldl (fun names d => addNames names d.names) []

/-- The columns of a sample. -/
def sampledColumns (documents : List Document) : List SampledColumn :=
  (sampledNames documents).map fun name =>
    ⟨name, ((documents.getLast?.bind (·.get? name)).map Value.kind)⟩

namespace Client

open ClientM

/-- The columns of a table, as far as a sample of its documents shows them. -/
def columns (table : String) : ClientM (List SampledColumn) := do
  let limit := (← get).config.maxSampled
  withSession do
    let c ← get
    pure (sampledColumns ((c.store.documentsAt ⟨c.config.database, table⟩).take limit))

/-- The logical key column of a table. -/
def keyName (c : Client) (table : String) : String := c.config.keyOf table

/-- The database that statements work on. -/
def currentDatabase (c : Client) : String := c.config.database

/-- The address behind a session, for who knows the kind of the session: a store in memory has
sessions of one kind only. -/
def nativeAddress (c : Client) : SessionKind → Except Failure String
  | .memory => .ok c.store.address
  | .remote => .error (.unsupportedCapability "native session")

/-- Whether records can be written in one batch. -/
def canPersistBatch : Bool := false

/-- Drops a table of a database. -/
def dropTable (database table : String) : ClientM Unit :=
  withSession (onStore ((Store.drop ⟨database, table⟩).onTable table))

/-- The names of the databases. -/
def databases : ClientM (List String) :=
  withSession do pure (← get).store.catalog.names

/-- The names of the tables of a database. -/
def tables (database : String) : ClientM (List String) :=
  withSession do pure (Catalog.collectionNames (← get).store.catalog database)

end Client

end Schemaless
