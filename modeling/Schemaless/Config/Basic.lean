import Schemaless.Failure
import Schemaless.Document.Basic

/-!
# Configuration

A configuration says where the store is, which database to use, how many sessions to keep, how many
documents to sample, and which column of each table is its logical key: the column set for the
table, else the one set for all tables, else the native key field. An empty name counts as unset.
-/

namespace Schemaless

/-- The settings of one table. -/
structure TableConfig where
  keyColumn : Option String := none
deriving DecidableEq

/-- The settings of a client. -/
structure Config where
  host : String := ""
  port : Nat := 27017
  database : String := ""
  /-- The connect timeout in seconds. -/
  timeout : Option Nat := none
  /-- The path of a file with a user name and a password. -/
  credentials : Option String := none
  keyColumn : String := nativeKey
  tables : SortedMap TableConfig := SortedMap.empty
  maxPoolSize : Nat := 1
  maxSampled : Nat := 20

namespace Config

/-- The settings of a local store and a database. -/
def ofHost (host database : String) : Config := { host, database }

/-- Sets the key column of one table. -/
def setTableKey (c : Config) (table column : String) : Config :=
  { c with tables := c.tables.insert table ⟨some column⟩ }

/-- Where the store listens. -/
def address (c : Config) : String := c.host ++ ":" ++ toString c.port

/-- The key column set for a table alone. -/
def tableKey? (c : Config) (table : String) : Option String :=
  ((c.tables.get? table).bind (·.keyColumn)).filter (· ≠ "")

/-- The logical key column of a table. -/
def keyOf (c : Config) (table : String) : String :=
  (c.tableKey? table).getD (if c.keyColumn = "" then nativeKey else c.keyColumn)

/-- Checks what has to be set before the store is dialed. -/
def validate (c : Config) : Except ConfigFault Unit :=
  if c.database = "" then .error .noDatabase
  else if c.host = "" then .error .noHost
  else .ok ()

/-- Whether the database and the host are set. -/
def IsValid (c : Config) : Prop := c.database ≠ "" ∧ c.host ≠ ""

theorem validate_eq_ok_iff (c : Config) : c.validate = .ok () ↔ c.IsValid := by
  unfold validate IsValid
  split
  · simp_all
  · split <;> simp_all

end Config

/-- Gives a record its native key, unless it has one: the value under the table's logical key
column, which is copied, or moved when `replace` is set. -/
def resolveKey (c : Config) (table : String) (replace : Bool) (record : Document) : Document :=
  if record.contains nativeKey then record
  else
    let column := c.keyOf table
    match record.get? column with
    | none => record
    | some v => (if replace then record.erase column else record).insert nativeKey v

end Schemaless
