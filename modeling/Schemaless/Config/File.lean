import Schemaless.Config.Credential
import Schemaless.Config.Parameters
import Schemaless.Toml.Reader

/-!
# Configuration files

A configuration file is a TOML text. Every setting may be left out; names that are no settings are
passed over; a setting of the wrong kind or out of its range is a fault. The database may be called
`dbname`, but not twice. The settings of a table may also be written as a list, in their order.
-/

namespace Schemaless.Config

open Toml

/-- The value of a setting, if it is given; nothing at all if it is of the wrong kind. -/
def setting? {α : Type} (read : Node → Option α) (entries : Entries) (name : String) :
    Option (Option α) :=
  match entries.lookup name with
  | none => some none
  | some node => (read node).map some

/-- The text of a node. -/
def text? : Node → Option String
  | .text s => some s
  | _ => none

/-- The number of a node, below a bound. -/
def count? (bound : Nat) : Node → Option Nat
  | .whole n => if 0 ≤ n ∧ n < bound then some n.toNat else none
  | _ => none

/-- The settings of one table. A date holds none of them. -/
def table? : Node → Option TableConfig
  | .inline entries => (setting? text? entries "key_column").map (⟨·⟩)
  | .table _ entries => (setting? text? entries "key_column").map (⟨·⟩)
  | .list [] => some {}
  | .list (.text s :: _) => some ⟨some s⟩
  | .moment => some {}
  | _ => none

/-- The settings of named tables. -/
def namedTables? (entries : Entries) : Option (SortedMap TableConfig) :=
  entries.foldlM (fun m e => (table? e.2).map (m.insert e.1 ·)) SortedMap.empty

/-- The settings of all tables. -/
def tables? : Node → Option (SortedMap TableConfig)
  | .inline entries => namedTables? entries
  | .table _ entries => namedTables? entries
  | _ => none

/-- The configuration that the entries of a file give. -/
def ofEntries? (entries : Entries) : Option Config := do
  let host ← setting? text? entries "host"
  let port ← setting? (count? portBound) entries "port"
  let database ← setting? text? entries "database"
  let dbname ← setting? text? entries "dbname"
  if database.isSome && dbname.isSome then none
  let timeout ← setting? (count? countBound) entries "timeout_sec"
  let credentials ← setting? text? entries "credentials"
  let keyColumn ← setting? text? entries "key_column"
  let tables ← setting? tables? entries "tables"
  let maxPoolSize ← setting? (count? countBound) entries "max_pool_size"
  let maxSampled ← setting? (count? countBound) entries "max_sampled_documents"
  let c : Config := {}
  return {
    host := host.getD c.host
    port := port.getD c.port
    database := (database.or dbname).getD c.database
    timeout
    credentials
    keyColumn := keyColumn.getD c.keyColumn
    tables := tables.getD c.tables
    maxPoolSize := maxPoolSize.getD c.maxPoolSize
    maxSampled := maxSampled.getD c.maxSampled }

/-- The configuration of a file's text. -/
def ofToml (text : String) : Except ConfigFault Config :=
  match (Toml.parse? text).bind ofEntries? with
  | some c => .ok c
  | none => .error .malformed

/-- The configuration of a file. -/
def load (files : Files) (path : String) : Except ConfigFault Config :=
  match files path with
  | .ok text => ofToml text
  | .error reason => .error (.unreadable path reason)

end Schemaless.Config
