import Schemaless.Config.Basic
import Schemaless.Text.Blank

/-!
# Configurations from parameters

A configuration can be given as a flat list of names and values. Values are trimmed; a later value
of a name counts; a name that is not known is passed over. `<table>.keyColumn` sets the key column
of a table. Three variables of the environment override what was configured.
-/

namespace Schemaless.Config

/-- A number without a minus, below a bound. -/
def number? (bound : Nat) (text : String) : Option Nat :=
  let cs := match text.toList with
    | '+' :: r => r
    | r => r
  if cs.isEmpty || !cs.all Char.isDigit then none
  else
    let n := ofDigits cs
    if n < bound then some n else none

/-- The bound of a port. -/
def portBound : Nat := 0x10000

/-- The bound of a count. -/
def countBound : Nat := 0x10000000000000000

/-- The ending of a parameter that sets a table's key column. -/
def tableKeySuffix : String := ".keyColumn"

/-- The table whose key column a parameter sets. -/
def tableOf? (name : String) : Option String :=
  let cs := name.toList
  let suffix := tableKeySuffix.toList
  let table := cs.take (cs.length - suffix.length)
  if table ≠ [] ∧ table ++ suffix = cs then some (String.ofList table) else none

/-- The number that a parameter gives, or the fault that names it. -/
def numeric (bound : Nat) (name value : String) : Except ConfigFault Nat :=
  match number? bound value with
  | some n => .ok n
  | none => .error (.badParameter name value)

/-- Applies one parameter, its value trimmed. -/
def applyParameter (c : Config) (name value : String) : Except ConfigFault Config :=
  match name with
  | "host" => .ok { c with host := value }
  | "port" => (numeric portBound name value).map fun n => { c with port := n }
  | "dbname" => .ok { c with database := value }
  | "timeoutSec" => (numeric countBound name value).map fun n => { c with timeout := some n }
  | "credentials" => .ok { c with credentials := some value }
  | "keyColumn" => .ok { c with keyColumn := value }
  | "maxPoolSize" => (numeric countBound name value).map fun n => { c with maxPoolSize := n }
  | "maxSampledDocuments" => (numeric countBound name value).map fun n => { c with maxSampled := n }
  | _ =>
    match tableOf? name with
    | some table => .ok (c.setTableKey table value)
    | none => .ok c

/-- Applies parameters from first to last. -/
def applyParameters (c : Config) : List (String × String) → Except ConfigFault Config
  | [] => .ok c
  | (name, value) :: rest =>
    match applyParameter c name (Text.trim value) with
    | .error e => .error e
    | .ok c => applyParameters c rest

/-- The configuration that a list of parameters gives. -/
def ofParameters (parameters : List (String × String)) : Except ConfigFault Config :=
  applyParameters {} parameters

/-- Applies the variables of the environment: a host or a database that is not empty, and a port
that is one. -/
def override (c : Config) (environment : String → Option String) : Config :=
  let host := ((environment "DOCSQL_HOST").filter (· ≠ "")).getD c.host
  let port := ((environment "DOCSQL_PORT").bind (number? portBound)).getD c.port
  let database := ((environment "DOCSQL_DATABASE").filter (· ≠ "")).getD c.database
  { c with host, port, database }

end Schemaless.Config
