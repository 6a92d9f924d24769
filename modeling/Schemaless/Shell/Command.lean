import Schemaless.Client.Action
import Schemaless.Config.File
import Schemaless.Sql.Script

/-!
# Commands

A command opens an empty store, loads documents into it, and runs statements on it: those given as
arguments, then those of a script. It prints one line for each row and one for each modifying
statement, and stops at the first failure.
-/

namespace Schemaless

/-- What a command line asks for. The script, the configuration and the seed are paths of files. -/
structure Command where
  statements : List String := []
  script : Option String := none
  config : Option String := none
  seed : Option String := none
  database : Option String := none
  keyColumn : Option String := none
  params : Option String := none

/-- What ends a command early. -/
inductive CommandFault where
  | failure (cause : Failure)
  | unreadable (path reason : String)
  | malformedSeed
  | badSeed (table : String)
  | badParams
  | statement (sql : String) (cause : Failure)

/-- What a command prints, and why it ended early, if it did. -/
structure Printed where
  lines : List String := []
  fault : Option CommandFault := none

/-! ## Seeds -/

/-- Loads the documents of a table, each under its logical key. -/
def seedTable (c : Config) (table : String) (documents : List Document) : StoreM Unit :=
  Store.insertAll ⟨c.database, table⟩ (documents.map (resolveKey c table false))

/-- The documents of a table in a seed. -/
def seedDocuments (table : String) : Value → Except CommandFault (List Document)
  | .arr items =>
    match items.mapM Document.ofValue? with
    | some documents => .ok documents
    | none => .error (.badSeed table)
  | _ => .error (.badSeed table)

/-- Loads the tables of a seed up to the first that cannot be loaded. -/
def seedTables (c : Config) : List (String × Value) → Store → Except CommandFault Unit × Store
  | [], store => (.ok (), store)
  | (table, v) :: rest, store =>
    match seedDocuments table v with
    | .error e => (.error e, store)
    | .ok documents =>
      match (seedTable c table documents).on store with
      | (.error e, store) => (.error (.failure e), store)
      | (.ok (), store) => seedTables c rest store

namespace Command

/-! ## What a command starts from -/

/-- The text of a file. -/
def readText (files : Files) (path : String) : Except CommandFault String :=
  (files path).mapError (.unreadable path)

/-- The configuration of a command: its file or the local store, the variables of the environment,
then the options. -/
def configuration (c : Command) (environment : String → Option String) (files : Files) :
    Except CommandFault Config :=
  let base : Except ConfigFault Config :=
    match c.config with
    | some path => Config.load files path
    | none => .ok (Config.ofHost "127.0.0.1" "docsql")
  match base with
  | .error e => .error (.failure (.config e))
  | .ok config =>
    let config := config.override environment
    .ok { config with
      database := c.database.getD config.database
      keyColumn := c.keyColumn.getD config.keyColumn }

/-- The store of a command, with its seed loaded. -/
def seeded (c : Command) (config : Config) (files : Files) : Except CommandFault Store :=
  let store : Store := { address := config.address }
  match c.seed with
  | none => .ok store
  | some path =>
    match readText files path with
    | .error e => .error e
    | .ok text =>
      match Value.parse? text with
      | some (.obj tables) =>
        match seedTables config tables store with
        | (.error e, _) => .error e
        | (.ok (), store) => .ok store
      | _ => .error .malformedSeed

/-- The parameters that an option gives to every statement. -/
def parameters (c : Command) : Except CommandFault (List Value) :=
  match c.params with
  | none => .ok []
  | some text =>
    match Value.parse? text with
    | some (.arr items) => .ok items
    | _ => .error .badParams

/-- All statements of a command. -/
def allStatements (c : Command) (files : Files) : Except CommandFault (List String) :=
  match c.script with
  | none => .ok c.statements
  | some path => (readText files path).map fun script => c.statements ++ Sql.statementsOf script

/-! ## Runs -/

/-- The line that reports a modifying statement. -/
def affectedLine (n : Nat) : String := (Value.obj [("rows_affected", .ofInt n)]).render

/-- Runs one statement: the lines it prints. -/
def runStatement (sql : String) (parameters : List Value) : ClientM (List String) := do
  let s ← ClientM.parse sql
  if s.kind = .select then
    let d ← Client.queryStatement s parameters Receiver.all
    pure (d.rows.map fun r => (Document.toValue r.values).render)
  else
    let n ← Client.executeStatement s parameters
    pure [affectedLine n]

/-- Runs statements up to the first that fails. -/
def runStatements (parameters : List Value) : List String → Client → Printed
  | [], _ => {}
  | sql :: rest, client =>
    match (runStatement sql parameters).on client with
    | (.error e, _) => { fault := some (.statement sql e) }
    | (.ok lines, client) =>
      let p := runStatements parameters rest client
      { p with lines := lines ++ p.lines }

/-- Runs a command. -/
def run (c : Command) (environment : String → Option String) (files : Files) : Printed :=
  let started : Except CommandFault Printed := do
    let config ← c.configuration environment files
    let store ← c.seeded config files
    let parameters ← c.parameters
    let statements ← c.allStatements files
    let client ← (Client.opened { config, store, files }).mapError .failure
    return runStatements parameters statements client
  match started with
  | .ok printed => printed
  | .error fault => { fault := some fault }

end Command

end Schemaless
