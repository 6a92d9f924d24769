import Schemaless.Pool
import Schemaless.Sql.Statement.Parser
import Schemaless.Store.Selection

/-!
# A client of a store

A client has a configuration, a store, a pool of sessions and a parser of statements. Work on the
store needs a session: one that waits is taken as it is; otherwise the configuration is checked, the
credential is read, and the store is dialed. The session goes back to the pool however the work
ends.
-/

namespace Schemaless

/-- A client. -/
structure Client where
  config : Config
  store : Store
  pool : Pool := {}
  /-- The files in which credentials are looked up. -/
  files : Files := noFiles
  /-- Why every attempt to dial fails, when the store cannot be reached. -/
  outage : Option String := none
  /-- The parser of statements. -/
  parser : String → Except Sql.ParseFault Sql.Statement := Sql.Statement.parse

/-- A computation of a client. -/
abbrev ClientM (α : Type) : Type := Effect Client α

namespace Client

/-- A client whose configuration names a database and a host. -/
def opened (c : Client) : Except Failure Client :=
  match c.config.validate with
  | .ok () => .ok c
  | .error e => .error (.config e)

/-- Dials the store: whether a session opens. -/
def connect (c : Client) : Except Failure Unit :=
  match c.config.validate with
  | .error e => .error (.config e)
  | .ok () =>
    match c.config.credential c.files with
    | .error e => .error (.config e)
    | .ok credential =>
      match c.outage with
      | some reason => .error (.dialFailed c.config.address (.internal (.reported reason)))
      | none => c.store.permit c.config.address credential

/-- Gives a session back. -/
def release (c : Client) (s : Session) : Client :=
  { c with pool := c.pool.release c.config.maxPoolSize s }

end Client

namespace ClientM

variable {α : Type}

/-- Takes a waiting session, or dials. -/
def acquire : ClientM Session := fun c =>
  match c.pool.take? with
  | some (s, pool) => (.ok s, { c with pool })
  | none =>
    match c.connect with
    | .error e => (.error e, c)
    | .ok () =>
      let (s, pool) := c.pool.dial
      (.ok s, { c with pool })

/-- Does work with a session and gives the session back. -/
def withSession (work : ClientM α) : ClientM α := fun c =>
  match acquire.on c with
  | (.error e, c) => (.error e, c)
  | (.ok s, c) =>
    let (r, c) := work.on c
    (r, c.release s)

/-- Runs a computation on the client's store. -/
def onStore (m : StoreM α) : ClientM α := fun c =>
  let (r, store) := m.on c.store
  (r, { c with store })

/-- Parses a statement. -/
def parse (sql : String) : ClientM Sql.Statement := fun c =>
  ((c.parser sql).mapError .parse, c)

/-- Runs a modifying statement on the store. -/
def modifyStore (s : Sql.Statement) (parameters : List Value) : ClientM Nat := do
  let c ← get
  onStore (modify c.config s parameters)

/-- Hands the rows of a reading statement to a receiver. -/
def deliverRows (s : Sql.Statement) (parameters : List Value) (receiver : Receiver) :
    ClientM Delivery := fun c =>
  ((select c.config s parameters c.store).map (deliver receiver 1), c)

end ClientM

namespace Client

open ClientM

/-! ## Statements -/

/-- Runs a modifying statement that is parsed already. -/
def executeStatement (s : Sql.Statement) (parameters : List Value) : ClientM Nat :=
  withSession (modifyStore s parameters)

/-- Runs a modifying statement. -/
def execute (sql : String) (parameters : List Value) : ClientM Nat := do
  executeStatement (← parse sql) parameters

/-- Runs a modifying statement with a session at hand. -/
def executeHeld (sql : String) (parameters : List Value) : ClientM Nat := do
  modifyStore (← parse sql) parameters

/-- Hands the rows of a statement that is parsed already to a receiver. -/
def queryStatement (s : Sql.Statement) (parameters : List Value) (receiver : Receiver) :
    ClientM Delivery :=
  withSession (deliverRows s parameters receiver)

/-- Hands the rows of a statement to a receiver. -/
def query (sql : String) (parameters : List Value) (receiver : Receiver) : ClientM Delivery := do
  queryStatement (← parse sql) parameters receiver

/-- Hands the rows of a statement to a receiver, with a session at hand. -/
def queryHeld (sql : String) (parameters : List Value) (receiver : Receiver) :
    ClientM Delivery := do
  deliverRows (← parse sql) parameters receiver

/-- Reads every row of a statement into a record. -/
def readAll {α : Type} (decode : Row → Except Failure α) (sql : String) (parameters : List Value) :
    ClientM (List α) := do
  let d ← query sql parameters Receiver.all
  Effect.ofExcept (d.rows.mapM decode)

/-- Reads the first row of a statement into a record, if there is a row. -/
def readFirst {α : Type} (decode : Row → Except Failure α) (sql : String)
    (parameters : List Value) : ClientM (Option α) := do
  let d ← query sql parameters Receiver.one
  match d.rows with
  | [] => pure none
  | r :: _ => some <$> Effect.ofExcept (decode r)

end Client

end Schemaless
