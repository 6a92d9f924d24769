import Schemaless.Client.Basic

/-!
# Writing records

Records are written one by one: a record whose key is there updates the document of that key, any
other is inserted. Each write is a statement of its own, made of the record's names as quoted
identifiers with one placeholder per value, so that no name can be anything but a name.
-/

namespace Schemaless

open Sql

/-- A name as a quoted identifier. -/
def quotedIdentifier (name : String) : String :=
  String.ofList (Delimiter.backtick.quote name.toList)

/-- The statement that looks for a key. -/
def lookupText (table keyColumn : String) : String :=
  let column := quotedIdentifier keyColumn
  "SELECT " ++ column ++ " FROM " ++ quotedIdentifier table ++ " WHERE " ++ column ++ " = ?"

/-- The statement that sets columns under a key. -/
def updateText (table keyColumn : String) (names : List String) : String :=
  let assignments := names.map fun n => quotedIdentifier n ++ " = ?"
  "UPDATE " ++ quotedIdentifier table ++ " SET " ++ String.intercalate ", " assignments ++
    " WHERE " ++ quotedIdentifier keyColumn ++ " = ?"

/-- The statement that inserts a record. -/
def insertText (table : String) (names : List String) : String :=
  "INSERT INTO " ++ quotedIdentifier table ++ "(" ++
    String.intercalate ", " (names.map quotedIdentifier) ++ ") VALUES(" ++
    String.intercalate ", " (names.map fun _ => "?") ++ ")"

/-- The key of a record, unless it is missing or null. -/
def recordKey? (keyColumn : String) (record : Document) : Option Value :=
  match record.get? keyColumn with
  | some .null => none
  | key => key

/-- How many records were inserted and how many updated. -/
structure Tally where
  inserted : Nat := 0
  updated : Nat := 0
deriving DecidableEq

/-- The sum of two tallies. -/
def Tally.add (a b : Tally) : Tally := ⟨a.inserted + b.inserted, a.updated + b.updated⟩

namespace Client

open ClientM

/-- Whether the table has a document under a key. -/
def keyExists (table keyColumn : String) (key : Value) : ClientM Bool := do
  let d ← queryHeld (lookupText table keyColumn) [key] Receiver.one
  pure !d.rows.isEmpty

/-- Inserts a record. -/
def insertRecord (table : String) (record : Document) : ClientM Tally := do
  let n ← executeHeld (insertText table record.names) (record.entries.map (·.2))
  pure { inserted := n }

/-- Updates the document under a record's key. A record of nothing but its key changes nothing. -/
def updateRecord (table keyColumn : String) (key : Value) (record : Document) : ClientM Tally := do
  let rest := record.erase keyColumn
  if rest.isEmpty then pure { updated := 1 }
  else
    let n ← executeHeld (updateText table keyColumn rest.names) (rest.entries.map (·.2) ++ [key])
    pure { updated := n }

/-- Writes one record. -/
def persistRecord (table keyColumn : String) (record : Value) : ClientM Tally := do
  match Document.ofValue? record with
  | none => throw (.internal (.notObject table record))
  | some d =>
    match recordKey? keyColumn d with
    | none => insertRecord table d
    | some key =>
      if ← keyExists table keyColumn key then updateRecord table keyColumn key d
      else insertRecord table d

/-- Writes records one after the other, up to the first that fails. -/
def persistRecords (table keyColumn : String) : List Value → Tally → ClientM Tally
  | [], tally => pure tally
  | record :: rest, tally => do
    let t ← persistRecord table keyColumn record
    persistRecords table keyColumn rest (tally.add t)

/-- Writes records with one session. -/
def persist (table : String) (records : List Value) : ClientM Tally := do
  let c ← get
  withSession (persistRecords table (c.config.keyOf table) records {})

end Client

end Schemaless
