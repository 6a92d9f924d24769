import Schemaless.SortedMap.Basic

/-!
# TOML trees

What a TOML text describes: a table of named nodes. A table remembers how it came to be, because
that decides how it may still grow. A table given by a header of its own may be entered by headers
but not by dotted keys; one that a longer header implied may still get its own header; one made by
dotted keys grows by dotted keys only. Inline tables never grow.
-/

namespace Schemaless.Toml

/-- How a table came to be. -/
inductive Origin where
  | given
  | implied
  | dotted
deriving DecidableEq

/-- A node of the tree. Of numbers that are not whole and of dates only the kind is kept. -/
inductive Node where
  | text (s : String)
  | whole (n : Int)
  | float
  | flag (b : Bool)
  | moment
  | list (items : List Node)
  | inline (entries : List (String × Node))
  | table (origin : Origin) (entries : List (String × Node))
  /-- The tables of a repeated header. -/
  | repeated (tables : List (List (String × Node)))

/-- The entries of a table. -/
abbrev Entries : Type := List (String × Node)

/-- A table with its origin. -/
structure Table where
  origin : Origin
  entries : Entries

/-- Changes the table at the end of a path, making the tables on the way that are not there. A path
enters the last table of a repeated header; a path of dotted keys enters only tables that have no
header of their own. -/
def Table.updateAt (dotted : Bool) (change : Table → Option Table) (t : Table) :
    List String → Option Table
  | [] => change t
  | key :: rest =>
    let put (node : Node) : Table := { t with entries := insertEntry key node t.entries }
    match t.entries.lookup key with
    | none =>
      (Table.updateAt dotted change ⟨if dotted then .dotted else .implied, []⟩ rest).map
        fun u => put (.table u.origin u.entries)
    | some (.table origin entries) =>
      if dotted && origin == .given then none
      else
        (Table.updateAt dotted change ⟨origin, entries⟩ rest).map
          fun u => put (.table u.origin u.entries)
    | some (.repeated tables) =>
      match tables.reverse with
      | [] => none
      | last :: earlier =>
        (Table.updateAt dotted change ⟨.given, last⟩ rest).map
          fun u => put (.repeated (u.entries :: earlier).reverse)
    | some _ => none

/-- Adds an entry under a name that has none. -/
def Table.add? (t : Table) (key : String) (node : Node) : Option Table :=
  match t.entries.lookup key with
  | some _ => none
  | none => some { t with entries := insertEntry key node t.entries }

/-- Assigns a value to a dotted key. All names but the last lead through tables made by dotted
keys. -/
def Table.assign? (t : Table) (path : List String) (node : Node) : Option Table :=
  match path.reverse with
  | [] => none
  | key :: outer =>
    t.updateAt true
      (fun u => if (u.origin == .dotted) == outer.isEmpty then none else u.add? key node)
      outer.reverse

/-- A tree under construction: what is finished, and the table that the last header opened. -/
structure Draft where
  root : Table := ⟨.given, []⟩
  current : Table := ⟨.given, []⟩
  path : List String := []
  isRepeated : Bool := false

/-- Puts the open table into the tree. -/
def Draft.close? (d : Draft) : Option Table :=
  match d.path.reverse with
  | [] => some d.current
  | key :: outer =>
    d.root.updateAt false
      (fun u =>
        if d.isRepeated then
          match u.entries.lookup key with
          | none =>
            some { u with entries := insertEntry key (.repeated [d.current.entries]) u.entries }
          | some (.repeated tables) =>
            some { u with
              entries := insertEntry key (.repeated (tables ++ [d.current.entries])) u.entries }
          | some _ => none
        else u.add? key (.table d.current.origin d.current.entries))
      outer.reverse

/-- Opens the table of a header; a table that a longer header implied goes on with its entries. -/
def openTable? (root : Table) (path : List String) : Option Draft :=
  match path.reverse with
  | [] => none
  | key :: outer =>
    let found (u : Table) : Option Node := u.entries.lookup key
    let allowed (u : Table) : Bool :=
      match found u with
      | none => true
      | some (.table .implied _) => true
      | some _ => false
    let entriesAt : Option Entries := at? root outer.reverse key
    (root.updateAt false
      (fun u => if allowed u then some { u with entries := eraseEntry key u.entries } else none)
      outer.reverse).map
      fun root => { root, current := ⟨.given, entriesAt.getD []⟩, path }
where
  /-- The entries of the table of a name at the end of a path. -/
  at? (t : Table) (path : List String) (key : String) : Option Entries :=
    match path with
    | [] =>
      match t.entries.lookup key with
      | some (.table _ entries) => some entries
      | _ => none
    | k :: rest =>
      match t.entries.lookup k with
      | some (.table origin entries) => at? ⟨origin, entries⟩ rest key
      | some (.repeated tables) =>
        match tables.reverse with
        | last :: _ => at? ⟨.given, last⟩ rest key
        | [] => none
      | _ => none

/-- Opens one more table of a repeated header. -/
def openRepeated? (root : Table) (path : List String) : Option Draft :=
  match path.reverse with
  | [] => none
  | key :: outer =>
    (root.updateAt false
      (fun u =>
        match u.entries.lookup key with
        | none => some u
        | some (.repeated _) => some u
        | some _ => none)
      outer.reverse).map
      fun root => { root, path, isRepeated := true }

end Schemaless.Toml
