import Schemaless.Config.Basic
import Schemaless.Value.Skipping

/-!
# Credentials

A user name and a password are kept in a JSON file: an object in which each of the two names stands
once, whatever else stands there, or a list of the two.
-/

namespace Schemaless

/-- A user name and a password. -/
structure Credential where
  username : String
  password : String
deriving DecidableEq

/-- Files by their paths: the text of a file, or why it cannot be read. -/
abbrev Files : Type := String → Except String String

/-- Files of which none is there. -/
def noFiles : Files := fun _ => .error "No such file or directory (os error 2)"

namespace Credential

/-- A field of a credential: its text, or nothing for a field of another name, which may hold
anything. -/
def field? (limit : Nat) : Text.Reader (String × Option String) := fun cs => do
  let (name, r) ← Value.fieldName? cs
  if name = "username" ∨ name = "password" then
    match Value.skipGap r with
    | '"' :: r => (Value.text? r).map fun (text, rest) => ((name, some (String.ofList text)), rest)
    | _ => none
  else (Value.skipValue? limit limit r).map fun (_, rest) => ((name, none), rest)

/-- The fields of an object that is the whole of a text. -/
def fields? (cs : List Char) : Option (List (String × Option String)) :=
  match Value.skipGap cs with
  | [] => none
  | c :: r =>
    if c ≠ Value.openBrace then none
    else
      match Value.items (field? cs.length) Value.closeBrace cs.length (Value.skipGap r) with
      | some (fields, rest) => if (Value.skipGap rest).isEmpty then some fields else none
      | none => none

/-- The text under a name that stands exactly once. -/
def single? (fields : List (String × Option String)) (name : String) : Option String :=
  match fields.filter (·.1 == name) with
  | [(_, text)] => text
  | _ => none

/-- Reads a credential. -/
def parse? (text : String) : Option Credential :=
  match fields? text.toList with
  | some fields => do return ⟨← single? fields "username", ← single? fields "password"⟩
  | none =>
    match Value.parse? text with
    | some (.arr [.str username, .str password]) => some ⟨username, password⟩
    | _ => none

end Credential

/-- The credential that a configuration names; an empty path names none. -/
def Config.credential (c : Config) (files : Files) : Except ConfigFault (Option Credential) :=
  match c.credentials.filter (· ≠ "") with
  | none => .ok none
  | some path =>
    match files path with
    | .error reason => .error (.unreadableCredentials path reason)
    | .ok text =>
      match Credential.parse? text with
      | some credential => .ok (some credential)
      | none => .error (.malformedCredentials path)

end Schemaless
