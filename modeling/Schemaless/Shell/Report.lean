import Schemaless.Shell.Command

/-!
# Reports

The report of a fault is its message and, under it, the causes behind it. A cause that stands alone
is indented; several are numbered.
-/

namespace Schemaless

/-- Indents the lines after the first. -/
def indentLines (indent text : String) : String :=
  String.ofList (text.toList.flatMap fun c => if c = '\n' then '\n' :: indent.toList else [c])

/-- The text of numbered causes. -/
def numbered (number : Nat) : List String → String
  | [] => ""
  | cause :: rest =>
    "\n    " ++ toString number ++ ": " ++ indentLines "       " cause ++ numbered (number + 1) rest

/-- The causes under a message. -/
def causesText : List String → String
  | [] => ""
  | [single] => "\n\nCaused by:\n    " ++ indentLines "    " single
  | several => "\n\nCaused by:" ++ numbered 0 several

/-- The messages behind a failure, the innermost last. -/
def Failure.innerMessages (f : Failure) : List String :=
  match f.cause? with
  | some inner => [inner.message]
  | none => []

namespace CommandFault

/-- The message of a fault. -/
def message : CommandFault → String
  | failure cause => cause.message
  | unreadable path _ => "Failed to read " ++ path
  | malformedSeed => "the seed must be an object of tables"
  | badSeed table => "Seed for " ++ table ++ " must be an array of objects"
  | badParams => "--params must be a JSON array"
  | statement sql _ => "Statement failed: " ++ sql

/-- The messages of the causes behind a fault. -/
def causes : CommandFault → List String
  | failure cause => cause.innerMessages
  | unreadable _ reason => [reason]
  | statement _ cause => cause.message :: cause.innerMessages
  | _ => []

/-- The report of a fault. -/
def report (f : CommandFault) : String := f.message ++ causesText f.causes

end CommandFault

end Schemaless
