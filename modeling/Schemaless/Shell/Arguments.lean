import Schemaless.Shell.Command

/-!
# Arguments

An argument is a statement unless it starts with a dash. Options have a long name and some have a
letter; the value of an option is the next argument, or stands behind the name and an equals sign,
or behind the letter. Two dashes alone end the options.
-/

namespace Schemaless

/-- What is wrong with the arguments of a command line. -/
inductive ArgumentFault where
  | unknown (argument : String)
  | repeated (name : String)
  | noValue (name : String)
deriving DecidableEq

/-- The message of a fault. -/
def ArgumentFault.message : ArgumentFault → String
  | unknown argument => "unexpected argument '" ++ argument ++ "'"
  | repeated name => "the option '--" ++ name ++ "' stands twice"
  | noValue name => "the option '--" ++ name ++ "' needs a value"

/-- An option of the command line: its names, and the part of a command that it sets. -/
structure CommandOption where
  name : String
  letter : Option Char := none
  get : Command → Option String
  set : String → Command → Command

namespace Command

/-- The options. -/
def options : List CommandOption :=
  [{ name := "file", letter := some 'f', get := script,
     set := fun v c => { c with script := some v } },
   { name := "config", letter := some 'c', get := config,
     set := fun v c => { c with config := some v } },
   { name := "database", letter := some 'd', get := database,
     set := fun v c => { c with database := some v } },
   { name := "key-column", get := keyColumn, set := fun v c => { c with keyColumn := some v } },
   { name := "seed", get := seed, set := fun v c => { c with seed := some v } },
   { name := "params", letter := some 'p', get := params,
     set := fun v c => { c with params := some v } }]

/-- The option of an argument that starts with a dash, and the value if it is part of it. -/
def option? : List Char → Option (CommandOption × Option (List Char))
  | '-' :: '-' :: r =>
    (options.find? fun o => o.name.toList == r.takeWhile (· != '=')).map fun o =>
      (o, (r.dropWhile (· != '=')).tail?)
  | '-' :: letter :: r =>
    (options.find? (·.letter == some letter)).map fun o =>
      (o, match r with
        | [] => none
        | '=' :: r => some r
        | r => some r)
  | _ => none

/-- Sets an option that is not set yet. -/
def setOption (c : Command) (o : CommandOption) (v : String) : Except ArgumentFault Command :=
  if (o.get c).isSome then .error (.repeated o.name) else .ok (o.set v c)

/-- Whether an argument is an option: a dash with something behind it. -/
def isOption (argument : String) : Bool :=
  match argument.toList with
  | '-' :: _ :: _ => true
  | _ => false

/-- Adds arguments to a command. -/
def addArguments (c : Command) : List String → Except ArgumentFault Command
  | [] => .ok c
  | argument :: rest =>
    if argument = "--" then .ok { c with statements := c.statements ++ rest }
    else if !isOption argument then
      addArguments { c with statements := c.statements ++ [argument] } rest
    else
      match option? argument.toList with
      | none => .error (.unknown argument)
      | some (o, some v) => (c.setOption o (String.ofList v)).bind (addArguments · rest)
      | some (o, none) =>
        match rest with
        | [] => .error (.noValue o.name)
        | v :: rest =>
          if isOption v then .error (.noValue o.name)
          else (c.setOption o v).bind (addArguments · rest)

/-- The command of a list of arguments. -/
def ofArguments (arguments : List String) : Except ArgumentFault Command :=
  addArguments {} arguments

/-- The paths of the files that a command names. -/
def paths (c : Command) : List String := c.config.toList ++ c.seed.toList ++ c.script.toList

end Command

end Schemaless
