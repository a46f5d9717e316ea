import FungibleLedger.Text.Quoted

/-!
# Arguments of a command line

A command takes options with a value, switches without one, and further arguments. An option's
value is written behind an equals sign or as the next argument, whatever that looks like, and the
last value counts. Arguments are taken to be texts; a system that hands over bytes which are no
UTF-8, in the guise of halves of surrogate pairs, is outside of this.

* `Grammar` : the options and switches that a command knows.
* `Grammar.parse` : what the arguments of a command say.
* `Misuse` : why they say nothing.
-/

namespace FungibleLedger.CommandLine

/-- The options and switches that a command knows. -/
structure Grammar where
  /-- The long names of options with a value. -/
  options : List String
  /-- The long names of switches, each with its letter if it has one. -/
  switches : List (String × Option Char)
  /-- Whether options may stand behind other arguments. -/
  mixed : Bool

/-- Why arguments cannot be understood. -/
inductive Misuse
  | unknownOption (name : String)
  | noValue (name : String)
  | needlessValue (name : String)
  | missingOption (name : String)
  | extraArgument (argument : String)
  | noPath (name : String)
  | noCommand
  | unknownCommand (name : String)
deriving DecidableEq

/-- The wording of a misuse. -/
def Misuse.message : Misuse → String
  | .unknownOption name => s!"No such option: {name}"
  | .noValue name => s!"Option {Text.quoted name} requires an argument."
  | .needlessValue name => s!"Option {Text.quoted name} does not take a value."
  | .missingOption name => s!"Missing option {Text.quoted name}."
  | .extraArgument argument => s!"Got unexpected extra argument ({argument})"
  | .noPath name => s!"Invalid value for {Text.quoted name}: no file can have this path."
  | .noCommand => "Missing command."
  | .unknownCommand name => s!"No such command {Text.quoted name}."

/-- What arguments say: the values of options, last first, the switches and the other arguments. -/
structure Parsed where
  values : List (String × String)
  switches : List String
  rest : List String
deriving DecidableEq

namespace Parsed

/-- Nothing said. -/
def empty : Parsed := ⟨[], [], []⟩

/-- The last value of an option. -/
def value? (p : Parsed) (name : String) : Option String :=
  p.values.lookup name

/-- Whether a switch is set. -/
def has (p : Parsed) (name : String) : Bool :=
  p.switches.contains name

/-- With an option's value. -/
def withValue (p : Parsed) (name value : String) : Parsed :=
  { p with values := (name, value) :: p.values }

/-- With a switch set. -/
def withSwitch (p : Parsed) (name : String) : Parsed :=
  { p with switches := name :: p.switches }

end Parsed

namespace Grammar

/-- The long name of the switch that a letter stands for. -/
def switchOf? (g : Grammar) (letter : Char) : Option String :=
  (g.switches.find? fun (_, l) => l = some letter).map (·.1)

/-- What is said after the letters of an argument with a single dash, each of them a switch. -/
def letters (g : Grammar) (said : Parsed) : List Char → Except Misuse Parsed
  | [] => .ok said
  | c :: rest =>
    match g.switchOf? c with
    | none => .error (.unknownOption (String.ofList ['-', c]))
    | some name => g.letters (said.withSwitch name) rest

/-- The parts of an argument before and behind its first equals sign. -/
def splitValue (argument : String) : String × Option String :=
  let name := argument.toList.takeWhile (· ≠ '=')
  match argument.toList.dropWhile (· ≠ '=') with
  | [] => (argument, none)
  | _ :: value => (String.ofList name, some (String.ofList value))

/-- Whether an argument is an option by its look: a dash and more. -/
def isOption (argument : String) : Bool :=
  match argument.toList with
  | '-' :: _ :: _ => true
  | _ => false

/-- Whether an argument begins with two dashes. -/
def isLong (argument : String) : Bool :=
  match argument.toList with
  | '-' :: '-' :: _ => true
  | _ => false

/-- What arguments say beyond what was said. Two dashes alone end the options. -/
def parseFrom (g : Grammar) (said : Parsed) : List String → Except Misuse Parsed
  | [] => .ok said
  | argument :: rest =>
    if argument = "--" then .ok { said with rest := said.rest ++ rest }
    else if isOption argument then
      match splitValue argument with
      | (name, value?) =>
        if g.options.contains name then
          match value? with
          | some value => g.parseFrom (said.withValue name value) rest
          | none =>
            match rest with
            | [] => .error (.noValue name)
            | value :: rest => g.parseFrom (said.withValue name value) rest
        else if g.switches.any (·.1 = name) then
          match value? with
          | some _ => .error (.needlessValue name)
          | none => g.parseFrom (said.withSwitch name) rest
        else if isLong argument then .error (.unknownOption name)
        else
          match g.letters said argument.toList.tail with
          | .error misuse => .error misuse
          | .ok said => g.parseFrom said rest
    else if g.mixed then g.parseFrom { said with rest := said.rest ++ [argument] } rest
    else .ok { said with rest := said.rest ++ argument :: rest }

/-- What arguments say. -/
def parse (g : Grammar) (arguments : List String) : Except Misuse Parsed :=
  g.parseFrom .empty arguments

end Grammar

end FungibleLedger.CommandLine
