import TopicLoad.Decimal.Reading

/-! The arguments of the command line. Options may stand before and after the script, with their values
behind `=` or as the next argument; each may be given once, and `--` ends them. -/
namespace TopicLoad
namespace Command

structure Arguments where
  script : String
  dryRun : Bool := false
  /-- How many virtual users run each scenario. -/
  users : Nat := 1
  /-- Only scenarios of this name are run. -/
  scenario : Option String := none
  logLevel : String := "info"
deriving DecidableEq, Repr

namespace Arguments

inductive Fault where
  | unexpected (argument : String)
  | needlessValue (option : String)
  | missingValue (option : String)
  | badValue (option value : String)
  | repeated (option : String)
  | missingScript
deriving DecidableEq, Repr

def Fault.message : Fault → String
  | .unexpected argument => s!"unexpected argument '{argument}' found"
  | .needlessValue option => s!"'{option}' takes no value"
  | .missingValue option => s!"a value is required for '{option}' but none was supplied"
  | .badValue option value => s!"invalid value '{value}' for '{option}'"
  | .repeated option => s!"'{option}' cannot be used multiple times"
  | .missingScript => "the script is missing"

inductive Wish where
  | run (a : Arguments)
  | help
deriving DecidableEq, Repr

structure Given where
  script : Option String := none
  dryRun : Bool := false
  users : Option Nat := none
  scenario : Option String := none
  logLevel : Option String := none
deriving DecidableEq, Repr

def Given.complete (g : Given) : Except Fault Arguments :=
  match g.script with
  | none => .error .missingScript
  | some script =>
    .ok
      { script := script, dryRun := g.dryRun, users := g.users.getD 1, scenario := g.scenario
        logLevel := g.logLevel.getD "info" }

inductive Setting where
  | users
  | scenario
  | logLevel
deriving DecidableEq, Repr

def Setting.option : Setting → String
  | users => "--virtual-users"
  | scenario => "--scenario"
  | logLevel => "--log-level"

def Setting.ofOption? (option : String) : Option Setting :=
  [users, scenario, logLevel].find? fun s => s.option == option

def usersLimit : Int := Limits.bits32

def Given.store (g : Given) (s : Setting) (value : String) : Except Fault Given :=
  match s with
  | .users =>
    if g.users.isSome then .error (.repeated s.option)
    else match Decimal.readInt64 value.toList with
      | some n =>
        if 0 ≤ n ∧ n < usersLimit then .ok { g with users := some n.toNat }
        else .error (.badValue s.option value)
      | none => .error (.badValue s.option value)
  | .scenario =>
    if g.scenario.isSome then .error (.repeated s.option) else .ok { g with scenario := some value }
  | .logLevel =>
    if g.logLevel.isSome then .error (.repeated s.option) else .ok { g with logLevel := some value }

def Given.place (g : Given) (script : String) : Except Fault Given :=
  if g.script.isSome then .error (.unexpected script)
  else if script = "" then .error (.badValue "<SCRIPT>" script)
  else .ok { g with script := some script }

/-- Whether an argument is no value: it begins with a hyphen and goes on. -/
def isOption (argument : String) : Bool :=
  match argument.toList with
  | '-' :: _ :: _ => true
  | _ => false

/-- The option and the value behind its first `=`. -/
def splitValue (argument : String) : String × Option String :=
  let cs := argument.toList
  match cs.dropWhile (· ≠ '=') with
  | [] => (argument, none)
  | _ :: value => (String.ofList (cs.takeWhile (· ≠ '=')), some (String.ofList value))

def readPlain : Given → List String → Except Fault Wish
  | g, [] => g.complete.map .run
  | g, a :: as => do
    let g ← g.place a
    readPlain g as

def readFrom : Given → List String → Except Fault Wish
  | g, [] => g.complete.map .run
  | g, a :: as =>
    if a = "--" then readPlain g as
    else if !isOption a then do
      let g ← g.place a
      readFrom g as
    else if "-h".isPrefixOf a then .ok .help
    else
      let (option, value) := splitValue a
      match Setting.ofOption? option, value with
      | some s, some v => do
        let g ← g.store s v
        readFrom g as
      | some s, none =>
        match as with
        | [] => .error (.missingValue s.option)
        | v :: rest =>
          if isOption v then .error (.missingValue s.option)
          else do
            let g ← g.store s v
            readFrom g rest
      | none, _ =>
        if option = "--help" then if value.isSome then .error (.needlessValue option) else .ok .help
        else if option = "--dry-run" then
          if value.isSome then .error (.needlessValue option)
          else if g.dryRun then .error (.repeated option)
          else readFrom { g with dryRun := true } as
        else .error (.unexpected a)

def read (arguments : List String) : Except Fault Wish := readFrom {} arguments

def usage : String :=
  "Run declarative load-test scenarios against a Pub/Sub topic\n\n" ++
  "Usage: pubsub-engine [OPTIONS] <SCRIPT>\n\n" ++
  "Arguments:\n" ++
  "  <SCRIPT>  Script file (.yaml, .yml or .json)\n\n" ++
  "Options:\n" ++
  "      --dry-run                        Render messages without publishing them\n" ++
  "      --virtual-users <VIRTUAL_USERS>  Number of virtual users running each scenario " ++
  "[default: 1]\n" ++
  "      --scenario <SCENARIO>            Only run the scenario with this name\n" ++
  "      --log-level <LOG_LEVEL>          Log level (trace, debug, info, warn, error) " ++
  "[default: info]\n" ++
  "  -h, --help                           Print help\n"

end Arguments
end Command
end TopicLoad
