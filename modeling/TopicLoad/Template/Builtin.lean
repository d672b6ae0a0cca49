import TopicLoad.Json.Basic
import TopicLoad.Seed
import TopicLoad.Template.Fault
import TopicLoad.Text.Blank
import TopicLoad.Text.Uuid
import TopicLoad.Text.Word

/-! The functions that an expression can call: random numbers, random texts, identifiers and the time
of day. -/
namespace TopicLoad
namespace Template

/-- What a rendering may use besides variables: random bits, and milliseconds since 1970. -/
structure Ambient where
  seed : Seed
  now : Nat
deriving DecidableEq, Repr

namespace Ambient

def child (a : Ambient) (n : Nat) : Ambient := { a with seed := a.seed.child n }

end Ambient

def splitAt (separator : Char) : List Char → List (List Char)
  | [] => [[]]
  | c :: cs =>
    if c = separator then [] :: splitAt separator cs
    else match splitAt separator cs with
      | [] => [[c]]
      | part :: parts => (c :: part) :: parts

/-- A call `$name(arguments)` that spans the whole expression; the arguments are on one line. -/
def call? : List Char → Option (List Char × List Char)
  | '$' :: cs =>
    let name := cs.takeWhile Text.isWord
    match cs.dropWhile Text.isWord with
    | '(' :: rest =>
      if name ≠ [] ∧ rest.getLast? = some ')' ∧ '\n' ∉ rest then some (name, rest.dropLast) else none
    | _ => none
  | _ => none

/-- Arguments are separated by commas; blanks around them and empty ones do not count. -/
def arguments (cs : List Char) : List (List Char) :=
  ((splitAt ',' cs).map Text.trim).filter fun a => !a.isEmpty

def alphanumerics : List Char :=
  "ABCDEFGHIJKLMNOPQRSTUVWXYZabcdefghijklmnopqrstuvwxyz0123456789".toList

def defaultLength : Nat := 10

def randomText (seed : Seed) (length : Nat) : String :=
  String.ofList <| (List.range length).map fun i =>
    alphanumerics.getD ((seed.child i).below alphanumerics.length) 'A'

def argument {α : Type} (function : String) (read : List Char → Option α) (cs : List Char) :
    Except Fault α :=
  match read cs with
  | some a => .ok a
  | none => .error (.badArgument function (String.ofList cs))

def randomNumber (a : Ambient) : List (List Char) → Except Fault Json
  | [low, high] => do
    let low ← argument "randomNumber" Decimal.readInt64 low
    let high ← argument "randomNumber" Decimal.readInt64 high
    if high < low then .error (.emptyRange low high)
    else .ok (.num (.int (low + a.seed.below (high - low + 1).toNat)))
  | _ => .error .numberArguments

def randomString (a : Ambient) : List (List Char) → Except Fault Json
  | [] => .ok (.str (randomText a.seed defaultLength))
  | [length] => do
    let n ← argument "randomString" (Decimal.readNat Limits.bits64) length
    .ok (.str (randomText a.seed n))
  | _ => .error .textArguments

def callBuiltin (a : Ambient) (name rawArguments : List Char) : Except Fault Json :=
  let args := arguments rawArguments
  match String.ofList name with
  | "randomNumber" => randomNumber a args
  | "randomString" => randomString a args
  | "uuid" => .ok (.str (Uuid.ofRandom a.seed.wide).hyphenated)
  | "timestamp" => .ok (.ofNat a.now)
  | other => .error (.unknownFunction other)

end Template
end TopicLoad
