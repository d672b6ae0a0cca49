import TopicLoad.Engine.Fault
import TopicLoad.Script.Loading

/-! How the command ends, and what it says about that. -/
namespace TopicLoad
namespace Command

inductive Verdict where
  | success
  | unloaded (script : String) (f : Script.Fault)
  | misconfigured (f : Engine.Fault)
  | idle (script : String)
  /-- Some runs failed. -/
  | failures (n : Nat)
  /-- A think time could not be measured. -/
  | broken
deriving DecidableEq, Repr

namespace Verdict

/-- A text whose lines after the first are indented like it. -/
def indented (first further text : String) : String :=
  first ++ ("\n" ++ further).intercalate (text.splitOn "\n")

def causes : List String → List String
  | [reason] => [indented "    " "    " reason]
  | reasons => reasons.mapIdx fun i reason => indented s!"    {i}: " "       " reason

/-- A script that cannot be read has a reason of its own. -/
def loadCauses (f : Script.Fault) : List String :=
  match f with
  | .unreadable _ reason => [f.message, reason]
  | _ => [f.message]

def message? : Verdict → Option String
  | success | broken => none
  | unloaded script f =>
    some ("\n".intercalate (s!"loading {script}\n" :: "Caused by:" :: causes (loadCauses f)))
  | misconfigured f => some f.message
  | idle script => some s!"no scenarios to run in {script}"
  | failures n => some s!"{n} scenario run(s) failed"

def exitCode : Verdict → Nat
  | success => 0
  | broken => 101
  | _ => 1

def usageCode : Nat := 2

@[simp] theorem exitCode_success : success.exitCode = 0 := rfl

@[simp] theorem exitCode_failures (n : Nat) : (failures n).exitCode = 1 := rfl

end Verdict
end Command
end TopicLoad
