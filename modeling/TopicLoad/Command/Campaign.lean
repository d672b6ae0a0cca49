import TopicLoad.Command.Arguments
import TopicLoad.Command.Verdict
import TopicLoad.Engine.Run

/-! What the command does: the scenarios of a script are run one after another, each by all virtual users
at once, and the runs that failed are counted. How runs are served is up to the host. -/
namespace TopicLoad
namespace Command

open Engine

/-- What the command needs of its surroundings. -/
structure Host (m : Type → Type) where
  note : Log.Line → m Unit
  /-- A new virtual user with the given variables. -/
  context : Keyed Json → m Context
  /-- Serves runs side by side until all have ended; nothing if one broke off. -/
  join : Settings → List Run → m (Option (List Run))
  metrics : m Metrics

namespace Campaign

def selected (a : Arguments) (s : Script) : List Scenario :=
  s.scenarios.filter fun sc =>
    sc.targetsEngine && (a.scenario.map fun name => sc.name == some name).getD true

/-- A dry run is asked for by the script or by an argument. -/
def settingsFor (a : Arguments) (settings : Settings) : Settings :=
  { settings with dryRun := settings.dryRun || a.dryRun }

def announcement (settings : Settings) (a : Arguments) (name : String) (steps : Nat) : Log.Line :=
  let mode := if settings.dryRun then " [dry run]" else ""
  Log.info s!"Running scenario '{name}' ({steps} steps) with {a.users} virtual user(s){mode}"

def outcomeLine (name : String) (r : Run) : Log.Line :=
  match r.failure with
  | some f => Log.failure name f.message
  | none => Log.success s!"Scenario '{name}' completed"

variable {m : Type → Type} [Monad m] (h : Host m)

def runScenario (a : Arguments) (config : Script.Config) (settings : Settings) (sc : Scenario) :
    m (Option Nat) := do
  let tasks := Task.ofSteps config.think sc.steps
  let name := sc.displayName
  h.note (announcement settings a name tasks.length)
  let contexts ← (List.range a.users).mapM fun _ => h.context config.vars
  match ← h.join settings (contexts.map (Run.ofScenario settings name tasks)) with
  | none => pure none
  | some runs =>
    runs.forM fun r => h.note (outcomeLine name r)
    pure (some (runs.countP fun r => r.failure.isSome))

def runAll (a : Arguments) (config : Script.Config) (settings : Settings) :
    List Scenario → m (Option Nat)
  | [] => pure (some 0)
  | sc :: scs => do
    match ← runScenario h a config settings sc with
    | none => pure none
    | some n => do
      match ← runAll a config settings scs with
      | none => pure none
      | some k => pure (some (n + k))

def run (a : Arguments) (script : Script) : m Verdict := do
  match Settings.ofConfig script.config with
  | .error f => pure (.misconfigured f)
  | .ok settings =>
    let settings := settingsFor a settings
    match selected a script with
    | [] => pure (.idle a.script)
    | scs =>
      match ← runAll h a script.config settings scs with
      | none => pure .broken
      | some failed =>
        (← h.metrics).report.forM h.note
        h.note (Log.shutdown "all scenarios finished")
        pure (if failed = 0 then .success else .failures failed)

/-- Loads a script from what its file holds, or from the reason why that cannot be read, and runs it. -/
def perform (a : Arguments) (contents : Except String ByteArray) : m Verdict := do
  h.note (Log.startup s!"pubsub-engine with {a.script}")
  match Script.ofFile a.script contents with
  | .ok script => run h a script
  | .error .abandoned => pure .broken
  | .error f => pure (.unloaded a.script f)

end Campaign
end Command
end TopicLoad
