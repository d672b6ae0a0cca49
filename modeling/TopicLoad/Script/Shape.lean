import TopicLoad.Script.Basic
import TopicLoad.Step.Reading

/-! The shape of a script document, the same for every format. Whatever is missing has a default. -/
namespace TopicLoad

variable {ρ : Type → Type} [Source ρ]

open Source

/-- A step; a think time that is too long for any clock ends the reading for good. -/
def Step.source : ρ Step :=
  checked (fun v =>
    match Step.ofJson v with
    | .ok s => .ok s
    | .error (.think .tooLong) => .error .abandoned
    | .error f => .error (.refused f.message)) any

def Scenario.source : ρ Scenario :=
  record "ScenarioSpec" {}
    [ field "name" (optional text) fun v s => { s with name := v },
      field "engine" (optional text) fun v s => { s with engine := v },
      field "flow" (optional (list Step.source)) fun v s => { s with flow := v } ]

namespace Script

def options : ρ EngineOptions :=
  record "EngineOptions" {} [ field "dryrun" flag fun v s => { s with dryRun := v } ]

def engines : ρ (Option EngineOptions) :=
  record "EnginesConfig" none [ field engineName (optional options) fun v _ => v ]

def think : ρ ThinkDefaults :=
  record "ThinkDefaults" {} [ field "jitter" (optional decimal) fun v s => { s with jitter := v } ]

def defaults : ρ ThinkDefaults :=
  record "DefaultsConfig" {} [ field "think" think fun v _ => v ]

def Config.source : ρ Config :=
  record "ScriptConfig" {}
    [ field "target" (optional text) fun v c => { c with target := v },
      field "project" (optional text) fun v c => { c with project := v },
      field "topic" (optional text) fun v c => { c with topic := v },
      field "engines" engines fun v c => { c with options := v },
      field "defaults" defaults fun v c => { c with think := v },
      field "variables" (table any) fun v c => { c with vars := v } ]

def source : ρ Script :=
  record "Script" {}
    [ field "config" Config.source fun v s => { s with config := v },
      field "scenarios" (list Scenario.source) fun v s => { s with scenarios := v } ]

end Script
end TopicLoad
