import TopicLoad.Step.Basic

/-! A load test script: where to publish, engine options, variables, and scenarios with their flows. -/
namespace TopicLoad

def engineName : String := "gcppubsub"

structure ThinkDefaults where
  /-- The spread of a think time around its duration, in percent. -/
  jitter : Option Float := none
deriving DecidableEq, Repr

structure EngineOptions where
  dryRun : Bool := false
deriving DecidableEq, Repr

structure Script.Config where
  /-- Kept for runners that talk to a server; nothing is published to it. -/
  target : Option String := none
  project : Option String := none
  topic : Option String := none
  /-- The options of this engine. -/
  options : Option EngineOptions := none
  think : ThinkDefaults := {}
  /-- What the variables of every run are bound to at first. -/
  vars : Keyed Json := []
deriving BEq, Repr

def Script.Config.dryRun (c : Script.Config) : Bool := (c.options.map EngineOptions.dryRun).getD false

structure Scenario where
  name : Option String := none
  engine : Option String := none
  flow : Option (List Step) := none
deriving BEq, Repr

namespace Scenario

/-- An absent flow has no steps. -/
def steps (s : Scenario) : List Step := s.flow.getD []

def displayName (s : Scenario) : String := s.name.getD "unnamed"

/-- Scenarios that name no engine are meant for every engine. -/
def targetsEngine (s : Scenario) : Bool := (s.engine.map (· == engineName)).getD true

end Scenario

structure Script where
  config : Script.Config := {}
  scenarios : List Scenario := []
deriving BEq, Repr

namespace Script

def find? (s : Script) (name : String) : Option Nat :=
  s.scenarios.findIdx? fun sc => sc.name == some name

end Script
end TopicLoad
