import TopicLoad.Script.Basic
import TopicLoad.Step.Writing

/-! Scripts as JSON values, with every field written out. -/
namespace TopicLoad
namespace Script

open Json

def EngineOptions.toJson (o : EngineOptions) : Json := .obj [("dryrun", .bool o.dryRun)]

def Config.toJson (c : Config) : Json :=
  .obj
    [ ("defaults", .obj [("think", .obj [("jitter", ofOption ofFloat c.think.jitter)])]),
      ("engines", .obj [(engineName, ofOption EngineOptions.toJson c.options)]),
      ("project", ofOption .str c.project),
      ("target", ofOption .str c.target),
      ("topic", ofOption .str c.topic),
      ("variables", .obj c.vars) ]

def scenarioJson (s : Scenario) : Json :=
  .obj
    [ ("engine", ofOption .str s.engine),
      ("flow", ofOption (fun steps => .arr (Step.toItems steps)) s.flow),
      ("name", ofOption .str s.name) ]

def toJson (s : Script) : Json :=
  .obj [("config", s.config.toJson), ("scenarios", .arr (s.scenarios.map scenarioJson))]

end Script
end TopicLoad
