import TopicLoad.Step.Basic

/-! Steps as JSON values. -/
namespace TopicLoad

def MessageSpec.toJson (m : MessageSpec) : Json :=
  .obj
    [ ("attributes", Json.ofOption (fun a => .obj (Keyed.mapValues .str a)) m.attributes),
      ("json", Json.ofOption id m.json),
      ("multiplier", Json.ofOption (fun n => .num (.int n)) m.multiplier) ]

namespace Step

mutual

def toJson : Step → Json
  | .loop steps .infinite => .obj [("loop", .arr (toItems steps))]
  | .loop steps (.times n) => .obj [("count", .ofNat n), ("loop", .arr (toItems steps))]
  | .think d => .obj [("think", .ofFloat d.toSeconds)]
  | .function name => .obj [("function", .str name)]
  | .log text => .obj [("log", .str text)]
  | .message spec => .obj [("message", spec.toJson)]
  | .unrecognized v => v

def toItems : List Step → List Json
  | [] => []
  | s :: ss => toJson s :: toItems ss

end

end Step
end TopicLoad
