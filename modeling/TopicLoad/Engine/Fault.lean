/-! What can go wrong in the engine. -/
namespace TopicLoad
namespace Engine

inductive Fault where
  | missingSetting (name : String)
  | missingTemplate
  | template (reason : String)
  | publish (reason : String)
  | noPublisher
  | client (reason : String)
deriving DecidableEq, Repr

def Fault.message : Fault → String
  | .missingSetting name => s!"'[{name}]' missing from environment config"
  | .missingTemplate => "json must be set"
  | .template reason => s!"Template error: {reason}"
  | .publish reason => s!"Publish failed: {reason}"
  | .noPublisher => "Topic publisher has not been initialized for this scenario"
  | .client reason => s!"HTTP client error: {reason}"

end Engine
end TopicLoad
