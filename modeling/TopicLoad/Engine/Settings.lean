import TopicLoad.Engine.Fault
import TopicLoad.Script.Basic

/-! Where the engine publishes to, and whether it does. -/
namespace TopicLoad
namespace Engine

structure Settings where
  /-- Kept only; nothing is sent to it. -/
  target : Option String
  project : String
  topic : String
  dryRun : Bool
deriving DecidableEq, Repr

namespace Settings

def required (name : String) (value : Option String) : Except Fault String :=
  match value with
  | some v => if v = "" then .error (.missingSetting name) else .ok v
  | none => .error (.missingSetting name)

def ofConfig (c : Script.Config) : Except Fault Settings := do
  let project ← required "project" c.project
  let topic ← required "topic" c.topic
  .ok ⟨c.target, project, topic, c.dryRun⟩

theorem required_ne_empty {name : String} {value : Option String} {v : String}
    (h : required name value = .ok v) : v ≠ "" := by
  cases value with
  | none => simp [required] at h
  | some w =>
    by_cases hw : w = ""
    · simp [required, hw] at h
    · simp only [required, hw, if_false, Except.ok.injEq] at h
      exact h ▸ hw

end Settings
end Engine
end TopicLoad
