import TopicLoad.Script.Basic
import TopicLoad.Seed

/-! Steps made ready to run. Loops and pauses are put together by builders that the host of the engine
supplies; the other tasks need none. -/
namespace TopicLoad
namespace Engine

/-- A think time that is spread around its duration by up to `jitter` percent. -/
structure Pause where
  duration : Duration
  jitter : Option Float
deriving DecidableEq, Repr

namespace Pause

/-- The factors among which one is drawn; none if the duration is kept. -/
def range? (p : Pause) : Option (Float × Float) :=
  match p.jitter with
  | some j =>
    if 0.0 < j ∧ p.duration ≠ .zero then
      let spread := (if j < 100.0 then j else 100.0) / 100.0
      some (1.0 - spread, 1.0 + spread)
    else none
  | none => none

/-- The duration that is kept, for random bits; nothing if it gets too long. -/
def effective? (p : Pause) (seed : Seed) : Option Duration :=
  match p.range? with
  | some (low, high) => p.duration.scaled? (seed.between low high)
  | none => some p.duration

end Pause

inductive Task where
  | loop (count : LoopCount) (body : List Task)
  | pause (p : Pause)
  | call (name : String)
  | mark (text : String)
  | publish (spec : MessageSpec)
  | skip
deriving Repr

structure Builders (m : Type → Type) where
  loop : LoopCount → List Task → m Task
  think : Duration → ThinkDefaults → m Task

namespace Builders

def standard : Builders Id where
  loop := Task.loop
  think d defaults := .pause ⟨d, defaults.jitter⟩

end Builders

namespace Task

variable {m : Type → Type} [Monad m]

mutual

def compile (b : Builders m) (defaults : ThinkDefaults) : Step → m Task
  | .loop steps count => do
    let body ← compileAll b defaults steps
    b.loop count body
  | .think d => b.think d defaults
  | .function name => pure (.call name)
  | .log text => pure (.mark text)
  | .message spec => pure (.publish spec)
  | .unrecognized _ => pure .skip

/-- Compiles steps in order, the body of a loop before the loop. -/
def compileAll (b : Builders m) (defaults : ThinkDefaults) : List Step → m (List Task)
  | [] => pure []
  | s :: ss => do
    let t ← compile b defaults s
    let ts ← compileAll b defaults ss
    pure (t :: ts)

end

def ofStep (defaults : ThinkDefaults) (s : Step) : Task := Id.run (compile .standard defaults s)

def ofSteps (defaults : ThinkDefaults) (ss : List Step) : List Task :=
  Id.run (compileAll .standard defaults ss)

section

variable (defaults : ThinkDefaults)

@[simp] theorem ofSteps_nil : ofSteps defaults [] = [] := rfl

@[simp] theorem ofSteps_cons (s : Step) (ss : List Step) :
    ofSteps defaults (s :: ss) = ofStep defaults s :: ofSteps defaults ss := rfl

theorem ofSteps_eq_map (ss : List Step) : ofSteps defaults ss = ss.map (ofStep defaults) := by
  induction ss with
  | nil => rfl
  | cons s ss ih => simp [ih]

@[simp] theorem ofStep_loop (ss : List Step) (count : LoopCount) :
    ofStep defaults (.loop ss count) = .loop count (ofSteps defaults ss) := rfl

@[simp] theorem ofStep_think (d : Duration) :
    ofStep defaults (.think d) = .pause ⟨d, defaults.jitter⟩ := rfl

@[simp] theorem ofStep_function (name : String) :
    ofStep defaults (.function name) = .call name := rfl

@[simp] theorem ofStep_log (text : String) : ofStep defaults (.log text) = .mark text := rfl

@[simp] theorem ofStep_message (spec : MessageSpec) :
    ofStep defaults (.message spec) = .publish spec := rfl

@[simp] theorem ofStep_unrecognized (v : Json) : ofStep defaults (.unrecognized v) = .skip := rfl

end

end Task
end Engine
end TopicLoad
