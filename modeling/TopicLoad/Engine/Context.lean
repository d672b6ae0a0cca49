import TopicLoad.Engine.Fault
import TopicLoad.Metrics.Collector
import TopicLoad.Json.Text
import TopicLoad.Text.Quoted
import TopicLoad.VirtualUser
import TopicLoad.Duration

/-! What a run carries from step to step, and what it hands to a topic. -/
namespace TopicLoad
namespace Engine

structure Destination where
  project : String
  topic : String
deriving DecidableEq, Repr

/-- How messages may be gathered before they are sent. -/
structure Batching where
  maxMessages : Nat := 1000
  maxDelay : Duration := .ofMilliseconds 3000
deriving DecidableEq, Repr

structure Handle where
  address : String
  batching : Batching
deriving DecidableEq, Repr

structure Outgoing where
  data : List UInt8
  /-- Names do not come twice; in which order they come is left open. -/
  attributes : List (String × String)
deriving DecidableEq, Repr

inductive State where
  | notStarted
  | running
  | completed
  | failed
deriving DecidableEq, Repr

def State.name : State → String
  | notStarted => "NotStarted"
  | running => "Running"
  | completed => "Completed"
  | failed => "Failed"

/-- What the variables of a run are bound to. The names ascend, so variables that are bound alike are
equal. -/
structure Vars where
  bindings : Keyed Json
  ordered : bindings.Ordered
deriving Repr

namespace Vars

def ofList (l : List (String × Json)) : Vars := ⟨Keyed.ofList l, Keyed.ordered_ofList l⟩

instance : Coe (Keyed Json) Vars := ⟨ofList⟩

instance : Coe Vars (Keyed Json) := ⟨bindings⟩

def get? (vars : Vars) (name : String) : Option Json := vars.bindings.get? name

def set (vars : Vars) (name : String) (v : Option Json) : Vars :=
  ⟨vars.bindings.set name v, Keyed.ordered_set name v vars.ordered⟩

theorem get?_set (vars : Vars) (name : String) (v : Option Json) (k : String) :
    (vars.set name v).get? k = if name = k then v else vars.get? k :=
  Keyed.get?_set vars.ordered name v k

theorem eq_of_get?_eq {vars vars' : Vars} (h : ∀ k, vars.get? k = vars'.get? k) : vars = vars' := by
  obtain ⟨m, hm⟩ := vars
  obtain ⟨n, hn⟩ := vars'
  have hmn : m = n := Keyed.eq_of_get?_eq hm hn h
  subst hmn
  rfl

@[simp] theorem set_set (vars : Vars) (name : String) (v w : Option Json) :
    (vars.set name v).set name w = vars.set name w := by
  refine eq_of_get?_eq fun k => ?_
  simp only [get?_set]
  split <;> rfl

theorem set_eq_self {vars : Vars} {name : String} {v : Option Json} (h : vars.get? name = v) :
    vars.set name v = vars := by
  refine eq_of_get?_eq fun k => ?_
  rw [get?_set]
  split
  · next hk => rw [← hk, h]
  · rfl

end Vars

/-- Nanoseconds since the clock was set going. -/
abbrev Instant := Nat

structure Context where
  user : VirtualUser
  vars : Vars
  /-- What latencies are measured from. -/
  start : Instant
  publisher : Option Handle := none
  state : State := .notStarted
deriving Repr

namespace Context

def elapsed (c : Context) (now : Instant) : Duration := ⟨now - c.start⟩

def setVar (c : Context) (name : String) (v : Option Json) : Context :=
  { c with vars := c.vars.set name v }

theorem get?_setVar (c : Context) (name : String) (v : Option Json) (k : String) :
    (c.setVar name v).vars.get? k = if name = k then v else c.vars.get? k :=
  c.vars.get?_set name v k

@[simp] theorem get?_setVar_self (c : Context) (name : String) (v : Option Json) :
    (c.setVar name v).vars.get? name = v := by simp [get?_setVar]

@[simp] theorem setVar_setVar (c : Context) (name : String) (v w : Option Json) :
    (c.setVar name v).setVar name w = c.setVar name w := by simp [setVar]

theorem setVar_eq_self {c : Context} {name : String} {v : Option Json} (h : c.vars.get? name = v) :
    c.setVar name v = c := by simp [setVar, Vars.set_eq_self h]

mutual

/-- A JSON value with the kind of every part named. -/
def describe : Json → String
  | .null => "Null"
  | .bool b => s!"Bool({b})"
  | .num n => s!"Number({String.ofList n.text})"
  | .str s => s!"String({Text.quoted s})"
  | .arr vs => "Array [" ++ ", ".intercalate (describeItems vs) ++ "]"
  | .obj [] => "Object \x7b\x7d"
  | .obj (m :: ms) => "Object \x7b" ++ ", ".intercalate (describeMembers (m :: ms)) ++ "\x7d"

def describeItems : List Json → List String
  | [] => []
  | v :: vs => describe v :: describeItems vs

def describeMembers : List (String × Json) → List String
  | [] => []
  | (name, v) :: ms => (Text.quoted name ++ ": " ++ describe v) :: describeMembers ms

end

/-- The whole context; `clock` is how its start is shown. -/
def summary (c : Context) (clock : String) : String :=
  s!"ScenarioContext \x7b vu: VirtualUserId({c.user.id.hyphenated}), vars: \x7b" ++
    ", ".intercalate (describeMembers c.vars.bindings) ++
    s!"\x7d, start_time: {clock}, publisher: {c.publisher.isSome}, state: {c.state.name} \x7d"

end Context
end Engine
end TopicLoad
