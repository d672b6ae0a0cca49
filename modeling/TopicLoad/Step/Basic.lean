import TopicLoad.Duration
import TopicLoad.Json.Basic

/-! The steps of a scenario. -/
namespace TopicLoad

inductive LoopCount where
  | infinite
  | times (n : Nat)
deriving DecidableEq, Repr

namespace LoopCount

/-- A count that is absent or not positive means for ever. -/
def ofCount : Option Int → LoopCount
  | some n => if 0 < n then .times n.toNat else .infinite
  | none => .infinite

def isInfinite : LoopCount → Bool
  | infinite => true
  | times _ => false

def text : LoopCount → String
  | infinite => "infinite"
  | times n => toString n

end LoopCount

structure MessageSpec where
  json : Option Json := none
  multiplier : Option Int := none
  attributes : Option (Keyed String) := none
deriving BEq, Repr

/-- How many messages are sent; one if nothing is said. -/
def MessageSpec.copies (m : MessageSpec) : Int := m.multiplier.getD 1

inductive Step where
  | loop (steps : List Step) (count : LoopCount)
  | think (pause : Duration)
  | function (name : String)
  | log (message : String)
  | message (spec : MessageSpec)
  /-- Any other shape; it does nothing when run. -/
  | unrecognized (value : Json)
deriving BEq, Repr

end TopicLoad
