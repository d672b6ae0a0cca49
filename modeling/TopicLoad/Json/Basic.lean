import TopicLoad.Decimal.Reading
import TopicLoad.Keyed

/-! JSON values. Whole numbers of up to 64 bits are kept exactly, all other numbers are doubles, and
the members of an object that was read ascend by name. -/
namespace TopicLoad

inductive Json.Number where
  | int (n : Int)
  | float (x : Float)
deriving DecidableEq, Repr

inductive Json where
  | null
  | bool (b : Bool)
  | num (n : Json.Number)
  | str (s : String)
  | arr (items : List Json)
  | obj (members : List (String × Json))
deriving BEq, Repr

namespace Json

def Number.toFloat : Number → Float
  | .int n => Double.ofInt n
  | .float x => x

def Number.toInt64? : Number → Option Int
  | .int n => if -(Limits.bits63 : Int) ≤ n ∧ n < (Limits.bits63 : Int) then some n else none
  | .float _ => none

def ofNat (n : Nat) : Json := .num (.int n)

/-- JSON has no infinities and no NaN: `null` stands for them. -/
def ofFloat (x : Float) : Json := if x.isFinite then .num (.float x) else .null

def object (l : List (String × Json)) : Json := .obj (Keyed.ofList l)

def isNull : Json → Bool
  | .null => true
  | _ => false

def ofOption {α : Type} (f : α → Json) : Option α → Json
  | some a => f a
  | none => .null

/-- A member that is there and not `null`. -/
def present (members : Keyed Json) (name : String) : Option Json :=
  (members.get? name).filter fun v => !v.isNull

/-- `false`, zero, the empty text and `null` count as unset. -/
def isSet : Json → Bool
  | .null => false
  | .bool b => b
  | .num n => n.toFloat != 0.0
  | .str s => s ≠ ""
  | .arr _ | .obj _ => true

end Json
end TopicLoad
