import TopicLoad.Duration
import TopicLoad.Json.Text
import TopicLoad.Text.Blank

/-! Think times: how long a virtual user pauses, written as seconds or as text with a unit. -/
namespace TopicLoad
namespace Think

inductive Fault where
  | invalid (shown : String)
  /-- The seconds do not fit 64 bits. -/
  | tooLong
deriving DecidableEq, Repr

def ofSeconds (x : Float) : Except Fault Duration :=
  if ¬ x.isFinite ∨ x < 0.0 then .error (.invalid (Double.plainText x))
  else match Duration.ofSeconds? x with
    | some d => .ok d
    | none => .error .tooLong

def beforeUnit? (unit cs : List Char) : Option (List Char) :=
  if unit.isSuffixOf cs then some (cs.take (cs.length - unit.length)) else none

/-- The seconds that a text without blanks at its ends denotes. -/
def seconds? (cs : List Char) : Option Float :=
  match beforeUnit? ['m', 's'] cs with
  | some number => (Double.ofText? (Text.trim number)).map (· / 1000.0)
  | none => Double.ofText? (Text.trim ((beforeUnit? ['s'] cs).getD cs))

/-- A fault on the way is told with the text as it was given. -/
def ofText (raw : String) : Except Fault Duration :=
  match seconds? (Text.trim raw.toList) with
  | none => .error (.invalid raw)
  | some x =>
    match ofSeconds x with
    | .error (.invalid _) => .error (.invalid raw)
    | r => r

def ofJson : Json → Except Fault Duration
  | .num n => ofSeconds n.toFloat
  | .str s => ofText s
  | v => .error (.invalid v.text)

end Think
end TopicLoad
