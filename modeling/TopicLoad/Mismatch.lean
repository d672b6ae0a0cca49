import TopicLoad.Decimal.Notation
import TopicLoad.Text.Quoted

/-! How a well-formed document fails to have the shape asked for, and how that is worded. -/
namespace TopicLoad

inductive Found where
  | nothing
  | flag (b : Bool)
  | whole (n : Int)
  | decimal (x : Float)
  | text (s : String)
  | sequence
  | map
  | choice
deriving DecidableEq, Repr

inductive Mismatch where
  | invalidType (found : Found) (expected : String)
  | invalidValue (found : Found) (expected : String)
  | invalidLength (n : Nat) (expected : String)
  | duplicateField (name : String)
  | refused (reason : String)
  /-- Reading breaks off for good. -/
  | abandoned
deriving DecidableEq, Repr

/-- The words in which document formats differ. -/
structure Wording where
  nothing : String
  decimal : Float → String

def Found.describe (w : Wording) : Found → String
  | .nothing => w.nothing
  | .flag b => s!"boolean `{b}`"
  | .whole n => s!"integer `{n}`"
  | .decimal x => s!"floating point `{w.decimal x}`"
  | .text s => s!"string {Text.quoted s}"
  | .sequence => "sequence"
  | .map => "map"
  | .choice => "enum"

def Mismatch.message (w : Wording) : Mismatch → String
  | .invalidType found expected => s!"invalid type: {found.describe w}, expected {expected}"
  | .invalidValue found expected => s!"invalid value: {found.describe w}, expected {expected}"
  | .invalidLength n expected => s!"invalid length {n}, expected {expected}"
  | .duplicateField name => s!"duplicate field `{name}`"
  | .refused reason => reason
  | .abandoned => "reading abandoned"

end TopicLoad
