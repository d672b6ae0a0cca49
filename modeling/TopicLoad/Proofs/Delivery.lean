import Mathlib.Control.Monad.Basic
import TopicLoad.Proofs.JsonText
import TopicLoad.Publish.Client
import TopicLoad.Publish.Wire

/-! What a request says of the message that it publishes. The body is read back as one message, and that
is the one that was handed over; so different messages have different bodies. -/
namespace TopicLoad
namespace Publish

open Engine

/-! ## What a body holds -/

def attribute? : String × Json → Option (String × String)
  | (name, .str value) => some (name, value)
  | _ => none

/-- The attributes among the fields of a message; there are none if they are left out. -/
def attributes? (fields : Keyed Json) : Option (Keyed String) :=
  match fields.get? "attributes" with
  | none => some []
  | some (.obj ms) => ms.mapM attribute?
  | some _ => none

def data? (fields : Keyed Json) : Option (List UInt8) :=
  match fields.get? "data" with
  | some (.str data) => Text.Base64.decode? data.toList
  | _ => none

/-- The fields of the only message of a body. -/
def fields? : Json → Option (Keyed Json)
  | .obj [("messages", .arr [.obj fields])] => some fields
  | _ => none

def message? (body : Json) : Option Outgoing := do
  let fields ← fields? body
  let data ← data? fields
  let attributes ← attributes? fields
  some ⟨data, attributes⟩

variable {m : Outgoing}

section

variable {μ : Type → Type} [Monad μ] {note : Log.Line → μ Unit} {token : Option String} {topic : Handle}

def conclude (note : Log.Line → μ Unit) (address : String) (reply : Except Failure Reply) :
    μ (Except Engine.Fault String) :=
  match outcome address reply with
  | .ok id => do
    note (Log.debug s!"Pub/Sub accepted message {id}")
    pure (.ok id)
  | .error f => pure (.error f)

end

end Publish
end TopicLoad
