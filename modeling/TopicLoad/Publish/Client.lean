import TopicLoad.Publish.Endpoint
import TopicLoad.Publish.Reply
import TopicLoad.Publish.Request

/-! Publishing a message by one request and one reply. How requests get to the service is left open. -/
namespace TopicLoad
namespace Publish

open Engine

variable {m : Type → Type} [Monad m]

/-- Connections are never encrypted. -/
def schemeRefused : String := "error trying to connect: invalid URL, scheme is not http"

def connectFailed (reason : String) : String :=
  s!"error trying to connect: tcp connect error: {reason}"

/-- Sends a request, if its scheme is one that connections are made for. -/
def exchange (send : Request → m (Except String Reply)) (r : Request) : m (Except Failure Reply) := do
  if r.url.scheme = "http" then
    let reply ← send r
    pure (reply.mapError (.unanswered r.url))
  else pure (.error (.unanswered r.url schemeRefused))

def outcome (address : String) : Except Failure Reply → Except Engine.Fault String
  | .error f => .error (.publish s!"request to {address} failed: {f.message}")
  | .ok reply => reply.identifier.mapError .publish

def publish (send : Request → m (Except String Reply)) (note : Log.Line → m Unit)
    (token : Option String) (topic : Handle) (message : Outgoing) : m (Except Engine.Fault String) := do
  let reply ← match Request.ofMessage topic.address token message with
    | .error f => pure (.error f)
    | .ok r => exchange send r
  match outcome topic.address reply with
  | .ok id =>
    note (Log.debug s!"Pub/Sub accepted message {id}")
    pure (.ok id)
  | .error f => pure (.error f)

end Publish
end TopicLoad
