import TopicLoad.Json.Typed
import TopicLoad.Publish.Status

/-! What the service answers, and the identifier of the message in it. -/
namespace TopicLoad
namespace Publish

structure Reply where
  status : Status
  body : String
deriving DecidableEq, Repr

namespace Reply

variable {ρ : Type → Type} [Source ρ]

open Source

def identifiers : ρ (List String) :=
  record "PublishResponse" [] [ field "messageIds" (list text) fun v _ => v ]

/-- Some kinds of replies have no body whatever follows them. -/
def content (r : Reply) : String := if r.status.isBodiless then "" else r.body

def withoutMark (s : String) : String :=
  match s.toList with
  | '\ufeff' :: cs => String.ofList cs
  | _ => s

def identifier (r : Reply) : Except String String :=
  if !r.status.isSuccess then .error s!"HTTP {r.status.text}: {withoutMark r.content}"
  else match (identifiers : Json.Typed (List String)).run r.content with
    | .error f =>
      let reason := f.message r.content.toList
      .error s!"invalid publish response: error decoding response body: {reason}"
    | .ok [] => .error "publish response contained no message id"
    | .ok (id :: _) => .ok id

end Reply
end Publish
end TopicLoad
