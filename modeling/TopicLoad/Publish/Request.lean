import TopicLoad.Engine.Context
import TopicLoad.Text.Base64
import TopicLoad.Url.Basic

/-! The request that publishes one message. -/
namespace TopicLoad
namespace Publish

open Engine

inductive Failure where
  | badUrl (f : Url.Fault)
  | badScheme (u : Url)
  | badToken
  /-- The request was made, but nothing came back. -/
  | unanswered (u : Url) (reason : String)
deriving DecidableEq, Repr

def Failure.message : Failure → String
  | .badUrl f => s!"builder error: {f.message}"
  | .badScheme u => s!"builder error for url ({u.text}): URL scheme is not allowed"
  | .badToken => "builder error: failed to parse header value"
  | .unanswered u reason => s!"error sending request for url ({u.text}): {reason}"

structure Request where
  url : Url
  /-- The values of the header that says who is asking. -/
  authorization : List String
  body : Json
deriving BEq, Repr

namespace Request

def contentType : String := "application/json"

def userAgent : String := "pubsub-engine/0.1.0"

def line (r : Request) : String := s!"POST {r.url.target} HTTP/1.1"

/-- Attributes are written in the order in which they come, and left out if there are none. -/
def messageJson (m : Outgoing) : Json :=
  let data := ("data", Json.str (String.ofList (Text.Base64.encode m.data)))
  match m.attributes with
  | [] => .obj [data]
  | attributes => .obj [data, ("attributes", .obj (Keyed.mapValues .str attributes))]

def bodyOf (m : Outgoing) : Json := .obj [("messages", .arr [messageJson m])]

def isHeaderValue (s : String) : Bool :=
  s.toList.all fun c => c = '\t' || (' ' ≤ c && c ≠ '\x7f')

def basic (name : String) (password : Option String) : String :=
  let pair := name ++ ":" ++ password.getD ""
  "Basic " ++ String.ofList (Text.Base64.encode pair.toUTF8.toList)

def ofMessage (address : String) (token : Option String) (m : Outgoing) : Except Failure Request := do
  let url ← (Url.ofText address).mapError .badUrl
  if url.host.isNone then throw (.badScheme url)
  if !(token.map isHeaderValue).getD true then throw .badToken
  if url.scheme ≠ "http" ∧ url.scheme ≠ "https" then throw (.badScheme url)
  let own := (url.credentials.map fun c => basic c.1 c.2).toList
  let given := (token.map ("Bearer " ++ ·)).toList
  return ⟨url, own ++ given, bodyOf m⟩

theorem url_and_body {address : String} {token : Option String} {m : Outgoing} {r : Request}
    (h : ofMessage address token m = .ok r) : Url.ofText address = .ok r.url ∧ r.body = bodyOf m := by
  simp only [ofMessage, bind, Except.bind, pure, Except.pure, throw, throwThe, MonadExceptOf.throw] at h
  cases hurl : Url.ofText address with
  | error f =>
    have hread : (Url.ofText address).mapError Failure.badUrl = .error (.badUrl f) := by
      rw [hurl]
      rfl
    rw [hread] at h
    cases h
  | ok url =>
    have hread : (Url.ofText address).mapError Failure.badUrl = .ok url := by
      rw [hurl]
      rfl
    rw [hread] at h
    simp only at h
    split at h
    · cases h
    · split at h
      · cases h
      · split at h
        · cases h
        · cases h
          exact ⟨rfl, rfl⟩

end Request
end Publish
end TopicLoad
