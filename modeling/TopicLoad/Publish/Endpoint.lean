import TopicLoad.Engine.Context

/-! Where messages are published: the address of the service, and the address of a topic there. -/
namespace TopicLoad
namespace Publish

open Engine

def publicBase : String := "https://pubsub.googleapis.com"

def emulatorVariable : String := "PUBSUB_EMULATOR_HOST"

def tokenVariable : String := "GOOGLE_OAUTH_ACCESS_TOKEN"

structure Endpoint where
  base : String
  token : Option String
deriving DecidableEq, Repr

namespace Endpoint

def ofText (base : String) (token : Option String) : Endpoint :=
  ⟨String.ofList (base.toList.reverse.dropWhile (· == '/')).reverse, token⟩

/-- An emulator is spoken to without encryption, unless its host is given with a scheme. -/
def emulatorBase (host : String) : String :=
  if "http://".isPrefixOf host || "https://".isPrefixOf host then host else "http://" ++ host

/-- The emulator if one is named, which needs no token, and the public service otherwise. -/
def ofEnvironment (emulator token : Option String) : Endpoint :=
  match emulator.filter (· ≠ "") with
  | some host => ofText (emulatorBase host) none
  | none => ofText publicBase token

/-- Where messages for a topic are sent; the names are taken as they are. -/
def address (e : Endpoint) (place : Destination) : String :=
  s!"{e.base}/v1/projects/{place.project}/topics/{place.topic}:publish"

def handle (e : Endpoint) (place : Destination) (batching : Batching) : Handle :=
  ⟨e.address place, batching⟩

end Endpoint
end Publish
end TopicLoad
