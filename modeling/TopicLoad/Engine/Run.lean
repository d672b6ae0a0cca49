import TopicLoad.Engine.Context
import TopicLoad.Engine.Settings
import TopicLoad.Engine.Task

/-! One run of a scenario. A run is a list of frames that are still to be worked off and the context
they work on; `act` says what it asks of the world next and how it goes on with the answer. Who answers,
and in which order several runs are served, is left open. -/
namespace TopicLoad
namespace Engine

/-- The variable that holds the number of the turn of the innermost loop. -/
def loopVar : String := "$loopCount"

def messagesPublished : String := "gcppubsub.messages_published"

def publishErrors : String := "gcppubsub.publish_errors"

/-- Milliseconds from the start of a run to the end of a publish call. -/
def publishLatency : String := "gcppubsub.publish_latency"

/-- One thing that a user-supplied function does. There is none for a message that a function publishes
itself, by the handle of its context. -/
inductive Deed where
  | become (c : Context)
  | emit (e : Event)
  | pause (d : Duration)
  /-- Lets the world look at the context. -/
  | inspect
deriving Repr

/-- How and when a publish call ended; the answer is the identifier of the message. -/
structure Settlement where
  reply : Except Fault String
  time : Instant

/-- A part of the work that a run still has to do. -/
inductive Frame where
  | emit (e : Event)
  | note (line : Log.Line)
  | enter
  | acquire (place : Destination)
  | task (t : Task)
  /-- The head of a loop after a number of turns. -/
  | turn (count : LoopCount) (turns : Nat) (body : List Task)
  /-- Others may go on first. -/
  | surrender
  /-- Gives the loop variable back to the loop around. -/
  | rebind (outer : Option Json)
  /-- Renders a template some more times, then sends all payloads. -/
  | render (template : Json) (attributes : Keyed String) (left : Nat) (ready : List (List UInt8))
  /-- Sends payloads, the next call having a given number, and waits for the calls in flight. -/
  | send (topic : Handle) (queue : List Outgoing) (number : Nat) (inFlight : List Nat)
      (failure : Option Fault)
  | deeds (ds : List Deed)
  | fail (f : Fault)
  | conclude (name : String)

def Frame.survives : Frame → Bool
  | rebind _ | conclude _ => true
  | _ => false

structure Run where
  control : List Frame
  context : Context
  failure : Option Fault := none

/-- What a run asks of the world, and how it goes on when it is answered. -/
inductive Act (ρ : Type) where
  | finish
  | silent (next : ρ)
  | emit (e : Event) (next : ρ)
  | note (line : Log.Line) (next : ρ)
  | inspect (c : Context) (next : ρ)
  | surrender (next : ρ)
  | pause (p : Pause) (next : ρ)
  | acquire (place : Destination) (batching : Batching) (next : Except Fault Handle → ρ)
  | render (template : Json) (vars : Keyed Json) (next : Except Fault Json → ρ)
  /-- A call may settle at once; otherwise it is in flight. -/
  | publish (topic : Handle) (number : Nat) (message : Outgoing) (next : Option Settlement → ρ)
  /-- One of the calls in flight is to settle. -/
  | await (inFlight : List Nat) (next : Nat → Settlement → ρ)
  /-- No answer means that there is no function of the name. -/
  | call (name : String) (c : Context) (next : Option (List Deed) → ρ)

namespace Run

variable (r : Run)

def goOn (frames : List Frame) : Run := { r with control := frames }

def goWith (c : Context) (frames : List Frame) : Run := { r with control := frames, context := c }

/-- Drops the work that a failure makes void. -/
def failWith (f : Fault) (frames : List Frame) : Run :=
  { r with control := frames.filter Frame.survives, failure := some f }

/-- What is left to do when a publish call has settled. -/
def settledFrames (c : Context) (s : Settlement) : List Frame :=
  match s.reply with
  | .ok id =>
    [ .note (Log.debug s!"Message published with ID: {id}"),
      .emit (.counter messagesPublished 1),
      .emit (.histogram publishLatency (.ofFloat (c.elapsed s.time).toMilliseconds)) ]
  | .error f =>
    [.note (Log.debug s!"Error publishing message: {f.message}"), .emit (.counter publishErrors 1)]

def firstFailure (failure : Option Fault) (s : Settlement) : Option Fault :=
  match failure, s.reply with
  | none, .error f => some f
  | _, _ => failure

def payload (v : Json) : List UInt8 := v.text.toUTF8.toList

def goesOn (count : LoopCount) (turns : Nat) : Bool :=
  match count with
  | .infinite => true
  | .times n => turns < n

/-- How a task is begun, in front of the work that comes after it. -/
def begin (after : List Frame) : Task → Act Run
  | .skip => .silent (r.goOn after)
  | .pause p => .pause p (r.goOn after)
  | .mark text =>
    .silent (r.goOn (.surrender :: .note (Log.debug s!"log marker: {text}") :: after))
  | .call name =>
    .call name r.context fun
      | some ds => r.goOn (.deeds ds :: after)
      | none => r.goOn (.note (Log.debug s!"No processor named '{name}', skipping") :: after)
  | .loop count body =>
    .silent (r.goWith (r.context.setVar loopVar none)
      (.turn count 0 body :: .rebind (r.context.vars.get? loopVar) :: after))
  | .publish spec =>
    match spec.json with
    | none => .silent (r.failWith .missingTemplate after)
    | some template =>
      if spec.copies ≤ 0 then .silent (r.goOn after)
      else
        let attributes := spec.attributes.getD []
        .silent (r.goOn (.render template attributes spec.copies.toNat [] :: after))

def dispatch (settings : Settings) (attributes : Keyed String) (ready : List (List UInt8))
    (after : List Frame) : Act Run :=
  if settings.dryRun then
    .note (Log.debug s!"Dry run: prepared {ready.length} message(s), nothing sent") (r.goOn after)
  else match r.context.publisher with
    | none => .silent (r.failWith .noPublisher after)
    | some handle =>
      .silent (r.goOn (.send handle (ready.map fun data => ⟨data, attributes⟩) 0 [] none :: after))

def act (settings : Settings) (r : Run) : Act Run :=
  match r.control with
  | [] => .finish
  | .emit e :: after => .emit e (r.goOn after)
  | .note line :: after => .note line (r.goOn after)
  | .enter :: after => .silent (r.goWith { r.context with state := .running } after)
  | .acquire place :: after =>
    .acquire place {} fun
      | .ok handle => r.goWith { r.context with publisher := some handle } after
      | .error f => r.failWith f after
  | .task t :: after => r.begin after t
  | .turn count turns body :: after =>
    if goesOn count turns then
      .silent (r.goWith (r.context.setVar loopVar (some (.ofNat (turns + 1))))
        (body.map Frame.task ++ .surrender :: .turn count (turns + 1) body :: after))
    else .silent (r.goOn after)
  | .surrender :: after => .surrender (r.goOn after)
  | .rebind outer :: after => .silent (r.goWith (r.context.setVar loopVar outer) after)
  | .render _ attributes 0 ready :: after => r.dispatch settings attributes ready after
  | .render template attributes (left + 1) ready :: after =>
    .render template r.context.vars.bindings fun
      | .ok v =>
        let line := s!"Publishing message to topic ({settings.topic}): {v.text}"
        r.goOn (.note (Log.debug line) ::
          .render template attributes left (ready ++ [payload v]) :: after)
      | .error f =>
        r.goOn (.note (Log.debug s!"Error processing template: {f.message}") :: .fail f :: after)
  | .send topic (m :: queue) number inFlight failure :: after =>
    .publish topic number m fun
      | some s =>
        r.goOn (settledFrames r.context s ++
          .send topic queue (number + 1) inFlight (firstFailure failure s) :: after)
      | none => r.goOn (.send topic queue (number + 1) (inFlight ++ [number]) failure :: after)
  | .send topic [] number (i :: inFlight) failure :: after =>
    .await (i :: inFlight) fun j s =>
      r.goOn (settledFrames r.context s ++
        .send topic [] number ((i :: inFlight).erase j) (firstFailure failure s) :: after)
  | .send _ [] _ [] failure :: after =>
    match failure with
    | none => .silent (r.goOn after)
    | some f => .silent (r.failWith f after)
  | .deeds [] :: after => .silent (r.goOn after)
  | .deeds (d :: ds) :: after =>
    match d with
    | .become c => .silent (r.goWith c (.deeds ds :: after))
    | .emit e => .emit e (r.goOn (.deeds ds :: after))
    | .pause d => .pause ⟨d, none⟩ (r.goOn (.deeds ds :: after))
    | .inspect => .inspect r.context (r.goOn (.deeds ds :: after))
  | .fail f :: after => .silent (r.failWith f after)
  | .conclude name :: after =>
    match r.failure with
    | none => .silent (r.goWith { r.context with state := .completed } after)
    | some f =>
      .note (Log.debug s!"Scenario '{name}' failed: {f.message}")
        (r.goWith { r.context with state := .failed } after)

def setup (settings : Settings) : List Frame :=
  [ .note (Log.debug
      s!"Initializing Pub/Sub publisher for {settings.project}/{settings.topic}"),
    .acquire ⟨settings.project, settings.topic⟩ ]

def ofScenario (settings : Settings) (name : String) (tasks : List Task) (c : Context) : Run :=
  { control := .emit .started :: .enter :: setup settings ++ tasks.map Frame.task ++ [.conclude name]
    context := c }

def ofTask (t : Task) (c : Context) : Run := { control := [.task t], context := c }

def ofSetup (settings : Settings) (c : Context) : Run := { control := setup settings, context := c }

end Run
end Engine
end TopicLoad
