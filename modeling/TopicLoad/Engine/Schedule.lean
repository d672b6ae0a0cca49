import TopicLoad.Engine.Run

/-! Serving several runs in turn on a clock that counts milliseconds. Every run that can go on is taken
as far as it gets, in order; when all wait, the clock moves on to the first moment at which one of them
can go on. -/
namespace TopicLoad
namespace Engine

/-- How the world answers runs; the clock stands at `now` milliseconds. -/
structure Collaborators (m : Type → Type) where
  emit : Event → m Unit
  note : Log.Line → m Unit
  inspect : Context → m Unit
  acquire : Destination → Batching → m (Except Fault Handle)
  render : Json → Keyed Json → m (Except Fault Json)
  /-- How many milliseconds a publish call takes, and how it ends. -/
  publish (now : Nat) : Handle → Outgoing → m (Nat × Except Fault String)
  call (now : Nat) : String → Context → m (Option (List Deed))
  random : m Seed

structure Flight where
  number : Nat
  due : Nat
  reply : Except Fault String

inductive Ending where
  | finished
  /-- The deadline came first. -/
  | late
  /-- A pause could not be measured. -/
  | broken
deriving DecidableEq, Repr

/-- A run that is being served: it can go on from `wake` milliseconds on. -/
structure Lane where
  run : Run
  deadline : Option Nat := none
  wake : Nat := 0
  flights : List Flight := []
  ending : Option Ending := none

namespace Lane

def instant (now : Nat) : Instant := (Duration.ofMilliseconds now).nanoseconds

/-- The flight that ends first; of several, the one that was begun first. -/
def earliest : List Flight → Option Flight
  | [] => none
  | f :: fs =>
    match earliest fs with
    | none => some f
    | some g => if g.due < f.due then some g else some f

variable {m : Type → Type} [Monad m]

/-- Takes a run as far as it gets without waiting. -/
@[specialize] def serve (c : Collaborators m) (settings : Settings) (now : Nat) :
    Nat → Lane → m Lane
  | 0, lane => pure lane
  | fuel + 1, lane => do
    match lane.run.act settings with
    | .finish => pure { lane with ending := some .finished }
    | .silent r => serve c settings now fuel { lane with run := r }
    | .emit e r =>
      c.emit e
      serve c settings now fuel { lane with run := r }
    | .note line r =>
      c.note line
      serve c settings now fuel { lane with run := r }
    | .inspect ctx r =>
      c.inspect ctx
      serve c settings now fuel { lane with run := r }
    | .surrender r => pure { lane with run := r, wake := now }
    | .pause p r =>
      match p.effective? (← c.random) with
      | none => pure { lane with ending := some .broken }
      | some d =>
        if d.ceilMilliseconds = 0 then serve c settings now fuel { lane with run := r }
        else pure { lane with run := r, wake := now + d.ceilMilliseconds }
    | .acquire place batching next =>
      let reply ← c.acquire place batching
      serve c settings now fuel { lane with run := next reply }
    | .render template vars next =>
      let reply ← c.render template vars
      serve c settings now fuel { lane with run := next reply }
    | .publish topic number message next =>
      let (delay, reply) ← c.publish now topic message
      if delay = 0 then
        serve c settings now fuel { lane with run := next (some ⟨reply, instant now⟩) }
      else
        serve c settings now fuel
          { lane with run := next none, flights := lane.flights ++ [⟨number, now + delay, reply⟩] }
    | .await _ next =>
      match earliest lane.flights with
      | none => pure { lane with ending := some .broken }
      | some f =>
        if f.due ≤ now then
          serve c settings now fuel
            { lane with
              run := next f.number ⟨f.reply, instant now⟩
              flights := lane.flights.filter fun g => g.number ≠ f.number }
        else pure { lane with wake := f.due }
    | .call name ctx next =>
      let reply ← c.call now name ctx
      serve c settings now fuel { lane with run := next reply }

/-- Serves a run whose time has come; one that has to wait at its deadline is given up. -/
@[specialize] def turn (c : Collaborators m) (settings : Settings) (now fuel : Nat) (lane : Lane) :
    m Lane := do
  let lane ←
    if lane.ending.isNone ∧ lane.wake ≤ now then serve c settings now fuel lane else pure lane
  match lane.ending, lane.deadline with
  | none, some d => if d ≤ now then pure { lane with ending := some .late } else pure lane
  | _, _ => pure lane

def next (lane : Lane) : Option Nat :=
  match lane.ending with
  | some _ => none
  | none =>
    match lane.deadline with
    | some d => some (min lane.wake d)
    | none => some lane.wake

end Lane

namespace Schedule

variable {m : Type → Type} [Monad m]

/-- Serves all lanes until each has ended; also the time at which the last one did. -/
@[specialize] def drive (c : Collaborators m) (settings : Settings) (fuel : Nat) :
    Nat → Nat → List Lane → m (Nat × List Lane)
  | 0, now, lanes => pure (now, lanes)
  | rounds + 1, now, lanes => do
    let lanes ← lanes.mapM (Lane.turn c settings now fuel)
    match (lanes.filterMap Lane.next).min? with
    | none => pure (now, lanes)
    | some t => drive c settings fuel rounds (max now t) lanes

end Schedule
end Engine
end TopicLoad
