import TopicLoad.Engine.Run

/-! What happens while a run is served. An act and the world's answer to it make a move; moves in a row
make a path, and what they show makes a history. -/
namespace TopicLoad
namespace Engine

/-- Whether an event comes from the engine itself or from a user-supplied function. -/
inductive Origin where
  | engine
  | function
deriving DecidableEq, Repr

/-- An act of a run together with the answer to it. -/
inductive Happening where
  | emitted (origin : Origin) (e : Event)
  | noted (line : Log.Line)
  | inspected (c : Context)
  | surrendered
  | paused (p : Pause)
  | acquired (place : Destination) (batching : Batching) (reply : Except Fault Handle)
  | rendered (template : Json) (vars : Keyed Json) (reply : Except Fault Json)
  /-- A call was made; it may have settled at once. -/
  | published (topic : Handle) (number : Nat) (message : Outgoing) (settled : Option Settlement)
  /-- A call in flight settled. -/
  | settled (number : Nat) (s : Settlement)
  | called (name : String) (c : Context) (reply : Option (List Deed))

abbrev History := List Happening

def Settlement.failure? (s : Settlement) : Option Fault :=
  match s.reply with
  | .ok _ => none
  | .error f => some f

namespace Happening

def render? : Happening → Option (Except Fault Json)
  | rendered _ _ reply => some reply
  | _ => none

def call? : Happening → Option (Handle × Nat × Outgoing)
  | published topic number m _ => some (topic, number, m)
  | _ => none

def start? : Happening → Option (Option Settlement)
  | published _ _ _ s => some s
  | _ => none

/-- The settlement of a call, at once or later, with the number of the call. -/
def settlement? : Happening → Option (Nat × Settlement)
  | published _ n _ (some s) => some (n, s)
  | settled n s => some (n, s)
  | _ => none

def event? : Happening → Option Event
  | emitted _ e => some e
  | _ => none

end Happening

namespace Act

variable {ρ : Type}

/-- What an act shows, and where it leads, whatever the world answers. A silent act shows nothing; a
call that is waited for is one of those in flight. -/
def Answered (origin : Origin) (a : Act ρ) (hs : History) (r : ρ) : Prop :=
  match a with
  | .finish => False
  | .silent next => hs = [] ∧ r = next
  | .emit e next => hs = [.emitted origin e] ∧ r = next
  | .note line next => hs = [.noted line] ∧ r = next
  | .inspect c next => hs = [.inspected c] ∧ r = next
  | .surrender next => hs = [.surrendered] ∧ r = next
  | .pause p next => hs = [.paused p] ∧ r = next
  | .acquire place batching next =>
    ∃ reply, hs = [.acquired place batching reply] ∧ r = next reply
  | .render template vars next => ∃ reply, hs = [.rendered template vars reply] ∧ r = next reply
  | .publish topic number message next =>
    ∃ s, hs = [.published topic number message s] ∧ r = next s
  | .await inFlight next => ∃ n s, n ∈ inFlight ∧ hs = [.settled n s] ∧ r = next n s
  | .call name c next => ∃ reply, hs = [.called name c reply] ∧ r = next reply

end Act

namespace Run

def origin (r : Run) : Origin :=
  match r.control with
  | .deeds _ :: _ => .function
  | _ => .engine

def Moves (settings : Settings) (r : Run) (hs : History) (r' : Run) : Prop :=
  (r.act settings).Answered r.origin hs r'

inductive Path (settings : Settings) : Run → History → Run → Prop where
  | refl (r : Run) : Path settings r [] r
  | step {r r' r'' : Run} {hs hs' : History} (h : Moves settings r hs r')
      (hp : Path settings r' hs' r'') : Path settings r (hs ++ hs') r''

variable {settings : Settings} {r r' r'' : Run} {hs hs' : History}

theorem Path.trans (h : Path settings r hs r') (h' : Path settings r' hs' r'') :
    Path settings r (hs ++ hs') r'' := by
  induction h with
  | refl => exact h'
  | step hm _ ih =>
    rw [List.append_assoc]
    exact .step hm (ih h')

theorem path_iff : Path settings r hs r'' ↔
    hs = [] ∧ r'' = r ∨
    ∃ hs₁ r' hs₂, Moves settings r hs₁ r' ∧ Path settings r' hs₂ r'' ∧ hs = hs₁ ++ hs₂ := by
  constructor
  · rintro (_ | ⟨hm, hp⟩)
    · exact Or.inl ⟨rfl, rfl⟩
    · exact Or.inr ⟨_, _, _, hm, hp, rfl⟩
  · rintro (⟨rfl, rfl⟩ | ⟨hs₁, r', hs₂, hm, hp, rfl⟩)
    · exact .refl _
    · exact .step hm hp

/-- What every move keeps that shows nothing but what is allowed, every such path keeps. -/
theorem Path.keeps {P : Run → Prop} {allowed : Happening → Prop}
    (hstep : ∀ {r hs r'}, Moves settings r hs r' → (∀ a ∈ hs, allowed a) → P r → P r')
    (h : Path settings r hs r') (ha : ∀ a ∈ hs, allowed a) (hr : P r) : P r' := by
  induction h with
  | refl => exact hr
  | step hm _ ih =>
    obtain ⟨hm', hp'⟩ := List.forall_mem_append.mp ha
    exact ih hp' (hstep hm hm' hr)

/-- What is shown by every move that begins where a property holds that all moves keep, is shown by
every path. -/
theorem Path.shows {P : Run → Prop} {Q : Happening → Prop}
    (hstep : ∀ {r hs r'}, Moves settings r hs r' → P r → P r' ∧ ∀ a ∈ hs, Q a)
    (h : Path settings r hs r') (hr : P r) : P r' ∧ ∀ a ∈ hs, Q a := by
  induction h with
  | refl => exact ⟨hr, by simp⟩
  | step hm _ ih =>
    obtain ⟨hr', hq⟩ := hstep hm hr
    obtain ⟨hr'', hq'⟩ := ih hr'
    exact ⟨hr'', List.forall_mem_append.mpr ⟨hq, hq'⟩⟩

theorem not_moves_nil {c : Context} {o : Option Fault} : ¬ Moves settings ⟨[], c, o⟩ hs r' := id

theorem Moves.control_ne_nil (h : Moves settings r hs r') : r.control ≠ [] := by
  obtain ⟨_ | ⟨f, fs⟩, c, o⟩ := r
  · exact absurd h not_moves_nil
  · simp

theorem path_nil_iff {c : Context} {o : Option Fault} :
    Path settings ⟨[], c, o⟩ hs r' ↔ hs = [] ∧ r' = ⟨[], c, o⟩ := by
  rw [path_iff]
  constructor
  · rintro (h | ⟨_, _, _, hm, _, _⟩)
    · exact h
    · exact absurd hm not_moves_nil
  · exact Or.inl

end Run
end Engine
end TopicLoad
