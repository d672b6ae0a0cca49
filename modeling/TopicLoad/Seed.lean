/-! Pseudo-random numbers as pure functions of a seed. A seed branches instead of advancing, so that
what is drawn in one place does not depend on what is drawn in another. -/
namespace TopicLoad

structure Seed where
  state : UInt64
deriving DecidableEq, Repr

namespace Seed

def mix (z : UInt64) : UInt64 :=
  let z := (z ^^^ (z >>> 30)) * 0xbf58476d1ce4e5b9
  let z := (z ^^^ (z >>> 27)) * 0x94d049bb133111eb
  z ^^^ (z >>> 31)

def child (s : Seed) (n : Nat) : Seed :=
  ⟨mix (mix s.state + (n.toUInt64 + 1) * 0x9e3779b97f4a7c15)⟩

def word (s : Seed) : Nat := (mix (s.state ^^^ 0x5851f42d4c957f2d)).toNat

def wide (s : Seed) : Nat := (s.child 0).word <<< 64 + (s.child 1).word

def below (s : Seed) (n : Nat) : Nat := s.wide % n

def unit (s : Seed) : Float := (s.word >>> 11).toUInt64.toFloat / 9007199254740992.0

/-- A double between `low` and `high`, both included. -/
def between (s : Seed) (low high : Float) : Float :=
  let x := low + (high - low) * s.unit
  if x < low then low else if high < x then high else x

end Seed
end TopicLoad
