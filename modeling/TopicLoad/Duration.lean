import TopicLoad.Decimal.Reading

/-! Lengths of time in whole nanoseconds. -/
namespace TopicLoad

structure Duration where
  nanoseconds : Nat
deriving DecidableEq, Repr

namespace Duration

def zero : Duration := ⟨0⟩

def perMillisecond : Nat := 1000000

def perSecond : Nat := 1000000000

def ofMilliseconds (n : Nat) : Duration := ⟨n * perMillisecond⟩

def seconds (d : Duration) : Nat := d.nanoseconds / perSecond

def beyondSeconds (d : Duration) : Nat := d.nanoseconds % perSecond

/-- The seconds of a duration are counted in 64 bits. -/
def secondsLimit : Nat := Limits.bits64

/-- The exact value of a finite double in nanoseconds, a half rounded to even; nothing if there are
too many seconds. The sign is not looked at. -/
def ofSeconds? (x : Float) : Option Duration :=
  let n := Double.scaledMagnitude x perSecond
  if n / perSecond < secondsLimit then some ⟨n⟩ else none

/-- Seconds as a double: whole seconds and fraction are rounded each for itself. -/
def toSeconds (d : Duration) : Float :=
  d.seconds.toUInt64.toFloat + d.beyondSeconds.toUInt64.toFloat / 1e9

def toMilliseconds (d : Duration) : Float := d.toSeconds * 1000.0

def ceilMilliseconds (d : Duration) : Nat :=
  (d.nanoseconds + (perMillisecond - 1)) / perMillisecond

def scaled? (d : Duration) (factor : Float) : Option Duration :=
  let x := factor * d.toSeconds
  if x.isFinite then ofSeconds? x else none

end Duration
end TopicLoad
