import TopicLoad.Limits
import TopicLoad.Decimal.Notation

/-! Samples of a histogram and the numbers that sum them up. -/
namespace TopicLoad

/-- A double by its bits, so that zeros of either sign and all NaNs can be told apart. -/
structure Sample where
  bits : UInt64
deriving DecidableEq, Repr

namespace Sample

def ofFloat (x : Float) : Sample := ⟨x.toBits⟩

def toFloat (s : Sample) : Float := Float.ofBits s.bits

/-- Place in the total order of doubles: negative NaNs first, then by value with `-0` before `0`, and
positive NaNs last. -/
def place (s : Sample) : Nat :=
  let n := s.bits.toNat
  if n < Limits.bits63 then n + Limits.bits63 else Limits.bits64 - 1 - n

def le (a b : Sample) : Bool := a.place ≤ b.place

theorem place_injective {a b : Sample} (h : a.place = b.place) : a = b := by
  have ha := a.bits.toNat_lt
  have hb := b.bits.toNat_lt
  have : a.bits.toNat = b.bits.toNat := by
    simp only [place] at h
    split at h <;> split at h <;> simp only [Limits.bits63, Limits.bits64] at * <;> omega
  cases a; cases b
  exact congrArg Sample.mk (UInt64.toNat_inj.mp this)

end Sample

structure Summary where
  count : Nat
  min : Sample
  max : Sample
  mean : Sample
  p50 : Sample
  p95 : Sample
  p99 : Sample
deriving DecidableEq, Repr

namespace Summary

def sorted (samples : List Sample) : List Sample := samples.mergeSort Sample.le

/-- The rank, counted from one, below or at which `p` percent of `n` samples lie. -/
def rank (p n : Nat) : Nat := Nat.max 1 (Nat.min n ((p * n + 99) / 100))

/-- The sum in the order given, from `-0` on. -/
def sum (samples : List Sample) : Float := samples.foldl (fun x s => x + s.toFloat) (-0.0)

def percentile (p : Nat) (ordered : List Sample) : Option Sample := ordered[rank p ordered.length - 1]?

def ofSamples (samples : List Sample) : Option Summary := do
  let ordered := sorted samples
  let min ← ordered.head?
  let max ← ordered.getLast?
  let mean := Sample.ofFloat (sum ordered / ordered.length.toUInt64.toFloat)
  let p50 ← percentile 50 ordered
  let p95 ← percentile 95 ordered
  let p99 ← percentile 99 ordered
  some ⟨ordered.length, min, max, mean, p50, p95, p99⟩

end Summary
end TopicLoad
