/-! The shortest decimal that reads back to a given double.

A positive finite double is `m · 2 ^ q`. The decimals that read back to it form an interval around it,
and grids `10 ^ g` are tried from the coarsest on: the first grid with a point in the interval holds
the answer, and of two such points the nearer one is taken. All arithmetic is exact. -/
namespace TopicLoad

/-- The number `coefficient · 10 ^ exponent`. -/
structure Decimal where
  coefficient : Nat
  exponent : Int
deriving DecidableEq, Repr

namespace Decimal

inductive Tie where
  | even
  | up
deriving DecidableEq, Repr

/-- The magnitude `mantissa · 2 ^ exponent` of a finite double; `narrow` says that the next smaller
double is only half as far away as the next larger one. -/
structure Binary where
  mantissa : Nat
  exponent : Int
  narrow : Bool
deriving DecidableEq, Repr

def Binary.ofBits (bits : UInt64) : Binary :=
  let field := (bits.toNat >>> 52) % 2048
  let fraction := bits.toNat % 0x10000000000000
  if field = 0 then ⟨fraction, -1074, false⟩
  else ⟨fraction + 0x10000000000000, (field : Int) - 1075, fraction = 0 ∧ 1 < field⟩

namespace Binary

/-- An exponent that is not below the one of the leading decimal digit, plus one. -/
def reach (b : Binary) : Int := ((b.mantissa.log2 + 1 : Int) + b.exponent) * 30103 / 100000 + 1

/-- Numerator and denominator of `(4 · mantissa + offset) · 2 ^ (exponent - 2) / 10 ^ g`. -/
def scaled (b : Binary) (offset : Int) (g : Int) : Nat × Nat :=
  let n := (4 * (b.mantissa : Int) + offset).toNat
  let q := b.exponent - 2
  ((n * Nat.pow 10 (-g).toNat) <<< q.toNat, Nat.pow 10 g.toNat <<< (-q).toNat)

/-- Whether `c · 10 ^ g` reads back to the double. -/
def admits (b : Binary) (g : Int) (c : Nat) : Bool :=
  let low := b.scaled (if b.narrow then -1 else -2) g
  let high := b.scaled 2 g
  if b.mantissa % 2 = 0 then low.1 ≤ c * low.2 ∧ c * high.2 ≤ high.1
  else low.1 < c * low.2 ∧ c * high.2 < high.1

/-- The point of the grid `10 ^ g` that is taken for the double, if one reads back to it. -/
def onGrid (tie : Tie) (b : Binary) (g : Int) : Option Nat :=
  let v := b.scaled 0 g
  let below := v.1 / v.2
  let rest := v.1 % v.2
  match b.admits g below, b.admits g (below + 1) with
  | false, false => none
  | true, false => some below
  | false, true => some (below + 1)
  | true, true =>
    if 2 * rest < v.2 then some below
    else if v.2 < 2 * rest then some (below + 1)
    else match tie with
      | .up => some (below + 1)
      | .even => some (if below % 2 = 0 then below else below + 1)

def search (tie : Tie) (b : Binary) : Nat → Int → Decimal
  | 0, g => ⟨(b.scaled 0 g).1 / (b.scaled 0 g).2, g⟩
  | fuel + 1, g =>
    match b.onGrid tie g with
    | some c => ⟨c, g⟩
    | none => b.search tie fuel (g - 1)

/-- Seventeen digits always suffice, and the first grid is at most two above the leading digit. -/
def shortest (tie : Tie) (b : Binary) : Decimal := b.search tie 20 b.reach

end Binary

/-- The shortest decimal that reads back to the magnitude of the double. -/
def shortest (tie : Tie) (x : Float) : Decimal :=
  if x == 0.0 then ⟨0, 0⟩ else (Binary.ofBits x.toBits).shortest tie

end Decimal
end TopicLoad
