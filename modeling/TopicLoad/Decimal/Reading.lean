import TopicLoad.Limits
import TopicLoad.Decimal.Notation

/-! Reading decimal text: whole numbers, and doubles rounded to the nearest. -/
namespace TopicLoad
namespace Decimal

def value (ds : List Char) : Nat := ds.foldl (fun n d => 10 * n + (d.toNat - 48)) 0

@[simp] theorem value_nil : value [] = 0 := rfl

@[simp] theorem value_append (ds : List Char) (d : Char) :
    value (ds ++ [d]) = 10 * value ds + (d.toNat - 48) := by
  simp [value]

/-- A whole number with an optional plus sign, below `bound`. -/
def readNat (bound : Nat) (cs : List Char) : Option Nat :=
  let ds := match cs with
    | '+' :: r => r
    | _ => cs
  if ds ≠ [] ∧ ds.all Char.isDigit ∧ value ds < bound then some (value ds) else none

def readInt64 (cs : List Char) : Option Int :=
  match cs with
  | '-' :: ds =>
    if ds ≠ [] ∧ ds.all Char.isDigit ∧ value ds ≤ Limits.bits63 then some (-(value ds : Int)) else none
  | _ => (readNat Limits.bits63 cs).map Int.ofNat

end Decimal

namespace Double

def signed (negative : Bool) (x : Float) : Float := if negative then -x else x

def infinity : Float := Float.ofBits 0x7ff0000000000000

def notANumber : Float := Float.ofBits 0x7ff8000000000000

/-- The double nearest to `coefficient · 10 ^ exponent`. -/
def ofDecimal (d : Decimal) : Float :=
  let top := d.exponent + (Decimal.digits d.coefficient).length
  if d.coefficient = 0 ∨ top < -330 then 0.0
  else if 310 < top then infinity
  else Float.ofScientific d.coefficient (d.exponent < 0) d.exponent.natAbs

def readExponent (cs : List Char) : Option Int :=
  let (negative, ds) := match cs with
    | '-' :: r => (true, r)
    | '+' :: r => (false, r)
    | _ => (false, cs)
  if ds ≠ [] ∧ ds.all Char.isDigit then
    some (if negative then -(Decimal.value ds : Int) else Decimal.value ds)
  else none

/-- Digits with an optional point and an optional exponent; at least one digit before the
exponent. -/
def readMagnitude (cs : List Char) : Option Float :=
  let whole := cs.takeWhile Char.isDigit
  let rest := cs.dropWhile Char.isDigit
  let (places, rest) := match rest with
    | '.' :: r => (r.takeWhile Char.isDigit, r.dropWhile Char.isDigit)
    | _ => ([], rest)
  if whole = [] ∧ places = [] then none
  else
    let read (e : Int) :=
      ofDecimal ⟨Decimal.value (whole ++ places), e - (places.length : Int)⟩
    match rest with
    | [] => some (read 0)
    | c :: r => if c = 'e' ∨ c = 'E' then (readExponent r).map read else none

/-- A double as text: an optional sign before a decimal, `inf`, `infinity` or `nan` in either case. -/
def ofText? (cs : List Char) : Option Float :=
  let (negative, body) := match cs with
    | '-' :: r => (true, r)
    | '+' :: r => (false, r)
    | _ => (false, cs)
  let lower := String.ofList (body.map Char.toLower)
  if lower = "nan" then some notANumber
  else if lower = "inf" ∨ lower = "infinity" then some (signed negative infinity)
  else (readMagnitude body).map (signed negative)

def ofInt (n : Int) : Float := signed (n < 0) n.natAbs.toUInt64.toFloat

end Double
end TopicLoad
