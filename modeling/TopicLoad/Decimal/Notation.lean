import TopicLoad.Decimal.Shortest

/-! How doubles are written: positional or with an exponent, and with a fixed number of places. -/
namespace TopicLoad
namespace Decimal

def digits (n : Nat) : List Char := Nat.toDigits 10 n

def zeros (n : Nat) : List Char := List.replicate n '0'

/-- The decimal without an exponent, and without a point if no digit comes after it. -/
def positional (d : Decimal) : List Char :=
  let ds := digits d.coefficient
  if 0 ≤ d.exponent then ds ++ zeros d.exponent.toNat
  else
    let places := (-d.exponent).toNat
    if places < ds.length then ds.take (ds.length - places) ++ '.' :: ds.drop (ds.length - places)
    else '0' :: '.' :: zeros (places - ds.length) ++ ds

/-- The decimal with one digit before the point and a signed exponent. -/
def scientific (d : Decimal) : List Char :=
  let ds := digits d.coefficient
  let e := d.exponent + (ds.length : Int) - 1
  let tail := ds.drop 1
  ds.take 1 ++ (if tail.isEmpty then [] else '.' :: tail) ++
    'e' :: (if e < 0 then '-' else '+') :: digits e.natAbs

def leading (d : Decimal) : Int := d.exponent + (digits d.coefficient).length - 1

def pointed (cs : List Char) : List Char := if '.' ∈ cs then cs else cs ++ ['.', '0']

end Decimal

namespace Double

def isNegative (x : Float) : Bool := x.toBits >>> 63 == 1

def sign (x : Float) : List Char := if isNegative x then ['-'] else []

/-- The text of a finite double in JSON: positional from `0.00001` up to below `10 ^ 16`, always with
a point or an exponent. -/
def jsonText (x : Float) : String :=
  let d := Decimal.shortest .even x
  String.ofList <| sign x ++
    if d.coefficient = 0 ∨ (-5 ≤ d.leading ∧ d.leading < 16) then Decimal.pointed d.positional
    else d.scientific

def plainText (x : Float) : String :=
  if x.isNaN then "NaN"
  else String.ofList <| sign x ++
    if x.isInf then ['i', 'n', 'f'] else (Decimal.shortest .up x).positional

def pointedText (x : Float) : String :=
  if x.isFinite then String.ofList (Decimal.pointed (plainText x).toList) else plainText x

/-- `num / den` rounded to a whole number, a half to the even one. -/
def roundHalfEven (num den : Nat) : Nat :=
  let low := num / den
  let rest := num % den
  if 2 * rest < den then low
  else if den < 2 * rest then low + 1
  else if low % 2 = 0 then low else low + 1

/-- The exact magnitude of a finite double times `scale`, rounded to a whole number. -/
def scaledMagnitude (x : Float) (scale : Nat) : Nat :=
  let b := Decimal.Binary.ofBits x.toBits
  roundHalfEven ((b.mantissa * scale) <<< b.exponent.toNat) (1 <<< (-b.exponent).toNat)

def onePlaceText (x : Float) : String :=
  if x.isNaN then "NaN"
  else String.ofList <| sign x ++
    if x.isInf then ['i', 'n', 'f']
    else
      let tenths := scaledMagnitude x 10
      Decimal.digits (tenths / 10) ++ '.' :: Decimal.digits (tenths % 10)

end Double
end TopicLoad
