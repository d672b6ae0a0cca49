import TopicLoad.Decimal.Reading
import TopicLoad.Yaml.Node

/-! What scalars mean. A plain scalar without a tag is nothing, a truth value, a whole number or a
decimal if it is written like one, and a text otherwise. -/
namespace TopicLoad
namespace Yaml

inductive Meaning where
  | nothing
  | flag (b : Bool)
  | whole (n : Int)
  /-- A whole number that does not fit 64 bits. -/
  | huge (n : Int)
  | decimal (x : Float)
  | text (s : String)
deriving Repr

namespace Meaning

def isNull (s : String) : Bool := s = "null" || s = "Null" || s = "NULL" || s = "~"

def flag? (s : String) : Option Bool :=
  if s = "true" ∨ s = "True" ∨ s = "TRUE" then some true
  else if s = "false" ∨ s = "False" ∨ s = "FALSE" then some false
  else none

/-- Digits with a zero in front are no number. -/
def isPadded (cs : List Char) : Bool :=
  let ds := match cs with
    | '-' :: r | '+' :: r => r
    | _ => cs
  1 < ds.length && ds.head? = some '0' && ds.all Char.isDigit

def based? : List Char → Option Nat
  | '0' :: 'x' :: ds => Text.number? 16 ds
  | '0' :: 'o' :: ds => Text.number? 8 ds
  | '0' :: 'b' :: ds => Text.number? 2 ds
  | _ => none

def unsigned? (cs : List Char) : Option Nat :=
  let ds := match cs with
    | '+' :: r => r
    | _ => cs
  match based? ds with
  | some n => some n
  | none => if isPadded cs then none else Text.number? 10 ds

def negative? : List Char → Option Nat
  | '-' :: ds =>
    match based? ds with
    | some n => some n
    | none => if isPadded ds then none else Text.number? 10 ds
  | _ => none

def whole? (cs : List Char) : Option Int :=
  match unsigned? cs, negative? cs with
  | some n, _ => if n < Limits.bits128 then some n else none
  | none, some n => if n ≤ Limits.bits127 then some (-(n : Int)) else none
  | none, none => none

def decimal? (s : String) : Option Float :=
  let cs := s.toList
  let unsigned := match cs with
    | '+' :: r => r
    | _ => cs
  let infinite := [".inf", ".Inf", ".INF"]
  if cs.head? = some '+' ∧ (unsigned.head? = some '+' ∨ unsigned.head? = some '-') then none
  else if infinite.contains (String.ofList unsigned) then some Double.infinity
  else if cs.head? = some '-' ∧ infinite.contains (String.ofList (cs.drop 1)) then
    some (-Double.infinity)
  else if [".nan", ".NaN", ".NAN"].contains s then some Double.notANumber
  else (Double.ofText? unsigned).filter Float.isFinite

def ofWhole (n : Int) : Meaning :=
  if -(Limits.bits63 : Int) ≤ n ∧ n < (Limits.bits64 : Int) then .whole n else .huge n

def ofPlain (s : String) : Meaning :=
  if s = "" ∨ isNull s then .nothing
  else match flag? s with
    | some b => .flag b
    | none =>
      match whole? s.toList with
      | some n => ofWhole n
      | none =>
        if isPadded s.toList then .text s
        else match decimal? s with
          | some x => .decimal x
          | none => .text s

def coreTag (name : String) : String := "tag:yaml.org,2002:" ++ name

def isPrivate (tag : String) : Bool := tag.toList.head? = some '!'

/-- The meaning of a scalar, or what its tag wants instead. -/
def ofScalar (tag : Option String) (style : Style) (s : String) : Except String Meaning :=
  match tag with
  | none => .ok (if style = .plain then ofPlain s else .text s)
  | some tag =>
    if tag = coreTag "bool" then
      match flag? s with
      | some b => .ok (.flag b)
      | none => .error "a boolean"
    else if tag = coreTag "int" then
      match whole? s.toList with
      | some n => .ok (ofWhole n)
      | none => .error "an integer"
    else if tag = coreTag "float" then
      match decimal? s with
      | some x => .ok (.decimal x)
      | none => .error "a float"
    else if tag = coreTag "null" then
      if isNull s then .ok .nothing else .error "null"
    else if isPrivate tag ∧ style = .plain then .ok (ofPlain s)
    else .ok (.text s)

end Meaning
end Yaml
end TopicLoad
