/-! Bytes as text in the standard alphabet of 64 letters. Three bytes are four letters; what is left at
the end is filled up with `=`. Reading gives back exactly the bytes that were written. -/
namespace TopicLoad
namespace Text
namespace Base64

def letter (n : Nat) : Char :=
  if n < 26 then Char.ofNat (n + 65)
  else if n < 52 then Char.ofNat (n + 71)
  else if n < 62 then Char.ofNat (n - 4)
  else if n = 62 then '+'
  else '/'

def value? (c : Char) : Option Nat :=
  if 'A' ≤ c ∧ c ≤ 'Z' then some (c.toNat - 65)
  else if 'a' ≤ c ∧ c ≤ 'z' then some (c.toNat - 71)
  else if c.isDigit then some (c.toNat + 4)
  else if c = '+' then some 62
  else if c = '/' then some 63
  else none

def encode : List UInt8 → List Char
  | [] => []
  | [a] => [letter (a.toNat / 4), letter (a.toNat % 4 * 16), '=', '=']
  | [a, b] =>
    [letter (a.toNat / 4), letter (a.toNat % 4 * 16 + b.toNat / 16), letter (b.toNat % 16 * 4), '=']
  | a :: b :: c :: rest =>
    letter (a.toNat / 4) :: letter (a.toNat % 4 * 16 + b.toNat / 16) ::
      letter (b.toNat % 16 * 4 + c.toNat / 64) :: letter (c.toNat % 64) :: encode rest

def first (w x : Nat) : UInt8 := .ofNat (w * 4 + x / 16)

def second (x y : Nat) : UInt8 := .ofNat (x % 16 * 16 + y / 4)

def third (y z : Nat) : UInt8 := .ofNat (y % 4 * 64 + z)

/-- Wants groups of four letters; only the last group may be filled up, with bits that are all zero. -/
def decode? : List Char → Option (List UInt8)
  | [] => some []
  | [w, x, '=', '='] => do
    let w ← value? w
    let x ← value? x
    if x % 16 = 0 then some [first w x] else none
  | [w, x, y, '='] => do
    let w ← value? w
    let x ← value? x
    let y ← value? y
    if y % 4 = 0 then some [first w x, second x y] else none
  | w :: x :: y :: z :: rest => do
    let w ← value? w
    let x ← value? x
    let y ← value? y
    let z ← value? z
    let bs ← decode? rest
    some (first w x :: second x y :: third y z :: bs)
  | _ => none

@[simp] theorem encode_nil : encode [] = [] := rfl

end Base64
end Text
end TopicLoad
