/-! A place in a YAML text and the text from there on. -/
namespace TopicLoad
namespace Yaml

/-- All counts start at zero and are in characters. -/
structure Mark where
  index : Nat := 0
  line : Nat := 0
  column : Nat := 0
deriving DecidableEq, Repr

structure Cursor where
  rest : List Char
  mark : Mark := {}
deriving Repr

def isBreak (c : Char) : Bool :=
  c = '\n' || c = '\r' || c.toNat = 0x85 || c.toNat = 0x2028 || c.toNat = 0x2029

def isBlank (c : Char) : Bool := c = ' ' || c = '\t'

def endsWord : Option Char → Bool
  | none => true
  | some c => isBlank c || isBreak c

def endsLine : Option Char → Bool
  | none => true
  | some c => isBreak c

def isNameChar (c : Char) : Bool := c.isAlphanum || c = '_' || c = '-'

def isAllowed (c : Char) : Bool :=
  let n := c.toNat
  n = 0x9 || n = 0xa || n = 0xd || (0x20 ≤ n && n ≤ 0x7e) || n = 0x85 || (0xa0 ≤ n && n ≤ 0xd7ff) ||
    (0xe000 ≤ n && n ≤ 0xfffd && n != 0xfeff) || 0x10000 ≤ n

namespace Cursor

variable (c : Cursor)

def at? (n : Nat) : Option Char := c.rest[n]?

def head? : Option Char := c.rest.head?

def skip (n : Nat) : Cursor :=
  ⟨c.rest.drop n, { c.mark with index := c.mark.index + n, column := c.mark.column + n }⟩

def skipWhile (p : Char → Bool) : Cursor := c.skip (c.rest.takeWhile p).length

def takeWhile (p : Char → Bool) : List Char := c.rest.takeWhile p

def breakLength : Nat :=
  match c.rest with
  | '\r' :: '\n' :: _ => 2
  | _ => 1

def skipBreak : Cursor :=
  let n := c.breakLength
  ⟨c.rest.drop n, { index := c.mark.index + n, line := c.mark.line + 1, column := 0 }⟩

/-- The line break here as it counts in a scalar: all but two kinds are a line feed. -/
def lineBreak : List Char :=
  match c.head? with
  | some b => if b.toNat = 0x2028 ∨ b.toNat = 0x2029 then [b] else ['\n']
  | none => []

def atBreak : Bool := (c.head?.map isBreak).getD false

def atBlank : Bool := (c.head?.map isBlank).getD false

/-- A line that begins with three equal signs of `sign` and a blank. -/
def atIndicator (sign : Char) : Bool :=
  c.mark.column = 0 && c.at? 0 = some sign && c.at? 1 = some sign && c.at? 2 = some sign &&
    endsWord (c.at? 3)

def atDocumentEdge : Bool := c.atIndicator '-' || c.atIndicator '.'

end Cursor
end Yaml
end TopicLoad
