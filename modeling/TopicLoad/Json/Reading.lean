import TopicLoad.Json.Fault
import TopicLoad.Text.Digits

/-! Reading JSON text. A reader takes a value off the front of the characters and hands on the rest;
`Json.read` wants the whole text to be one value. -/
namespace TopicLoad
namespace Json

abbrev Reader (α : Type) := StateT (List Char) (Except Fault) α

namespace Reader

variable {α β : Type}

/-- Fails at a place `ahead` bytes further on. -/
def fail (cause : Cause) (ahead : Nat) : Reader α := fun rest => .error ⟨cause, rest, some ahead⟩

/-- Fails because of the shape of a value: the place is where the value around it is left. -/
def mismatch (m : Mismatch) : Reader α := fun rest => .error ⟨.mismatch m, rest, none⟩

def isSpace (c : Char) : Bool := c = ' ' || c = '\n' || c = '\t' || c = '\r'

def peek : Reader (Option Char) := fun rest =>
  let rest := rest.dropWhile isSpace
  .ok (rest.head?, rest)

def next? : Reader (Option Char) := fun rest => .ok (rest.head?, rest)

def advance : Reader Unit := fun rest => .ok ((), rest.drop 1)

def word : List Char → Reader Unit
  | [] => pure ()
  | w :: ws => do
    match ← next? with
    | none => fail .endInValue 0
    | some c => if c = w then advance *> word ws else fail .badWord 1

/-! ## Numbers -/

/-- Takes digits as long as the number they make fits 64 bits; also the count of those taken. -/
def digitsThatFit (limit : Nat) (n count : Nat) : List Char → Nat × Nat × List Char
  | [] => (n, count, [])
  | c :: cs =>
    let m := 10 * n + (c.toNat - 48)
    if c.isDigit ∧ m < limit then digitsThatFit limit m (count + 1) cs else (n, count, c :: cs)

def startsWithDigit (cs : List Char) : Bool := (cs.head?.map Char.isDigit).getD false

def powerOfTen (n : Nat) : Float := Float.ofScientific 1 false n

/-- `x · 10 ^ e` in double arithmetic, unless it is out of range. -/
def scale : Nat → Float → Int → Option Float
  | 0, x, _ => some x
  | steps + 1, x, e =>
    if e.natAbs ≤ 308 then
      if e < 0 then some (x / powerOfTen e.natAbs)
      else
        let y := x * powerOfTen e.natAbs
        if y.isInf then none else some y
    else if x == 0.0 then some x
    else if 0 ≤ e then none
    else scale steps (x / powerOfTen 308) (e + 308)

/-- A significand below `2 ^ 64` is zero after three steps down. -/
def fromParts (negative : Bool) (significand : Nat) (e : Int) : Reader Number :=
  match scale 4 significand.toUInt64.toFloat e with
  | some x => pure (.float (Double.signed negative x))
  | none => fail .hugeNumber 0

def dropDigits : Reader Nat := fun rest =>
  .ok ((rest.takeWhile Char.isDigit).length, rest.dropWhile Char.isDigit)

def exponent (negative : Bool) (significand : Nat) (e : Int) : Reader Number := do
  advance
  let down ← match ← next? with
    | some '+' => advance *> pure false
    | some '-' => advance *> pure true
    | _ => pure false
  match ← next? with
  | none => fail .endInValue 0
  | some c =>
    if ¬ c.isDigit then fail .badNumber 1
    else
      let (n, _, rest) := digitsThatFit Limits.bits31 0 0 (← get)
      set rest
      if startsWithDigit rest then
        if significand ≠ 0 ∧ ¬ down then fail .hugeNumber 1
        else dropDigits *> pure (.float (Double.signed negative 0.0))
      else fromParts negative significand (if down then e - n else e + n)

def afterDigits (negative : Bool) (significand : Nat) (e : Int) : Reader Number := do
  match ← next? with
  | some c =>
    if c = 'e' ∨ c = 'E' then exponent negative significand e
    else fromParts negative significand e
  | none => fromParts negative significand e

/-- From the decimal point on. Digits for which the significand has no room are left out. -/
def places (negative : Bool) (significand : Nat) (e : Int) : Reader Number := do
  advance
  let (n, count, rest) := digitsThatFit Limits.bits64 significand 0 (← get)
  set rest
  if startsWithDigit rest then
    let _ ← dropDigits
    afterDigits negative n (e - count)
  else if count = 0 then
    match rest with
    | [] => fail .endInValue 1
    | _ => fail .badNumber 1
  else afterDigits negative n (e - count)

def afterWhole (negative : Bool) (significand : Nat) : Reader Number := do
  match ← next? with
  | some '.' => places negative significand 0
  | some 'e' | some 'E' => exponent negative significand 0
  | _ =>
    if ¬ negative then pure (.int significand)
    else if significand = 0 ∨ Limits.bits63 < significand then
      pure (.float (-significand.toUInt64.toFloat))
    else pure (.int (-(significand : Int)))

def number (negative : Bool) : Reader Number := do
  match ← next? with
  | none => fail .endInValue 0
  | some '0' =>
    advance
    if startsWithDigit (← get) then fail .badNumber 1 else afterWhole negative 0
  | some c =>
    if ¬ c.isDigit then fail .badNumber 1
    else
      let (n, _, rest) := digitsThatFit Limits.bits64 0 0 (← get)
      set rest
      if startsWithDigit rest then
        let dropped ← dropDigits
        match ← next? with
        | some '.' => places negative n dropped
        | _ => afterDigits negative n dropped
      else afterWhole negative n

/-! ## Texts -/

def hexQuad : Reader Nat := fun rest =>
  let size := byteSize (rest.take 4)
  if size < 4 then .error ⟨.endInText, rest, some size⟩
  else match rest with
  | a :: b :: c :: d :: rest' =>
    match Text.hexValue? a, Text.hexValue? b, Text.hexValue? c, Text.hexValue? d with
    | some a, some b, some c, some d => .ok (((a * 16 + b) * 16 + c) * 16 + d, rest')
    | _, _, _, _ => .error ⟨.badEscape, rest, some 4⟩
  | _ => .error ⟨.badEscape, rest, some 4⟩

def expectAfterSurrogate (c : Char) : Reader Unit := do
  match ← next? with
  | none => fail .endInText 0
  | some d => if d = c then advance else fail .cutSurrogate 1

/-- The character of an escape by code, after `u`: characters beyond 16 bits are two escapes. -/
def unicodeEscape : Reader Char := do
  let n ← hexQuad
  if 0xdc00 ≤ n ∧ n ≤ 0xdfff then fail .loneSurrogate 0
  else if n < 0xd800 ∨ 0xdbff < n then pure (Char.ofNat n)
  else
    expectAfterSurrogate '\\'
    expectAfterSurrogate 'u'
    let m ← hexQuad
    if m < 0xdc00 ∨ 0xdfff < m then fail .loneSurrogate 0
    else pure (Char.ofNat ((n - 0xd800) * 1024 + (m - 0xdc00) + 0x10000))

def simpleEscape? (c : Char) : Option Char :=
  if c = '"' ∨ c = '\\' ∨ c = '/' then some c
  else if c = 'b' then some '\x08'
  else if c = 'f' then some '\x0c'
  else if c = 'n' then some '\n'
  else if c = 'r' then some '\r'
  else if c = 't' then some '\t'
  else none

def escaped : Reader Char := do
  match ← next? with
  | none => fail .endInText 0
  | some c =>
    match simpleEscape? c with
    | some d => advance *> pure d
    | none => if c = 'u' then advance *> unicodeEscape else fail .badEscape 1

def untilQuote : Nat → List Char → Reader String
  | 0, _ => fail .endInText 0
  | fuel + 1, done => do
    match ← next? with
    | none => fail .endInText 0
    | some c =>
      if c = '"' then advance *> pure (String.ofList done.reverse)
      else if c = '\\' then do
        advance
        let d ← escaped
        untilQuote fuel (d :: done)
      else if c.toNat < 0x20 then fail .rawControl 1
      else advance *> untilQuote fuel (c :: done)

def quotedText : Reader String := do
  let rest ← get
  untilQuote (rest.length + 1) []

/-! ## Lists and objects -/

/-- Whether another item of a list follows; the comma before it is taken. -/
def anotherItem (first : Bool) : Reader Bool := do
  match ← peek with
  | none => fail .endInList 1
  | some ']' => pure false
  | some c =>
    if first then pure true
    else if c = ',' then do
      advance
      match ← peek with
      | none => fail .endInValue 1
      | some ']' => fail .trailingComma 1
      | some _ => pure true
    else fail .missingListEnd 1

def anotherMember (first : Bool) : Reader Bool := do
  let key : Option Char → Reader Bool
    | none => fail .endInValue 1
    | some '"' => pure true
    | some '\x7d' => fail .trailingComma 1
    | some _ => fail .keyNotText 1
  match ← peek with
  | none => fail .endInObject 1
  | some '\x7d' => pure false
  | some c =>
    if first then key (some c)
    else if c = ',' then do
      advance
      key (← peek)
    else fail .missingObjectEnd 1

def memberName : Reader String := advance *> quotedText

def colon : Reader Unit := do
  match ← peek with
  | none => fail .endInObject 1
  | some ':' => advance
  | some _ => fail .missingColon 1

/-- The items of a list up to its end, which is not taken. -/
def items (item : Reader α) : Nat → Bool → Reader (List α)
  | 0, _ => fail .endInList 0
  | fuel + 1, first => do
    if ← anotherItem first then
      let a ← item
      let as ← items item fuel false
      pure (a :: as)
    else pure []

/-- Folds the members of an object up to its end, which is not taken. -/
def members (member : String → β → Reader β) : Nat → Bool → β → Reader β
  | 0, _, _ => fail .endInObject 0
  | fuel + 1, first, b => do
    if ← anotherMember first then
      let name ← memberName
      let b ← member name b
      members member fuel false b
    else pure b

def endOfList : Reader Unit := do
  match ← peek with
  | none => fail .endInList 1
  | some ']' => advance
  | some ',' => do
    advance
    match ← peek with
    | some ']' => fail .trailingComma 1
    | _ => fail .trailingCharacters 1
  | some _ => fail .trailingCharacters 1

def endOfObject : Reader Unit := do
  match ← peek with
  | none => fail .endInObject 1
  | some '\x7d' => advance
  | some ',' => fail .trailingComma 1
  | some _ => fail .trailingCharacters 1

/-- Where a fault without a place comes to lie when the reader stands at `rest`. -/
def settle (rest : List Char) (f : Fault) : Fault :=
  match f.ahead with
  | some _ => f
  | none => ⟨f.cause, rest, some 0⟩

def settled (r : Reader α) : Reader α := fun rest =>
  match r rest with
  | .ok a => .ok a
  | .error f => .error (settle f.rest f)

/-- What the end of a list or an object takes even if what is inside was refused. -/
def leave (close : Char) (rest : List Char) : List Char :=
  match rest.dropWhile isSpace with
  | [] => []
  | c :: r =>
    if c = close then r
    else if close = ']' ∧ c = ',' then r.dropWhile isSpace
    else c :: r

/-- The inside of a list or an object and its end. A fault without a place inside gets the place
behind the end. -/
def enclosed (close : Char) (finish : Reader Unit) (inside : Reader α) : Reader α := fun rest =>
  match inside rest with
  | .error f => .error (settle (leave close f.rest) f)
  | .ok (a, rest) =>
    match finish rest with
    | .error f => .error f
    | .ok (_, rest) => .ok (a, rest)

def bracketed (inside : Reader α) : Reader α := advance *> enclosed ']' endOfList inside

def braced (inside : Reader α) : Reader α := advance *> enclosed '\x7d' endOfObject inside

def fueled (r : Nat → Reader α) : Reader α := do
  let rest ← get
  r (rest.length + 1)

/-! ## Values -/

/-- One value, whose items and members are read by `inner`; without it nothing may be nested. -/
def valueOver (inner : Option (Reader Json)) : Reader Json := do
  match ← peek with
  | none => fail .endInValue 1
  | some 'n' => advance *> word ['u', 'l', 'l'] *> pure .null
  | some 't' => advance *> word ['r', 'u', 'e'] *> pure (.bool true)
  | some 'f' => advance *> word ['a', 'l', 's', 'e'] *> pure (.bool false)
  | some '"' => advance *> (.str <$> quotedText)
  | some '-' => advance *> (.num <$> number true)
  | some '[' =>
    match inner with
    | none => fail .tooDeep 1
    | some item => .arr <$> bracketed (fueled fun fuel => items item fuel true)
  | some '\x7b' =>
    match inner with
    | none => fail .tooDeep 1
    | some item =>
      let member (name : String) (ms : Keyed Json) : Reader (Keyed Json) := do
        colon
        let v ← item
        pure (ms.insert name v)
      .obj <$> braced (fueled fun fuel => members member fuel true [])
  | some c => if c.isDigit then .num <$> number false else fail .noValue 1

def value : Nat → Reader Json
  | 0 => valueOver none
  | depth + 1 => valueOver (some (value depth))

def depthLimit : Nat := 127

def atEnd : Reader Unit := do
  match ← peek with
  | none => pure ()
  | some _ => fail .trailingCharacters 1

def run (r : Reader α) (text : List Char) : Except Fault α :=
  match r text with
  | .error f => .error f
  | .ok (a, rest) =>
    match atEnd rest with
    | .error f => .error f
    | .ok _ => .ok a

end Reader

def read (text : String) : Except Fault Json := Reader.run (Reader.value Reader.depthLimit) text.toList

end Json
end TopicLoad
