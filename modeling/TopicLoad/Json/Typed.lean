import TopicLoad.Json.Reading
import TopicLoad.Source

/-! Typed values from JSON text. The first thing that does not fit ends the reading; its place is
where the value around it is left. -/
namespace TopicLoad
namespace Json
namespace Reader

variable {α β : Type}

/-! ## Passing over a value

Nothing is kept and numbers are not looked at closely, so neither depth nor range has a limit. -/

/-- The brackets that are open around the place where the reader stands. -/
inductive Bracket where
  | list
  | object
deriving DecidableEq, Repr

def skipExponent : Reader Unit := do
  advance
  match ← next? with
  | some '+' | some '-' => advance
  | _ => pure ()
  if startsWithDigit (← get) then discard dropDigits else fail .badNumber 1

def skipFraction : Reader Unit := do
  match ← next? with
  | some 'e' | some 'E' => skipExponent
  | _ => pure ()

def skipNumber : Reader Unit := do
  match ← next? with
  | some '0' =>
    advance
    if startsWithDigit (← get) then fail .badNumber 1
  | _ => if startsWithDigit (← get) then discard dropDigits else fail .badNumber 1
  match ← next? with
  | some '.' =>
    advance
    if startsWithDigit (← get) then discard dropDigits *> skipFraction else fail .badNumber 1
  | _ => skipFraction

def skipText : Nat → Reader Unit
  | 0 => fail .endInText 0
  | fuel + 1 => do
    match ← next? with
    | none => fail .endInText 0
    | some '"' => advance
    | some '\\' => do
      advance
      match ← next? with
      | none => fail .endInText 0
      | some c =>
        if (simpleEscape? c).isSome then advance
        else if c = 'u' then advance *> discard hexQuad
        else fail .badEscape 1
      skipText fuel
    | some c => if c.toNat < 0x20 then fail .rawControl 0 else advance *> skipText fuel

def skipName (fuel : Nat) : Reader Unit := do
  match ← peek with
  | some '"' => advance *> skipText fuel
  | some _ => fail .keyNotText 1
  | none => fail .endInObject 1
  colon

def Bracket.end : Bracket → Cause
  | .list => .endInList
  | .object => .endInObject

def Bracket.missing : Bracket → Cause
  | .list => .missingListEnd
  | .object => .missingObjectEnd

def Bracket.closes : Bracket → Char → Bool
  | .list, c => c = ']'
  | .object, c => c = '\x7d'

mutual

def skipValue : Nat → List Bracket → Reader Unit
  | 0, _ => fail .endInValue 0
  | fuel + 1, open_ => do
    match ← peek with
    | none => fail .endInValue 1
    | some 'n' => advance *> word ['u', 'l', 'l'] *> skipRest fuel true open_
    | some 't' => advance *> word ['r', 'u', 'e'] *> skipRest fuel true open_
    | some 'f' => advance *> word ['a', 'l', 's', 'e'] *> skipRest fuel true open_
    | some '"' => advance *> skipText fuel *> skipRest fuel true open_
    | some '-' => advance *> skipNumber *> skipRest fuel true open_
    | some '[' => advance *> skipRest fuel false (.list :: open_)
    | some '\x7b' => advance *> skipRest fuel false (.object :: open_)
    | some c => if c.isDigit then skipNumber *> skipRest fuel true open_ else fail .noValue 1

/-- Goes on inside the innermost bracket; `after` says whether a value has just been passed. -/
def skipRest : Nat → Bool → List Bracket → Reader Unit
  | _, _, [] => pure ()
  | 0, _, _ => fail .endInValue 0
  | fuel + 1, after, b :: open_ => do
    let item : Reader Unit := do
      if b = .object then skipName fuel
      skipValue fuel (b :: open_)
    match ← peek with
    | none => fail b.end 1
    | some c =>
      if after ∧ c = ',' then advance *> item
      else if b.closes c then advance *> skipRest fuel true open_
      else if after then fail b.missing 1
      else item

end

def skip : Reader Unit := do
  let rest ← get
  skipValue (2 * rest.length + 2) []

/-! ## Typed readers -/

/-- Reads past a scalar of the wrong type and says what it is. A list or an object is left where it
is. -/
def wrongType (expected : String) : Reader α := settled do
  let found : Reader Found := do
    match ← next? with
    | some 'n' => advance *> word ['u', 'l', 'l'] *> pure .nothing
    | some 't' => advance *> word ['r', 'u', 'e'] *> pure (.flag true)
    | some 'f' => advance *> word ['a', 'l', 's', 'e'] *> pure (.flag false)
    | some '-' => advance *> numberFound <$> number true
    | some '"' => advance *> (.text <$> quotedText)
    | some '[' => pure .sequence
    | some '\x7b' => pure .map
    | some c => if c.isDigit then numberFound <$> number false else fail .noValue 1
    | none => fail .noValue 1
  mismatch (.invalidType (← found) expected)
where
  numberFound : Number → Found
    | .int n => .whole n
    | .float x => .decimal x

def head : Reader Char := do
  match ← peek with
  | none => fail .endInValue 1
  | some c => pure c

def typedText : Reader String := do
  if (← head) = '"' then advance *> quotedText else wrongType "a string"

def typedFlag : Reader Bool := do
  match ← head with
  | 't' => advance *> word ['r', 'u', 'e'] *> pure true
  | 'f' => advance *> word ['a', 'l', 's', 'e'] *> pure false
  | _ => wrongType "a boolean"

def typedNumber (expected : String) : Reader Number := do
  let c ← head
  if c = '-' then advance *> number true
  else if c.isDigit then number false
  else wrongType expected

def typedWhole : Reader Int := settled do
  match ← typedNumber "i64" with
  | .int n =>
    match Number.toInt64? (.int n) with
    | some n => pure n
    | none => mismatch (.invalidValue (.whole n) "i64")
  | .float x => mismatch (.invalidType (.decimal x) "i64")

def deeper (r : Nat → Reader α) : Nat → Reader α
  | 0 => fail .tooDeep 1
  | depth + 1 => r depth

def positional : List (Reader (α → α)) → Bool → α → Reader α
  | [], _, a => pure a
  | read :: fields, first, a => do
    if ← anotherItem first then
      let store ← read
      positional fields false (store a)
    else pure a

/-- A member of a record: stored if it is a field, passed over if it is none. -/
def storeMember (fields : List (String × Reader (α → α))) (name : String)
    (s : α × List String) : Reader (α × List String) := do
  match fields.lookup name with
  | none => colon *> skip *> pure s
  | some read =>
    if name ∈ s.2 then mismatch (.duplicateField name)
    else
      colon
      let store ← read
      pure (store s.1, name :: s.2)

end Reader

/-- Reads a typed value from JSON text, given how many levels deep it may go. -/
structure Typed (α : Type) where
  read : Nat → Reader α

namespace Typed

open Reader

variable {α β : Type}

def list (r : Typed α) (depth : Nat) : Reader (List α) := do
  if (← head) = '[' then
    deeper (fun depth => bracketed (fueled fun fuel => items (r.read depth) fuel true)) depth
  else wrongType "a sequence"

def table (r : Typed α) (depth : Nat) : Reader (Keyed α) := do
  if (← head) = '\x7b' then
    deeper (fun depth =>
      let member (name : String) (m : Keyed α) : Reader (Keyed α) := do
        colon
        let a ← r.read depth
        pure (m.insert name a)
      braced (fueled fun fuel => members member fuel true [])) depth
  else wrongType "a map"

def record (name : String) (start : α) (fields : List (String × Typed (α → α)))
    (depth : Nat) : Reader α := do
  match ← head with
  | '[' =>
    deeper (fun depth =>
      bracketed (positional (fields.map fun f => f.2.read depth) true start)) depth
  | '\x7b' =>
    deeper (fun depth =>
      let fields := fields.map fun f => (f.1, f.2.read depth)
      Prod.fst <$> braced (fueled fun fuel => members (storeMember fields) fuel true (start, []))) depth
  | _ => wrongType s!"struct {name}"

def optional (r : Typed α) (depth : Nat) : Reader (Option α) := do
  match ← peek with
  | some 'n' => advance *> word ['u', 'l', 'l'] *> pure none
  | _ => some <$> r.read depth

def checked (accept : α → Except Mismatch β) (r : Typed α) (depth : Nat) : Reader β := do
  match accept (← r.read depth) with
  | .ok b => pure b
  | .error m => mismatch m

instance : Source Typed where
  map f r := ⟨fun depth => f <$> r.read depth⟩
  text := ⟨fun _ => typedText⟩
  flag := ⟨fun _ => typedFlag⟩
  decimal := ⟨fun _ => Number.toFloat <$> typedNumber "f64"⟩
  whole := ⟨fun _ => typedWhole⟩
  any := ⟨value⟩
  checked accept r := ⟨checked accept r⟩
  optional r := ⟨optional r⟩
  list r := ⟨list r⟩
  table r := ⟨table r⟩
  record name start fields := ⟨record name start fields⟩

def run (r : Typed α) (text : String) : Except Fault α :=
  Reader.run (r.read depthLimit) text.toList

end Typed
end Json
end TopicLoad
