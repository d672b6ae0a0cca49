import TopicLoad.Json.Basic
import TopicLoad.Mismatch

/-! What goes wrong when JSON text is read, and where. -/
namespace TopicLoad
namespace Json

inductive Cause where
  | endInList
  | endInObject
  | endInText
  | endInValue
  | missingColon
  | missingListEnd
  | missingObjectEnd
  | badWord
  | noValue
  | badEscape
  | badNumber
  | hugeNumber
  | rawControl
  | keyNotText
  | loneSurrogate
  | trailingComma
  | trailingCharacters
  | cutSurrogate
  | tooDeep
  | mismatch (m : Mismatch)
deriving DecidableEq, Repr

def wording : Wording := ⟨"null", Double.jsonText⟩

def Cause.message : Cause → String
  | .endInList => "EOF while parsing a list"
  | .endInObject => "EOF while parsing an object"
  | .endInText => "EOF while parsing a string"
  | .endInValue => "EOF while parsing a value"
  | .missingColon => "expected `:`"
  | .missingListEnd => "expected `,` or `]`"
  | .missingObjectEnd => "expected `,` or `\x7d`"
  | .badWord => "expected ident"
  | .noValue => "expected value"
  | .badEscape => "invalid escape"
  | .badNumber => "invalid number"
  | .hugeNumber => "number out of range"
  | .rawControl => "control character (\\u0000-\\u001F) found while parsing a string"
  | .keyNotText => "key must be a string"
  | .loneSurrogate => "lone leading surrogate in hex escape"
  | .trailingComma => "trailing comma"
  | .trailingCharacters => "trailing characters"
  | .cutSurrogate => "unexpected end of hex escape"
  | .tooDeep => "recursion limit exceeded"
  | .mismatch m => m.message wording

/-- A cause, the text that was still to be read, and how many bytes of it the place of the fault lies
further on. A mismatch has no place before the value around it is left. -/
structure Fault where
  cause : Cause
  rest : List Char
  ahead : Option Nat
deriving DecidableEq, Repr

def byteSize (cs : List Char) : Nat := cs.foldr (fun c n => c.utf8Size + n) 0

def firstBytes : Nat → List Char → List Char
  | _, [] => []
  | n, c :: cs => if c.utf8Size ≤ n then c :: firstBytes (n - c.utf8Size) cs else []

/-- Line and column of the byte `offset`: lines count from one, and the column is the number of bytes
since the last line break. -/
def place (text : List Char) (offset : Nat) : Nat × Nat :=
  let before := firstBytes offset text
  let line := before.reverse.takeWhile (· ≠ '\n')
  let lines := before.count '\n'
  let full := byteSize before - byteSize line
  (lines + 1, offset - full)

def Fault.place (f : Fault) (text : List Char) : Option (Nat × Nat) :=
  f.ahead.map fun n =>
    Json.place text (min (byteSize text) (byteSize text - byteSize f.rest + n))

/-- A place told at the end of a reason, ` at line L column C`, is taken as the place of the fault. -/
def toldPlace (reason : List Char) : Option (List Char × Nat × Nat) :=
  let fits (n : Nat) : Bool := decide (n < Limits.bits64)
  let digits := reason.reverse.takeWhile Char.isDigit
  let rest := reason.reverse.dropWhile Char.isDigit
  let mark := " column ".toList.reverse
  if digits.isEmpty ∨ ¬ mark.isPrefixOf rest then none
  else
    let rest := rest.drop mark.length
    let digits' := rest.takeWhile Char.isDigit
    let rest := rest.dropWhile Char.isDigit
    let mark := " at line ".toList.reverse
    let line := Decimal.value digits'.reverse
    let column := Decimal.value digits.reverse
    if digits'.isEmpty ∨ ¬ mark.isPrefixOf rest ∨ ¬ fits line ∨ ¬ fits column then none
    else some ((rest.drop mark.length).reverse, line, column)

def placed (reason : String) (line column : Nat) : String :=
  if line = 0 then reason else s!"{reason} at line {line} column {column}"

def Fault.message (f : Fault) (text : List Char) : String :=
  match toldPlace f.cause.message.toList, f.place text with
  | some (reason, line, column), place =>
    let (line, column) := if line = 0 then place.getD (0, 0) else (line, column)
    placed (String.ofList reason) line column
  | none, some (line, column) => placed f.cause.message line column
  | none, none => f.cause.message

end Json
end TopicLoad
