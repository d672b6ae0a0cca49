import TopicLoad.Text.Digits
import TopicLoad.Yaml.Cursor

/-! Scalars as they are written: plain, between quotes, or as a block. Each reader starts at the first
character and gives the text that is meant and the place behind it. -/
namespace TopicLoad
namespace Yaml

inductive Style where
  | plain
  | singleQuoted
  | doubleQuoted
  | literal
  | folded
deriving DecidableEq, Repr

/-- Blanks and line breaks between two words of a scalar. -/
structure Gap where
  blanks : List Char := []
  firstBreak : List Char := []
  moreBreaks : List Char := []
  broken : Bool := false
deriving Repr

namespace Gap

/-- What a gap becomes: a single line break becomes a space, of several the first is dropped. -/
def folded (g : Gap) : List Char :=
  if g.broken then
    if g.firstBreak.head? = some '\n' then
      if g.moreBreaks.isEmpty then [' '] else g.moreBreaks
    else g.firstBreak ++ g.moreBreaks
  else g.blanks

/-- Takes a gap. After a line break no tab may stand before column `indent`. -/
def take (indent : Nat) : Nat → Gap → Cursor → Option (Gap × Cursor)
  | 0, g, c => some (g, c)
  | fuel + 1, g, c =>
    match c.head? with
    | none => some (g, c)
    | some b =>
      if isBlank b then
        if g.broken ∧ c.mark.column < indent ∧ b = '\t' then none
        else take indent fuel (if g.broken then g else { g with blanks := g.blanks ++ [b] }) (c.skip 1)
      else if isBreak b then
        let g' := if g.broken then { g with moreBreaks := g.moreBreaks ++ c.lineBreak }
          else { g with blanks := [], firstBreak := c.lineBreak, broken := true }
        take indent fuel g' c.skipBreak
      else some (g, c)

end Gap

namespace Written

/-! ## Quoted scalars -/

def escape? (c : Char) : Option Char :=
  match c with
  | '0' => some (Char.ofNat 0)
  | 'a' => some (Char.ofNat 7)
  | 'b' => some (Char.ofNat 8)
  | 't' | '\t' => some '\t'
  | 'n' => some '\n'
  | 'v' => some (Char.ofNat 11)
  | 'f' => some (Char.ofNat 12)
  | 'r' => some '\r'
  | 'e' => some (Char.ofNat 27)
  | ' ' => some ' '
  | '"' => some '"'
  | '/' => some '/'
  | '\\' => some '\\'
  | 'N' => some (Char.ofNat 0x85)
  | '_' => some (Char.ofNat 0xa0)
  | 'L' => some (Char.ofNat 0x2028)
  | 'P' => some (Char.ofNat 0x2029)
  | _ => none

def codeLength? (c : Char) : Option Nat :=
  match c with
  | 'x' => some 2
  | 'u' => some 4
  | 'U' => some 8
  | _ => none

def escaped (rest : List Char) : Option (Char × Nat) :=
  match rest with
  | [] => none
  | c :: cs =>
    match escape? c with
    | some d => some (d, 1)
    | none => do
      let n ← codeLength? c
      let ds := cs.take n
      if ds.length < n then none
      else
        let code ← Text.number? 16 ds
        if (0xd800 ≤ code ∧ code ≤ 0xdfff) ∨ 0x10ffff < code then none
        else some (Char.ofNat code, n + 1)

/-- The characters up to a blank, a line break or the closing quote, in reverse, in front of `done`;
also whether an escaped line break ended them. -/
def quotedWord (single : Bool) : Nat → List Char → Cursor → Option (List Char × Cursor × Bool)
  | 0, _, _ => none
  | fuel + 1, done, c =>
    match c.rest with
    | [] => some (done, c, false)
    | b :: cs =>
      if isBlank b ∨ isBreak b then some (done, c, false)
      else if single then
        if b = '\'' then
          if cs.head? = some '\'' then quotedWord single fuel ('\'' :: done) (c.skip 2)
          else some (done, c, false)
        else quotedWord single fuel (b :: done) (c.skip 1)
      else if b = '"' then some (done, c, false)
      else if b = '\\' then
        if (cs.head?.map isBreak).getD false then some (done, (c.skip 1).skipBreak, true)
        else do
          let (d, n) ← escaped cs
          quotedWord single fuel (d :: done) (c.skip (n + 1))
      else quotedWord single fuel (b :: done) (c.skip 1)

def quotedRest (single : Bool) : Nat → List Char → Cursor → Option (String × Cursor)
  | 0, _, _ => none
  | fuel + 1, done, c =>
    if c.atDocumentEdge ∨ c.rest = [] then none
    else do
      let (done, c, broken) ← quotedWord single (c.rest.length + 1) done c
      if ¬ broken ∧ c.head? = some (if single then '\'' else '"') then
        some (String.ofList done.reverse, c.skip 1)
      else
        let (gap, c) ← Gap.take 0 (c.rest.length + 1) { broken := broken } c
        quotedRest single fuel (gap.folded.reverse ++ done) c

def quoted (single : Bool) (c : Cursor) : Option (String × Cursor) :=
  quotedRest single (c.rest.length + 1) [] (c.skip 1)

/-! ## Plain scalars -/

def isFlowSign (c : Char) : Bool :=
  c = ',' || c = '[' || c = ']' || c = '\x7b' || c = '\x7d'

def plainWord (inFlow : Bool) : Nat → List Char → Cursor → Option (List Char × Cursor)
  | 0, _, _ => none
  | fuel + 1, done, c =>
    match c.rest with
    | [] => some (done, c)
    | b :: cs =>
      if isBlank b ∨ isBreak b then some (done, c)
      else if inFlow ∧ b = ':' ∧ (cs.head?.map fun d => isFlowSign d || d = '?').getD false then none
      else if (b = ':' ∧ endsWord cs.head?) ∨ (inFlow ∧ isFlowSign b) then some (done, c)
      else plainWord inFlow fuel (b :: done) (c.skip 1)

/-- Words of a plain scalar, in reverse, in front of `done`; `gap` is what stands before the next one. -/
def plainRest (inFlow : Bool) (indent : Nat) :
    Nat → List Char → Gap → Cursor → Option (List Char × Gap × Cursor)
  | 0, _, _, _ => none
  | fuel + 1, done, gap, c =>
    if c.atDocumentEdge ∨ c.head? = some '#' then some (done, gap, c)
    else do
      let (word, c) ← plainWord inFlow (c.rest.length + 1) [] c
      let (done, gap) := if word.isEmpty then (done, gap) else (word ++ gap.folded.reverse ++ done, {})
      if ¬ (c.atBlank ∨ c.atBreak) then some (done, gap, c)
      else
        let (gap, c) ← Gap.take indent (c.rest.length + 1) {} c
        if ¬ inFlow ∧ c.mark.column < indent then some (done, gap, c)
        else plainRest inFlow indent fuel done gap c

/-- A plain scalar; also whether line breaks follow it directly. -/
def plain (inFlow : Bool) (indent : Nat) (c : Cursor) : Option (String × Bool × Cursor) := do
  let (done, gap, c) ← plainRest inFlow indent (c.rest.length + 1) [] {} c
  some (String.ofList done.reverse, gap.broken, c)

/-! ## Block scalars -/

inductive Chomping where
  | strip
  | clip
  | keep
deriving DecidableEq, Repr

def chomping? (c : Cursor) : Option Chomping :=
  match c.head? with
  | some '-' => some .strip
  | some '+' => some .keep
  | _ => none

def increment? (c : Cursor) : Option (Option Nat) :=
  match c.head? with
  | some d => if d.isDigit then (if d = '0' then none else some (some (d.toNat - 48))) else some none
  | none => some none

def header (c : Cursor) : Option (Chomping × Option Nat × Cursor) :=
  match chomping? c with
  | some chomping => do
    let c := c.skip 1
    let n ← increment? c
    some (chomping, n, if n.isSome then c.skip 1 else c)
  | none => do
    let n ← increment? c
    let c := if n.isSome then c.skip 1 else c
    match chomping? c with
    | some chomping => if n.isSome then some (chomping, n, c.skip 1) else some (.clip, n, c)
    | none => some (.clip, n, c)

/-- Indentation and empty lines. Without a given indentation the deepest column reached counts. -/
def emptyLines (indent : Option Nat) : Nat → Nat → List Char → Cursor → Option (Nat × List Char × Cursor)
  | 0, _, _, _ => none
  | fuel + 1, deepest, breaks, c =>
    let spaces := (c.takeWhile (· = ' ')).length
    let c : Cursor := match indent with
      | none => c.skip spaces
      | some n => c.skip (min spaces (n - c.mark.column))
    let deepest : Nat := max deepest c.mark.column
    let shallow : Bool := match indent with
      | none => true
      | some n => decide (c.mark.column < n)
    if shallow ∧ c.head? = some '\t' then none
    else if c.atBreak then emptyLines indent fuel deepest (breaks ++ c.lineBreak) c.skipBreak
    else some (deepest, breaks, c)

/-- The lines of a block that is indented by `indent`, in reverse, in front of `done`, then the line
break behind them and the empty lines at the end. -/
def blockLines (literal : Bool) (indent : Nat) :
    Nat → List Char → List Char → List Char → Bool → Cursor →
      Option (List Char × List Char × List Char × Cursor)
  | 0, _, _, _, _, _ => none
  | fuel + 1, done, lead, trail, leadBlank, c =>
    if c.mark.column ≠ indent ∨ c.rest = [] then some (done, lead, trail, c)
    else do
      let blank := c.atBlank
      let joint :=
        if ¬ literal ∧ lead.head? = some '\n' ∧ ¬ leadBlank ∧ ¬ blank then
          if trail.isEmpty then [' '] else []
        else lead
      let line := c.takeWhile fun b => !isBreak b
      let done := line.reverse ++ (joint ++ trail).reverse ++ done
      let c := c.skip line.length
      let lead := c.lineBreak
      let c := if c.atBreak then c.skipBreak else c
      let (_, trail, c) ← emptyLines (some indent) (c.rest.length + 1) 0 [] c
      blockLines literal indent fuel done lead trail blank c

/-- A block scalar inside a block that is indented by `parent`, or by nothing. -/
def block (literal : Bool) (parent : Option Nat) (c : Cursor) : Option (String × Cursor) := do
  let (chomping, increment, c) ← header (c.skip 1)
  let c := c.skipWhile isBlank
  let c := if c.head? = some '#' then c.skipWhile fun b => !isBreak b else c
  if ¬ endsLine c.head? then none
  else
    let c := if c.atBreak then c.skipBreak else c
    let given := increment.map fun n => parent.getD 0 + n
    let (deepest, trail, c) ← emptyLines given (c.rest.length + 1) 0 [] c
    let least := max 1 ((parent.map (· + 1)).getD 0)
    let indent := given.getD (max deepest least)
    let (done, lead, trail, c) ← blockLines literal indent (c.rest.length + 1) [] [] trail false c
    let tail := match chomping with
      | .strip => []
      | .clip => lead
      | .keep => lead ++ trail
    some (String.ofList (done.reverse ++ tail), c)

end Written
end Yaml
end TopicLoad
