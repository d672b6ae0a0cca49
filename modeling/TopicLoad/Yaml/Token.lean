import TopicLoad.Yaml.Written

/-! The tokens of a YAML text. Indentation and keys without a sign of their own become tokens as well:
where a block begins and ends, and in front of every such key. -/
namespace TopicLoad
namespace Yaml

inductive Kind where
  | streamEnd
  | version (major minor : Nat)
  | tagDirective (handle expansion : String)
  | documentStart
  | documentEnd
  | blockListStart
  | blockMapStart
  | blockEnd
  | flowListStart
  | flowListEnd
  | flowMapStart
  | flowMapEnd
  | blockEntry
  | flowEntry
  | key
  | value
  | reference (name : String)
  | anchor (name : String)
  | tag (handle suffix : String)
  | scalar (text : String) (style : Style)
deriving DecidableEq, Repr

structure Token where
  kind : Kind
  start : Mark
  stop : Mark
deriving Repr

/-- A place where a key without a sign may have begun; `number` counts the tokens before it. -/
structure Candidate where
  required : Bool
  number : Nat
  mark : Mark
deriving Repr

structure Scanner where
  cursor : Cursor
  tokens : Array Token := #[]
  /-- The column of the block around, none outside of all blocks, and those of the blocks around it. -/
  indent : Option Nat := none
  outer : List (Option Nat) := []
  /-- A candidate for each flow collection that is open, the innermost first, and one for the block. -/
  candidates : List (Option Candidate) := [none]
  keyAllowed : Bool := true
deriving Repr

namespace Scanner

variable (s : Scanner)

def inFlow : Bool := 1 < s.candidates.length

def mark : Mark := s.cursor.mark

def push (kind : Kind) (start stop : Mark) : Scanner :=
  { s with tokens := s.tokens.push ⟨kind, start, stop⟩ }

def sign (kind : Kind) (length : Nat) : Scanner :=
  let c := s.cursor.skip length
  { s.push kind s.mark c.mark with cursor := c }

/-- Forgets the innermost candidate; a required one must not be left without its value. -/
def forget : Option Scanner :=
  match s.candidates with
  | some c :: cs => if c.required then none else some { s with candidates := none :: cs }
  | _ => some s

def remember : Option Scanner :=
  if ¬ s.keyAllowed then some s
  else do
    let required := !s.inFlow && s.indent == some s.mark.column
    let s ← s.forget
    some { s with candidates := some ⟨required, s.tokens.size, s.mark⟩ :: s.candidates.drop 1 }

/-- A key has to end on its line and within 1024 characters. -/
def Candidate.isStale (here : Mark) (c : Candidate) : Bool :=
  c.mark.line < here.line || c.mark.index + 1024 < here.index

def dropStale : Option Scanner := do
  let candidates ← s.candidates.mapM fun
    | some c =>
      if Candidate.isStale s.mark c then if c.required then none else some none else some (some c)
    | none => some none
  some { s with candidates := candidates }

def isDeeper (column : Nat) : Bool :=
  match s.indent with
  | none => true
  | some n => n < column

/-- Begins a block at a column if it is a deeper one; its token goes in front of token `number`. -/
def open_ (column number : Nat) (kind : Kind) (mark : Mark) : Scanner :=
  if s.inFlow ∨ ¬ s.isDeeper column then s
  else
    { s with
      outer := s.indent :: s.outer
      indent := some column
      tokens := s.tokens.insertIdx! number ⟨kind, mark, mark⟩ }

/-- Ends blocks that are indented more than `column`, all of them if there is none. -/
def close (column : Option Nat) : Scanner :=
  if s.inFlow then s else go s.outer.length s
where
  go : Nat → Scanner → Scanner
    | 0, s => s
    | n + 1, s =>
      let deeper := match s.indent, column with
        | none, _ => false
        | some _, none => true
        | some i, some c => c < i
      if deeper then
        go n { s.push .blockEnd s.mark s.mark with indent := s.outer.headD none, outer := s.outer.drop 1 }
      else s

def toNext : Nat → Scanner → Scanner
  | 0, s => s
  | fuel + 1, s =>
    let tabs := s.inFlow || !s.keyAllowed
    let c := s.cursor.skipWhile fun b => b = ' ' || (tabs && b = '\t')
    let c := if c.head? = some '#' then c.skipWhile fun b => !isBreak b else c
    if c.atBreak then
      toNext fuel { s with cursor := c.skipBreak, keyAllowed := s.keyAllowed || !s.inFlow }
    else { s with cursor := c }

/-! ## Directives, names and tags -/

def readName (c : Cursor) : String × Cursor :=
  (String.ofList (c.takeWhile isNameChar), c.skipWhile isNameChar)

def readNumber (c : Cursor) : Option (Nat × Cursor) :=
  let ds := c.takeWhile Char.isDigit
  if ds = [] ∨ 9 < ds.length then none
  else some (ds.foldl (fun n d => n * 10 + (d.toNat - 48)) 0, c.skip ds.length)

def uriBytes : Nat → List Char → Option (List Nat × List Char)
  | 0, cs => some ([], cs)
  | n + 1, '%' :: a :: b :: cs => do
    let byte ← Text.number? 16 [a, b]
    let (bytes, cs) ← uriBytes n cs
    if byte / 64 = 2 then some (byte % 64 :: bytes, cs) else none
  | _, _ => none

/-- A character whose bytes are written as escapes, and how many there are. -/
def uriEscape? : List Char → Option (Char × Nat)
  | '%' :: a :: b :: cs => do
    let byte ← Text.number? 16 [a, b]
    let (more, top) ←
      if byte < 0x80 then some (0, byte)
      else if byte / 32 = 6 then some (1, byte % 32)
      else if byte / 16 = 14 then some (2, byte % 16)
      else if byte / 8 = 30 then some (3, byte % 8)
      else none
    let (bytes, _) ← uriBytes more cs
    some (Char.ofNat (bytes.foldl (fun n b => n * 64 + b) top), 3 * (more + 1))
  | _ => none

def isUriChar (verbatim : Bool) (c : Char) : Bool :=
  isNameChar c || ";/?:@&=+$.!~*'()".toList.contains c ||
    (verbatim && (c = ',' || c = '[' || c = ']'))

/-- The rest of a tag, in reverse, in front of `done`. -/
def readUri (verbatim : Bool) : Nat → List Char → Cursor → Option (List Char × Cursor)
  | 0, _, _ => none
  | fuel + 1, done, c =>
    match c.head? with
    | some '%' => do
      let (d, n) ← uriEscape? c.rest
      readUri verbatim fuel (d :: done) (c.skip n)
    | some b => if isUriChar verbatim b then readUri verbatim fuel (b :: done) (c.skip 1) else some (done, c)
    | none => some (done, c)

def uri (verbatim : Bool) (c : Cursor) : Option (String × Cursor) := do
  let (done, c) ← readUri verbatim (c.rest.length + 1) [] c
  some (String.ofList done.reverse, c)

/-- `!`, `!!` or `!name!`; only the first part of a name may be there. -/
def tagHandle (c : Cursor) : Option (String × Cursor) :=
  if c.head? ≠ some '!' then none
  else
    let (name, c) := readName (c.skip 1)
    if c.head? = some '!' then some ("!" ++ name ++ "!", c.skip 1) else some ("!" ++ name, c)

def readTag (c : Cursor) : Option (String × String × Cursor) :=
  if c.at? 1 = some '<' then do
    let (suffix, c) ← uri true (c.skip 2)
    if suffix = "" ∨ c.head? ≠ some '>' then none else some ("", suffix, c.skip 1)
  else do
    let (handle, c) ← tagHandle c
    let (suffix, c) ← uri false c
    if handle.length ≥ 2 ∧ handle.toList.getLast? = some '!' then
      if suffix = "" then none else some (handle, suffix, c)
    else
      let suffix := String.ofList (handle.toList.drop 1) ++ suffix
      if suffix = "" then some ("", "!", c) else some ("!", suffix, c)

def directive (c : Cursor) : Option (Kind × Cursor) := do
  let (name, c) := readName (c.skip 1)
  if name = "" ∨ ¬ endsWord c.head? then none
  else
    let c := c.skipWhile isBlank
    let (kind, c) ←
      if name = "YAML" then do
        let (major, c) ← readNumber c
        if c.head? ≠ some '.' then none
        else
          let (minor, c) ← readNumber (c.skip 1)
          some (Kind.version major minor, c)
      else if name = "TAG" then do
        let (handle, c) ← tagHandle c
        if handle ≠ "!" ∧ (handle.length < 2 ∨ handle.toList.getLast? ≠ some '!') then none
        else if ¬ (c.head?.map isBlank).getD false then none
        else
          let (expansion, c) ← uri true (c.skipWhile isBlank)
          if expansion = "" ∨ ¬ endsWord c.head? then none else some (Kind.tagDirective handle expansion, c)
      else none
    let c := c.skipWhile isBlank
    let c := if c.head? = some '#' then c.skipWhile fun b => !isBreak b else c
    if ¬ endsLine c.head? then none
    else some (kind, if c.atBreak then c.skipBreak else c)

/-! ## Tokens -/

def read (kind : Kind) (c : Cursor) : Scanner := { s.push kind s.mark c.mark with cursor := c }

def fetchEdge (kind : Kind) : Option Scanner := do
  let s ← (s.close none).forget
  some ({ s with keyAllowed := false }.sign kind 3)

def fetchDirective : Option Scanner := do
  let s ← (s.close none).forget
  let (kind, c) ← directive s.cursor
  some ({ s with keyAllowed := false }.read kind c)

def fetchFlowStart (kind : Kind) : Option Scanner := do
  let s ← s.remember
  some ({ s with candidates := none :: s.candidates, keyAllowed := true }.sign kind 1)

def fetchFlowEnd (kind : Kind) : Option Scanner := do
  let s ← s.forget
  let candidates := if s.inFlow then s.candidates.drop 1 else s.candidates
  some ({ s with candidates := candidates, keyAllowed := false }.sign kind 1)

def fetchFlowEntry : Option Scanner := do
  let s ← s.forget
  some ({ s with keyAllowed := true }.sign .flowEntry 1)

def fetchBlockEntry : Option Scanner := do
  if ¬ s.inFlow ∧ ¬ s.keyAllowed then none
  else
    let s ← (s.open_ s.mark.column s.tokens.size .blockListStart s.mark).forget
    some ({ s with keyAllowed := true }.sign .blockEntry 1)

def fetchKey : Option Scanner := do
  if ¬ s.inFlow ∧ ¬ s.keyAllowed then none
  else
    let s ← (s.open_ s.mark.column s.tokens.size .blockMapStart s.mark).forget
    some ({ s with keyAllowed := !s.inFlow }.sign .key 1)

/-- The sign of a value. A candidate before it becomes its key. -/
def fetchValue : Option Scanner :=
  match s.candidates with
  | some c :: cs =>
    let tokens := s.tokens.insertIdx! c.number ⟨.key, c.mark, c.mark⟩
    let s := { s with tokens := tokens, candidates := none :: cs, keyAllowed := false }
    some ((s.open_ c.mark.column c.number .blockMapStart c.mark).sign .value 1)
  | _ =>
    if ¬ s.inFlow ∧ ¬ s.keyAllowed then none
    else
      let s := s.open_ s.mark.column s.tokens.size .blockMapStart s.mark
      some ({ s with keyAllowed := !s.inFlow }.sign .value 1)

def fetchName (kind : String → Kind) : Option Scanner := do
  let s ← s.remember
  let (name, c) := readName (s.cursor.skip 1)
  let closed : Bool := match c.head? with
    | none => true
    | some b => isBlank b || isBreak b || "?:,]\x7d%@\x60".toList.contains b
  if name = "" ∨ ¬ closed then none else some ({ s with keyAllowed := false }.read (kind name) c)

def fetchTag : Option Scanner := do
  let s ← s.remember
  let (handle, suffix, c) ← readTag s.cursor
  if endsWord c.head? ∨ (s.inFlow ∧ c.head? = some ',') then
    some ({ s with keyAllowed := false }.read (.tag handle suffix) c)
  else none

def fetchBlock (literal : Bool) : Option Scanner := do
  let s ← s.forget
  let (text, c) ← Written.block literal s.indent s.cursor
  some ({ s with keyAllowed := true }.read (.scalar text (if literal then .literal else .folded)) c)

def fetchQuoted (single : Bool) : Option Scanner := do
  let s ← s.remember
  let (text, c) ← Written.quoted single s.cursor
  let style := if single then Style.singleQuoted else .doubleQuoted
  some ({ s with keyAllowed := false }.read (.scalar text style) c)

def fetchPlain : Option Scanner := do
  let s ← s.remember
  let (text, broken, c) ← Written.plain s.inFlow ((s.indent.map (· + 1)).getD 0) s.cursor
  some ({ s with keyAllowed := broken }.read (.scalar text .plain) c)

def fetchEnd : Option Scanner := do
  let m := s.mark
  let m : Mark := if m.column = 0 then m else { m with line := m.line + 1, column := 0 }
  let s ← ({ s with cursor := ⟨[], m⟩ }.close none).forget
  some ({ s with keyAllowed := false }.push .streamEnd s.mark s.mark)

def isSign (c : Char) : Bool := "-?:,[]\x7b\x7d#&*!|>'\"%@\x60".toList.contains c

def fetch (b : Char) : Option Scanner :=
  let next := s.cursor.at? 1
  let flow := s.inFlow
  if b = '%' ∧ s.mark.column = 0 then s.fetchDirective
  else if s.cursor.atIndicator '-' then s.fetchEdge .documentStart
  else if s.cursor.atIndicator '.' then s.fetchEdge .documentEnd
  else if b = '[' then s.fetchFlowStart .flowListStart
  else if b = '\x7b' then s.fetchFlowStart .flowMapStart
  else if b = ']' then s.fetchFlowEnd .flowListEnd
  else if b = '\x7d' then s.fetchFlowEnd .flowMapEnd
  else if b = ',' then s.fetchFlowEntry
  else if b = '-' ∧ endsWord next then s.fetchBlockEntry
  else if b = '?' ∧ (flow ∨ endsWord next) then s.fetchKey
  else if b = ':' ∧ (flow ∨ endsWord next) then s.fetchValue
  else if b = '*' then s.fetchName .reference
  else if b = '&' then s.fetchName .anchor
  else if b = '!' then s.fetchTag
  else if b = '|' ∧ ¬ flow then s.fetchBlock true
  else if b = '>' ∧ ¬ flow then s.fetchBlock false
  else if b = '\'' then s.fetchQuoted true
  else if b = '"' then s.fetchQuoted false
  else if ¬ (isBlank b ∨ isSign b) ∨ (b = '-' ∧ ¬ (next.map isBlank).getD false) ∨
      (¬ flow ∧ (b = '?' ∨ b = ':') ∧ ¬ endsWord next) then s.fetchPlain
  else none

def scan : Nat → Scanner → Option Scanner
  | 0, _ => none
  | fuel + 1, s => do
    let s := toNext (s.cursor.rest.length + 1) s
    let s ← s.dropStale
    let s := s.close (some s.mark.column)
    match s.cursor.head? with
    | none => s.fetchEnd
    | some b =>
      let s ← s.fetch b
      scan fuel s

end Scanner

/-- The tokens of a text, if it is made of tokens. A byte order mark in front does not count. -/
def tokens? (text : String) : Option (List Token) :=
  let cs := text.toList
  let cs := if cs.head? = some (Char.ofNat 0xfeff) then cs.drop 1 else cs
  if cs.all isAllowed then
    (Scanner.scan (cs.length + 1) { cursor := ⟨cs, {}⟩ }).map fun s => s.tokens.toList
  else none

end Yaml
end TopicLoad
