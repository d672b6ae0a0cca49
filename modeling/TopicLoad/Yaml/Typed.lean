import TopicLoad.Source
import TopicLoad.Yaml.General

/-! Typed values from YAML. The first thing that does not fit ends the reading; it is told with the path
to it and the place where the innermost node that was being read begins. -/
namespace TopicLoad
namespace Yaml

inductive Path where
  | root
  | item (parent : Path) (i : Nat)
  | member (parent : Path) (name : String)
  /-- Under a name that is no scalar. -/
  | unnamed (parent : Path)
deriving DecidableEq, Repr

namespace Path

def text : Path → String
  | root => "."
  | item parent i => s!"{parent.text}[{i}]"
  | member root name => name
  | member parent name => s!"{parent.text}.{name}"
  | unnamed root => "?"
  | unnamed parent => s!"{parent.text}.?"

end Path

inductive Fault where
  /-- No place is known before the node around is left. -/
  | mismatch (m : Mismatch) (place : Option (Path × Mark))
  /-- Too deep, or too many aliases. -/
  | unreadable
deriving Repr

def wording : Wording := ⟨"unit value", Double.pointedText⟩

/-- A mismatch with the path to it and its place, as far as they say anything. -/
def Fault.message : Fault → String
  | .unreadable => "document cannot be read"
  | .mismatch m none => m.message wording
  | .mismatch m (some (path, mark)) =>
    let front := match path with
      | .root => ""
      | path => path.text ++ ": "
    let back := if mark.line = 0 ∧ mark.column = 0 then ""
      else s!" at line {mark.line + 1} column {mark.column + 1}"
    front ++ m.message wording ++ back

abbrev Reader := StateT Nat (Except Fault)

/-- Reads a typed value from a node of a document, given how deep nodes may still be nested. -/
structure Typed (α : Type) where
  read : Document → Nat → Path → Node → Reader α
  /-- What an empty document reads as. -/
  absent : Except Fault α

namespace Typed

variable {α β : Type}

def refuse (m : Mismatch) : Reader α := throw (.mismatch m none)

def settle (path : Path) (mark : Mark) : Fault → Fault
  | .mismatch m none => .mismatch m (some (path, mark))
  | f => f

def placed (path : Path) (mark : Mark) (r : Reader α) : Reader α := fun left =>
  match r left with
  | .ok a => .ok a
  | .error f => .error (settle path mark f)

def found : Node → Except Mismatch Found
  | .list .. => .ok .sequence
  | .map .. => .ok .map
  | .reference .. => .ok .nothing
  | .scalar _ tag style s =>
    match Meaning.ofScalar tag style s with
    | .error expected => .error (.invalidValue (.text s) expected)
    | .ok .nothing => .ok .nothing
    | .ok (.flag b) => .ok (.flag b)
    | .ok (.whole n) => .ok (.whole n)
    | .ok (.huge n) => .ok (.whole n)
    | .ok (.decimal x) => .ok (.decimal x)
    | .ok (.text s) => .ok (.text s)

def wrongType (n : Node) (expected : String) : Reader α :=
  match found n with
  | .ok f => refuse (.invalidType f expected)
  | .error m => refuse m

def resolved (d : Document) (r : Node → Reader α) (n : Node) : Reader α := do
  match n with
  | .reference _ anchor =>
    match ← get, d.find? anchor with
    | left + 1, some n => set left *> r n
    | _, _ => throw .unreadable
  | n => r n

/-- Follows an alias and gives faults without a place the place of the node. -/
def atNode (d : Document) (path : Path) (r : Node → Reader α) : Node → Reader α :=
  resolved d fun n => placed path n.mark (r n)

def deeper (r : Nat → Reader α) : Nat → Reader α
  | 0 => throw .unreadable
  | depth + 1 => r depth

/-- A plain scalar, or a literal one with the tag that is asked for. -/
def asks (core : String) (tag : Option String) (style : Style) : Bool :=
  style = .plain || (style = .literal && tag = some (Meaning.coreTag core))

def isBare : Node → Bool
  | .scalar _ _ style s => style = .plain && s = ""
  | _ => false

def textOf (expected : String) : Node → Reader String
  | .scalar _ _ _ s => pure s
  | n => wrongType n expected

def text (expected : String) (d : Document) (path : Path) : Node → Reader String :=
  atNode d path (textOf expected)

def flagOf (n : Node) : Reader Bool :=
  match n with
  | .scalar _ tag style s =>
    match if asks "bool" tag style then Meaning.flag? s else none with
    | some b => pure b
    | none => wrongType n "a boolean"
  | n => wrongType n "a boolean"

def decimalOf (n : Node) : Reader Float :=
  match n with
  | .scalar _ tag style s =>
    match if asks "float" tag style then Meaning.decimal? s else none with
    | some x => pure x
    | none => wrongType n "f64"
  | n => wrongType n "f64"

def wholeOf (n : Node) : Reader Int :=
  match n with
  | .scalar _ tag style s =>
    match if asks "int" tag style then Meaning.whole? s.toList else none with
    | some k =>
      if -(Limits.bits63 : Int) ≤ k ∧ k < (Limits.bits63 : Int) then pure k
      else wrongType n "i64"
    | none => wrongType n "i64"
  | n => wrongType n "i64"

def below (path : Path) : Node → Path
  | .scalar _ _ _ s => .member path s
  | _ => .unnamed path

def itemsFrom (read : Path → Node → Reader α) (path : Path) : Nat → List Node → Reader (List α)
  | _, [] => pure []
  | i, n :: ns => do
    let a ← read (.item path i) n
    let as ← itemsFrom read path (i + 1) ns
    pure (a :: as)

/-- The entries of a map whose names are texts; of equal names the last one counts. -/
def namedFrom (d : Document) (read : Path → Node → Reader α) (path : Path) (expected : String) :
    Keyed α → List (Node × Node) → Reader (Keyed α)
  | done, [] => pure done
  | done, (k, v) :: es => do
    let name ← text expected d path k
    let a ← read (below path k) v
    namedFrom d read path "a string" (done.insert name a) es

/-! ## Anything -/

def anyOver (d : Document) (inner : Option (Path → Node → Reader Json)) (path : Path) :
    Node → Reader Json :=
  atNode d path fun n => do
    let tag := match n with
      | .scalar _ tag _ _ | .list _ tag _ | .map _ tag _ => tag
      | .reference .. => none
    if (General.keptTag? tag).isSome then refuse (.invalidType .choice "any valid JSON value")
    else match n with
      | .scalar _ tag style s =>
        match Meaning.ofScalar tag style s with
        | .error expected => refuse (.invalidValue (.text s) expected)
        | .ok .nothing => pure .null
        | .ok (.flag b) => pure (.bool b)
        | .ok (.whole k) => pure (.num (.int k))
        | .ok (.huge _) => refuse (.refused "JSON number out of range")
        | .ok (.decimal x) => pure (.ofFloat x)
        | .ok (.text s) => pure (.str s)
      | .list _ _ items =>
        match inner with
        | none => throw .unreadable
        | some read => .arr <$> itemsFrom read path 0 items
      | .map _ _ es =>
        match inner with
        | none => throw .unreadable
        | some read => .obj <$> namedFrom d read path "a string key" [] es
      | .reference .. => throw .unreadable

def any (d : Document) : Nat → Path → Node → Reader Json
  | 0 => anyOver d none
  | depth + 1 => anyOver d (some (any d depth))

/-! ## Shapes -/

def optional (r : Typed α) (d : Document) (depth : Nat) (path : Path) : Node → Reader (Option α) :=
  resolved d fun n =>
    match n with
    | .scalar _ tag .plain s =>
      match tag with
      | none => if s = "" ∨ Meaning.isNull s then pure none else some <$> r.read d depth path n
      | some t =>
        if t = Meaning.coreTag "null" then
          if Meaning.isNull s then pure none else refuse (.invalidValue (.text s) "null")
        else some <$> r.read d depth path n
    | n => some <$> r.read d depth path n

def list (r : Typed α) (d : Document) (depth : Nat) (path : Path) : Node → Reader (List α) :=
  atNode d path fun n =>
    match n with
    | .list _ _ items => deeper (fun depth => itemsFrom (r.read d depth) path 0 items) depth
    | n => if isBare n then pure [] else wrongType n "a sequence"

def table (r : Typed α) (d : Document) (depth : Nat) (path : Path) : Node → Reader (Keyed α) :=
  atNode d path fun n =>
    match n with
    | .map _ _ es => deeper (fun depth => namedFrom d (r.read d depth) path "a string" [] es) depth
    | n => if isBare n then pure [] else wrongType n "a map"

/-- The entries of a map, each stored in its field; the others are passed over. -/
def fieldsFrom (d : Document) (fields : List (String × Typed (α → α))) (depth : Nat) (path : Path) :
    α → List String → List (Node × Node) → Reader α
  | a, _, [] => pure a
  | a, seen, (k, v) :: es => do
    let name ← text "field identifier" d path k
    match fields.lookup name with
    | none => fieldsFrom d fields depth path a seen es
    | some field =>
      if name ∈ seen then refuse (.duplicateField name)
      else
        let store ← field.read d depth (below path k) v
        fieldsFrom d fields depth path (store a) (name :: seen) es

def record (name : String) (start : α) (fields : List (String × Typed (α → α)))
    (d : Document) (depth : Nat) (path : Path) : Node → Reader α :=
  atNode d path fun n =>
    match n with
    | .map _ _ es => deeper (fun depth => fieldsFrom d fields depth path start [] es) depth
    | n => if isBare n then pure start else wrongType n s!"struct {name}"

def checked (accept : α → Except Mismatch β) (r : Typed α) (d : Document) (depth : Nat)
    (path : Path) (n : Node) : Reader β := do
  match accept (← r.read d depth path n) with
  | .ok b => pure b
  | .error m => refuse m

instance : Source Typed where
  map f r := ⟨fun d depth path n => f <$> r.read d depth path n, f <$> r.absent⟩
  text := ⟨fun d _ path => text "a string" d path, .error .unreadable⟩
  flag := ⟨fun d _ path => atNode d path flagOf, .error .unreadable⟩
  decimal := ⟨fun d _ path => atNode d path decimalOf, .error .unreadable⟩
  whole := ⟨fun d _ path => atNode d path wholeOf, .error .unreadable⟩
  any := ⟨any, .ok .null⟩
  checked accept r :=
    ⟨checked accept r, r.absent >>= fun a => (accept a).mapError fun m => .mismatch m none⟩
  optional r := ⟨optional r, .ok none⟩
  list r := ⟨list r, .ok []⟩
  table r := ⟨table r, .ok []⟩
  record name start fields := ⟨record name start fields, .ok start⟩

def run (r : Typed α) (d : Document) : Except Fault α :=
  match d.root with
  | none => r.absent
  | some n => (r.read d Document.depthLimit .root n).run' d.jumpLimit

end Typed
end Yaml
end TopicLoad
