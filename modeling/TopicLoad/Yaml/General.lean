import TopicLoad.Yaml.Meaning

/-! Whether a document can be read without knowing what it should hold: names in a map differ, whole
numbers fit 64 bits, and neither depth nor the use of aliases gets out of hand. -/
namespace TopicLoad
namespace Yaml

inductive General where
  | nothing
  | flag (b : Bool)
  | whole (n : Int)
  | decimal (x : Float)
  | text (s : String)
  | list (items : List General)
  | map (entries : List (General × General))
  | tagged (tag : String) (v : General)

namespace General

/-- Doubles are alike if they are equal or both are no number. -/
def likeDecimals (x y : Float) : Bool := x == y || (x.isNaN && y.isNaN)

mutual

def like : General → General → Bool
  | .nothing, .nothing => true
  | .flag a, .flag b => a == b
  | .whole a, .whole b => a == b
  | .decimal a, .decimal b => likeDecimals a b
  | .text a, .text b => a == b
  | .list a, .list b => likeItems a b
  | .map a, .map b => likeEntries a b
  | .tagged s a, .tagged t b => s == t && like a b
  | _, _ => false

def likeItems : List General → List General → Bool
  | [], [] => true
  | a :: as, b :: bs => like a b && likeItems as bs
  | _, _ => false

def likeEntries : List (General × General) → List (General × General) → Bool
  | [], [] => true
  | (k, a) :: as, (l, b) :: bs => like k l && like a b && likeEntries as bs
  | _, _ => false

end

/-- Reading counts down how often aliases may still be followed. -/
abbrev Reader := StateT Nat Option

def fail {α : Type} : Reader α := fun _ => none

def ofMeaning : Except String Meaning → Reader General
  | .ok .nothing => pure .nothing
  | .ok (.flag b) => pure (.flag b)
  | .ok (.whole n) => pure (.whole n)
  | .ok (.decimal x) => pure (.decimal x)
  | .ok (.text s) => pure (.text s)
  | .ok (.huge _) => fail
  | .error _ => fail

def keptTag? (tag : Option String) : Option String := tag.filter Meaning.isPrivate

def withTag (tag : Option String) (v : General) : General :=
  match keptTag? tag with
  | some t => .tagged t v
  | none => v

/-- Entries in order, each name read before its value; no name may come twice. -/
def entries (read : Node → Reader General) :
    List (General × General) → List (Node × Node) → Reader (List (General × General))
  | done, [] => pure done.reverse
  | done, (k, v) :: rest => do
    let key ← read k
    if done.any fun e => like e.1 key then fail
    else
      let value ← read v
      entries read ((key, value) :: done) rest

def follow (d : Document) (anchor : Nat) : Reader Node := do
  match ← get, d.find? anchor with
  | left + 1, some n => set left *> pure n
  | _, _ => fail

/-- A value whose parts are read by `inner`; without it nothing may be nested. -/
def ofNodeOver (d : Document) (inner : Option (Node → Reader General)) (n : Node) : Reader General := do
  let n ← match n with
    | .reference _ anchor => follow d anchor
    | n => pure n
  match n with
  | .scalar _ tag style s =>
    match keptTag? tag with
    | some t => .tagged t <$> ofMeaning (Meaning.ofScalar none style s)
    | none => ofMeaning (Meaning.ofScalar tag style s)
  | .list _ tag items =>
    match inner with
    | none => fail
    | some read => (withTag tag ∘ .list) <$> items.mapM read
  | .map _ tag es =>
    match inner with
    | none => fail
    | some read => (withTag tag ∘ .map) <$> entries read [] es
  | .reference .. => fail

def ofNode (d : Document) : Nat → Node → Reader General
  | 0 => ofNodeOver d none
  | depth + 1 => ofNodeOver d (some (ofNode d depth))

end General

namespace Document

def depthLimit : Nat := 128

def jumpLimit (d : Document) : Nat := d.size * 100

def isReadable (d : Document) : Bool :=
  match d.root with
  | none => true
  | some n => (General.ofNode d depthLimit n d.jumpLimit).isSome

end Document
end Yaml
end TopicLoad
