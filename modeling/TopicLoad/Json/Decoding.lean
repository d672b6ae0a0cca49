import TopicLoad.Source

/-! Typed values from JSON values. Members are looked at in the order of their names. -/
namespace TopicLoad
namespace Json

def found : Json → Found
  | .null => .nothing
  | .bool b => .flag b
  | .num (.int n) => .whole n
  | .num (.float x) => .decimal x
  | .str s => .text s
  | .arr _ => .sequence
  | .obj _ => .map

/-- Reads a typed value from a JSON value. -/
structure Decoder (α : Type) where
  decode : Json → Except Mismatch α

namespace Decoder

variable {α β : Type}

def wrongType (v : Json) (expected : String) : Except Mismatch α :=
  .error (.invalidType v.found expected)

def text : Json → Except Mismatch String
  | .str s => .ok s
  | v => wrongType v "a string"

def flag : Json → Except Mismatch Bool
  | .bool b => .ok b
  | v => wrongType v "a boolean"

def decimal : Json → Except Mismatch Float
  | .num n => .ok n.toFloat
  | v => wrongType v "f64"

def whole : Json → Except Mismatch Int
  | .num (.int n) =>
    match Number.toInt64? (.int n) with
    | some n => .ok n
    | none => .error (.invalidValue (.whole n) "i64")
  | v => wrongType v "i64"

def optional (read : Decoder α) : Json → Except Mismatch (Option α)
  | .null => .ok none
  | v => some <$> read.decode v

def list (read : Decoder α) : Json → Except Mismatch (List α)
  | .arr vs => vs.mapM read.decode
  | v => wrongType v "a sequence"

def table (read : Decoder α) : Json → Except Mismatch (Keyed α)
  | .obj ms => ms.mapM fun m => (m.1, ·) <$> read.decode m.2
  | v => wrongType v "a map"

def named (fields : List (String × Decoder (α → α))) :
    α → List (String × Json) → Except Mismatch α
  | a, [] => .ok a
  | a, (k, v) :: ms =>
    match fields.lookup k with
    | none => named fields a ms
    | some read => do
      let store ← read.decode v
      named fields (store a) ms

/-- The items of a list, stored in the fields in order; also how many are left over. -/
def positional : List (String × Decoder (α → α)) → α → List Json → Except Mismatch (α × Nat)
  | [], a, vs => .ok (a, vs.length)
  | _, a, [] => .ok (a, 0)
  | (_, read) :: fields, a, v :: vs => do
    let store ← read.decode v
    positional fields (store a) vs

def record (name : String) (start : α) (fields : List (String × Decoder (α → α))) :
    Json → Except Mismatch α
  | .obj ms => named fields start ms
  | .arr vs => do
    let (a, left) ← positional fields start vs
    if left = 0 then .ok a
    else .error (.invalidLength vs.length "fewer elements in array")
  | v => wrongType v s!"struct {name}"

instance : Source Decoder where
  map f d := ⟨fun v => f <$> d.decode v⟩
  text := ⟨text⟩
  flag := ⟨flag⟩
  decimal := ⟨decimal⟩
  whole := ⟨whole⟩
  any := ⟨.ok⟩
  checked accept d := ⟨fun v => d.decode v >>= accept⟩
  optional d := ⟨optional d⟩
  list d := ⟨list d⟩
  table d := ⟨table d⟩
  record name start fields := ⟨record name start fields⟩

end Decoder
end Json
end TopicLoad
