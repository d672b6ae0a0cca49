import TopicLoad.Json.Text
import TopicLoad.Template.Builtin
import TopicLoad.Template.Line

/-! Rendering a JSON template: every text in it, the names of members included, has its placeholders
replaced. A text that is one placeholder and nothing else takes the value with its type. -/
namespace TopicLoad
namespace Template

/-- The value below `v` at the end of a path: members by name, items by number. -/
def follow : Json → List (List Char) → Option Json
  | v, [] => some v
  | .obj ms, p :: ps =>
    match Keyed.get? ms (String.ofList p) with
    | some v => follow v ps
    | none => none
  | .arr vs, p :: ps =>
    match (Decimal.readNat Limits.bits64 p).bind fun i => vs[i]? with
    | some v => follow v ps
    | none => none
  | _, _ :: _ => none

/-- The value of a variable or of something inside it, written with points. -/
def lookup (vars : Keyed Json) (path : List Char) : Option Json :=
  match splitAt '.' path with
  | [] => none
  | name :: ps => (vars.get? (String.ofList name)).bind fun v => follow v ps

/-- The value of an expression: a variable if there is one, else a call. -/
def evaluate (vars : Keyed Json) (a : Ambient) (expr : List Char) : Except Fault Json :=
  if expr = [] then .error .emptyPlaceholder
  else match lookup vars expr with
    | some v => .ok v
    | none =>
      match call? expr with
      | some (name, args) => callBuiltin a name args
      | none =>
        match expr with
        | '$' :: name => callBuiltin a name []
        | _ => .error (.undefined (String.ofList expr))

def fill (vars : Keyed Json) (source : String) :
    Ambient → List (List Char × List Char) → List Char → Except Fault (List Char)
  | _, [], tail => if Line.isOpen tail then .error (.unterminated source) else .ok tail
  | a, (gap, expr) :: slots, tail =>
    if Line.isOpen gap then .error (.unterminated source)
    else
      match evaluate vars (a.child 0) expr with
      | .error f => .error f
      | .ok v =>
        match fill vars source (a.child 1) slots tail with
        | .error f => .error f
        | .ok rest => .ok (gap ++ v.plain.toList ++ rest)

def renderText (vars : Keyed Json) (a : Ambient) (s : String) : Except Fault Json :=
  match Line.cut s.toList with
  | ⟨[([], expr)], []⟩ => evaluate vars (a.child 0) expr
  | ⟨slots, tail⟩ => (fill vars s a slots tail).map fun cs => .str (String.ofList cs)

mutual

def render (vars : Keyed Json) (a : Ambient) : Json → Except Fault Json
  | .str s => renderText vars a s
  | .arr vs => .arr <$> renderItems vars a vs
  | .obj ms => .obj <$> renderMembers vars a [] ms
  | v => .ok v

def renderItems (vars : Keyed Json) (a : Ambient) : List Json → Except Fault (List Json)
  | [] => .ok []
  | v :: vs => do
    let v ← render vars (a.child 0) v
    let vs ← renderItems vars (a.child 1) vs
    .ok (v :: vs)

/-- Members are rendered in order, each name before its value; of equal names the last one counts. -/
def renderMembers (vars : Keyed Json) (a : Ambient) (done : Keyed Json) :
    List (String × Json) → Except Fault (Keyed Json)
  | [] => .ok done
  | (name, v) :: ms => do
    let name ← renderText vars (a.child 0) name
    let v ← render vars (a.child 1) v
    renderMembers vars (a.child 2) (done.insert name.plain v) ms

end

end Template
end TopicLoad
