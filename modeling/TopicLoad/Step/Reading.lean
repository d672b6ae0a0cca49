import TopicLoad.Json.Decoding
import TopicLoad.Json.Fault
import TopicLoad.Step.Basic
import TopicLoad.Think

/-! How a step is told from a JSON value. The members `loop`, `log`, `think`, `function` and `message`
are looked at in this order, and the first one that is set decides; a member that is `null` counts as
absent. -/
namespace TopicLoad

inductive Step.Fault where
  | loopNotList (value : Json)
  | countNotWhole (value : Json)
  | badMessage (m : Mismatch)
  | think (f : Think.Fault)
deriving BEq, Repr

def Step.Fault.message : Step.Fault → String
  | .loopNotList v => s!"Invalid step: loop must be a list of steps, got {v.text}"
  | .countNotWhole v => s!"Invalid step: loop count must be an integer, got {v.text}"
  | .badMessage m => s!"Invalid step: invalid message step: {m.message Json.wording}"
  | .think (.invalid shown) => s!"Invalid think duration: {shown}"
  | .think .tooLong => "Think duration out of range"

def MessageSpec.source {ρ : Type → Type} [Source ρ] : ρ MessageSpec :=
  Source.record "MessageSpec" {}
    [ Source.field "json" (Source.optional Source.any) fun v m => { m with json := v },
      Source.field "multiplier" (Source.optional Source.whole) fun n m => { m with multiplier := n },
      Source.field "attributes" (Source.optional (Source.table Source.text)) fun a m =>
        { m with attributes := a } ]

namespace Step

/-- A function is named by a text, a number or a truth value. -/
def functionName? : Json → Option String
  | .str s => some s
  | .num n => some (String.ofList n.text)
  | .bool b => some (if b then "true" else "false")
  | _ => none

/-- A message that is no object has no template, and a template that counts as unset is dropped. -/
def ofMessage : Json → Except Fault MessageSpec
  | .obj ms =>
    match (MessageSpec.source : Json.Decoder MessageSpec).decode (.obj ms) with
    | .ok spec => .ok { spec with json := spec.json.filter Json.isSet }
    | .error m => .error (.badMessage m)
  | _ => .ok {}

def ofMembers (ms : Keyed Json) : Except Fault Step :=
  match Json.present ms "log" with
  | some v => .ok (.log v.plain)
  | none =>
  match Json.present ms "think" with
  | some v =>
    match Think.ofJson v with
    | .ok d => .ok (.think d)
    | .error f => .error (.think f)
  | none =>
  match (Json.present ms "function").filter Json.isSet with
  | some v =>
    match functionName? v with
    | some name => .ok (.function name)
    | none => .ok (.unrecognized (.obj ms))
  | none =>
  match (Json.present ms "message").filter Json.isSet with
  | some v => .message <$> ofMessage v
  | none => .ok (.unrecognized (.obj ms))

def ofCount (ms : Keyed Json) : Except Fault LoopCount :=
  match Json.present ms "count" with
  | none => .ok (.ofCount none)
  | some (.num n) =>
    match n.toInt64? with
    | some k => .ok (.ofCount (some k))
    | none => .error (.countNotWhole (.num n))
  | some v => .error (.countNotWhole v)

mutual

def ofJson : Json → Except Fault Step
  | .obj ms =>
    match loopOf ms with
    | some body =>
      match body, ofCount ms with
      | .error f, _ => .error f
      | .ok _, .error f => .error f
      | .ok steps, .ok count => .ok (.loop steps count)
    | none => ofMembers ms
  | v => .ok (.unrecognized v)

/-- The body of a loop, if the members tell one. -/
def loopOf : List (String × Json) → Option (Except Fault (List Step))
  | [] => none
  | (name, v) :: ms =>
    if name = "loop" then
      match v with
      | .null => none
      | .arr items => some (ofItems items)
      | v => some (.error (.loopNotList v))
    else loopOf ms

/-- The steps of a list in order, up to the first one that is refused. -/
def ofItems : List Json → Except Fault (List Step)
  | [] => .ok []
  | v :: vs =>
    match ofJson v with
    | .error f => .error f
    | .ok s =>
      match ofItems vs with
      | .error f => .error f
      | .ok ss => .ok (s :: ss)

end

end Step
end TopicLoad
