import TopicLoad.Decimal.Reading
import TopicLoad.Log.Basic

/-! Which log lines are shown. A filter is a list of directives, separated by commas, that give parts of
the program a least level; the directive that names a line's part most closely decides. -/
namespace TopicLoad
namespace Log

def filterDirective (level : Option String) : String :=
  let base := level.getD "info"
  s!"pubsub_engine={base},shared={base},reqwest=warn,hyper=warn"

/-- The least level that is shown; `silent` shows nothing. -/
inductive Threshold where
  | silent
  | least (level : Level)
deriving DecidableEq, Repr

namespace Threshold

def admits (t : Threshold) (level : Level) : Bool :=
  match t with
  | silent => false
  | least l => l.rank ≤ level.rank

def scale : List (String × Threshold) :=
  [ ("off", silent), ("error", least .error), ("warn", least .warn), ("info", least .info),
    ("debug", least .debug), ("trace", least .trace) ]

/-- A name in any case or a number from 0 to 5; the empty text is the level of errors. -/
def ofText? (s : String) : Option Threshold :=
  if s = "" then some (least .error)
  else match Decimal.readNat Limits.bits64 s.toList with
    | some n => (scale[n]?).map Prod.snd
    | none => scale.lookup (String.ofList (s.toList.map Char.toLower))

end Threshold

/-- A directive without a target is about all parts. -/
structure Directive where
  target : String
  threshold : Threshold
deriving DecidableEq, Repr

inductive Directive.Fault where
  | malformed
  | badLevel
deriving DecidableEq, Repr

def Directive.Fault.message : Fault → String
  | .malformed => "invalid filter directive"
  | .badLevel =>
    "error parsing level filter: expected one of \"off\", \"error\", \"warn\", \"info\", " ++
      "\"debug\", \"trace\", or a number 0-5"

/-- A directive is `target=level`, a level alone or a target alone, which then shows everything. -/
def Directive.ofText (s : String) : Except Fault Directive :=
  let startsWell (c : Char) : Bool := c.isAlphanum || 0x7f < c.toNat || c = '-' || c = ':' || c = '_'
  if !(s.toList.head?.map startsWell).getD false then .error .malformed
  else
    let target := String.ofList (s.toList.takeWhile (· ≠ '='))
    match s.toList.dropWhile (· ≠ '=') with
    | [] =>
      match Threshold.ofText? s with
      | some t => .ok ⟨"", t⟩
      | none => .ok ⟨s, .least .trace⟩
    | _ :: [] => .ok ⟨target, .least .trace⟩
    | _ :: level =>
      match Threshold.ofText? (String.ofList level) with
      | some t => .ok ⟨target, t⟩
      | none => .error .badLevel

structure Filter where
  directives : List Directive
  /-- What was left out, each with a word about why. -/
  remarks : List String
deriving DecidableEq, Repr

namespace Filter

def ofText (s : String) : Filter :=
  let parts := (s.splitOn ",").filter (· ≠ "")
  let read := parts.map fun p => (p, Directive.ofText p)
  { directives := read.filterMap fun r => r.2.toOption
    remarks := read.filterMap fun r =>
      match r.2 with
      | .ok _ => none
      | .error f => some s!"ignoring \x60{r.1}\x60: {f.message}" }

/-- Of two directives about a part the longer target counts, of two equal ones the later. -/
def deciding (f : Filter) (part : Part) : Option Directive :=
  let closer (best : Option Directive) (d : Directive) : Option Directive :=
    if !d.target.isPrefixOf part.name then best
    else match best with
      | some b => if d.target.length < b.target.length then some b else some d
      | none => some d
  f.directives.foldl closer none

def admits (f : Filter) (l : Line) : Bool :=
  match f.deciding l.part with
  | some d => d.threshold.admits l.level
  | none => false

end Filter
end Log
end TopicLoad
