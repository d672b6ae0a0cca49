import TopicLoad.Json.Typed
import TopicLoad.Script.Shape
import TopicLoad.Yaml.Typed

/-! Scripts from text, and which format a file is in. -/
namespace TopicLoad
namespace Script

inductive Fault where
  | unreadable (path reason : String)
  | malformed (reason : String)
  /-- The text is no single, well-formed YAML document. -/
  | notYaml
  /-- A think time ended the reading for good. -/
  | abandoned
deriving DecidableEq, Repr

def Fault.message : Fault → String
  | .unreadable path reason => s!"Failed to read script {path}: {reason}"
  | .malformed reason => s!"Failed to parse script: {reason}"
  | .notYaml => "Failed to parse script: not a YAML document"
  | .abandoned => "Failed to parse script"

def ofJsonText (text : String) : Except Fault Script :=
  match (source : Json.Typed Script).run text with
  | .ok s => .ok s
  | .error ⟨.mismatch .abandoned, _, _⟩ => .error .abandoned
  | .error f => .error (.malformed (f.message text.toList))

def ofDocument (d : Yaml.Document) : Except Fault Script :=
  match (source : Yaml.Typed Script).run d with
  | .ok s => .ok s
  | .error (.mismatch .abandoned _) => .error .abandoned
  | .error f => .error (if d.isReadable then .malformed f.message else .notYaml)

/-- A misfit is told only if the document could at least be read as one of unknown shape. -/
def ofYamlText (text : String) : Except Fault Script :=
  match Yaml.Document.ofText? text with
  | none => .error .notYaml
  | some d => ofDocument d

/-! ## Files -/

inductive Format where
  | json
  | yaml
deriving DecidableEq, Repr

/-- The last component of a path, unless it leads upwards. -/
def fileName? (path : String) : Option String :=
  let parts := (path.splitOn "/").filter fun p => p ≠ "" ∧ p ≠ "."
  parts.getLast?.filter (· ≠ "..")

/-- What stands behind the last dot of a file name, unless the name begins with that dot. -/
def extension? (name : String) : Option String :=
  match (name.splitOn ".").reverse with
  | last :: before :: more => if before = "" ∧ more = [] then none else some last
  | _ => none

def Format.ofPath (path : String) : Format :=
  match (fileName? path).bind extension? with
  | some "yaml" | some "yml" => .yaml
  | _ => .json

def ofText (format : Format) (text : String) : Except Fault Script :=
  match format with
  | .json => ofJsonText text
  | .yaml => ofYamlText text

def notText : String := "stream did not contain valid UTF-8"

def ofFile (path : String) (contents : Except String ByteArray) : Except Fault Script :=
  match contents with
  | .error reason => .error (.unreadable path reason)
  | .ok bytes =>
    match String.fromUTF8? bytes with
    | none => .error (.unreadable path notText)
    | some text => ofText (.ofPath path) text

end Script
end TopicLoad
