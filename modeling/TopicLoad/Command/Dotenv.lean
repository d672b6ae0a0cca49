import TopicLoad.Text.Blank

/-! Files of environment variables: lines `NAME=value`, perhaps after `export`. Values may be quoted, a
`#` after a blank begins a comment, and `$NAME` stands for the value of a variable. -/
namespace TopicLoad
namespace Command
namespace Dotenv

def isNameStart (c : Char) : Bool := c.isAlpha || c = '_'

def isNamePart (c : Char) : Bool := c.isAlphanum || c = '_' || c = '.'

inductive Place where
  | plain
  | single
  | double
deriving DecidableEq, Repr

def escape? (c : Char) : Option Char :=
  if c = 'n' then some '\n'
  else if "\\'\"$ ".toList.contains c then some c
  else none

/-- Behind a value only blanks and a comment may stand. -/
def isOver (cs : List Char) : Bool :=
  match cs.dropWhile fun c => c = ' ' || c = '\t' with
  | [] => true
  | c :: _ => c = '#'

theorem length_dropWhile_le (p : Char → Bool) (cs : List Char) :
    (cs.dropWhile p).length ≤ cs.length :=
  (List.dropWhile_suffix p).length_le

def value? (lookup : String → String) (place : Place) (cs : List Char) : Option (List Char) :=
  match cs with
  | [] => if place = .plain then some [] else none
  | c :: rest =>
    if place = .single then
      if c = '\'' then value? lookup .plain rest else (value? lookup .single rest).map (c :: ·)
    else if c = '\\' then
      match rest with
      | [] => none
      | d :: rest => do
        let e ← escape? d
        (value? lookup place rest).map (e :: ·)
    else if c = '$' then
      match rest with
      | '\x7b' :: inner =>
        match h : inner.dropWhile (· ≠ '\x7d') with
        | [] => none
        | _ :: after =>
          have : after.length < inner.length := by
            have := length_dropWhile_le (· ≠ '\x7d') inner
            rw [h, List.length_cons] at this
            omega
          (value? lookup place after).map
            ((lookup (String.ofList (inner.takeWhile (· ≠ '\x7d')))).toList ++ ·)
      | rest =>
        have := length_dropWhile_le Char.isAlphanum rest
        (value? lookup place (rest.dropWhile Char.isAlphanum)).map
          ((lookup (String.ofList (rest.takeWhile Char.isAlphanum))).toList ++ ·)
    else if c = '"' then value? lookup (if place = .double then .plain else .double) rest
    else if place = .double then (value? lookup .double rest).map (c :: ·)
    else if c = '\'' then value? lookup .single rest
    else if c = ' ' ∨ c = '\t' then if isOver rest then some [] else none
    else (value? lookup .plain rest).map (c :: ·)
termination_by cs.length

def name? (cs : List Char) : Option (String × List Char) :=
  if (cs.head?.map isNameStart).getD false then
    some (String.ofList (cs.takeWhile isNamePart), (cs.dropWhile isNamePart).dropWhile Text.isBlank)
  else none

inductive Line where
  | empty
  | assignment (name value : String)
  | malformed
deriving DecidableEq, Repr

def assigned (lookup : String → String) (name : String) (cs : List Char) : Line :=
  match cs with
  | '=' :: cs =>
    let cs := Text.trim cs
    if cs.head? = some '#' then .assignment name ""
    else match value? lookup .plain cs with
      | some v => .assignment name (String.ofList v)
      | none => .malformed
  | _ => .malformed

def Line.ofText (lookup : String → String) (text : String) : Line :=
  let cs := Text.trim text.toList
  if cs = [] ∨ cs.head? = some '#' then .empty
  else match name? cs with
    | none => .malformed
    | some ("export", rest) =>
      if rest.head? = some '=' then assigned lookup "export" rest
      else match name? rest with
        | some (name, rest) => assigned lookup name rest
        | none => .malformed
    | some (name, rest) => assigned lookup name rest

/-- The assignments up to the first malformed line, in order. Variables stand for what `env` says and
for what has been assigned before. -/
def assignments (env : String → Option String) :
    List (String × String) → List String → List (String × String)
  | done, [] => done
  | done, line :: lines =>
    let lookup (name : String) : String := (env name).getD ((done.lookup name).getD "")
    match Line.ofText lookup line with
    | .empty => assignments env done lines
    | .assignment name v => assignments env ((name, v) :: done) lines
    | .malformed => done

/-- What a variable is set to: what is set already counts most, then the first assignment. -/
def resolve (env : String → Option String) (text : String) (name : String) : Option String :=
  match env name with
  | some v => some v
  | none => (assignments env [] (text.splitOn "\n")).reverse.lookup name

/-- Where the file may be: in a directory or in one above it, the nearest first. -/
def places (directory : String) : List String :=
  let parts := directory.splitOn "/"
  (List.range parts.length).map fun n =>
    "/".intercalate (parts.take (parts.length - n)) ++ "/.env"

end Dotenv
end Command
end TopicLoad
