import TopicLoad.Url.Host

/-! URLs as the URL standard reads them: spelling is evened out, dot segments are resolved, and what may
not stand at its place is percent-encoded. -/
namespace TopicLoad

structure Url where
  scheme : String
  /-- A name and perhaps a password. -/
  credentials : Option (String × Option String) := none
  host : Option Url.Host := none
  port : Option Nat := none
  path : String
  query : Option String := none
  fragment : Option String := none
deriving DecidableEq, Repr

namespace Url

def defaultPort? (scheme : String) : Option Nat :=
  match scheme with
  | "http" | "ws" => some 80
  | "https" | "wss" => some 443
  | "ftp" => some 21
  | _ => none

/-- Schemes whose URLs have a host and a path of segments. -/
def isSpecial (scheme : String) : Bool := (defaultPort? scheme).isSome || scheme = "file"

def target (u : Url) : String := u.path ++ (u.query.map ("?" ++ ·)).getD ""

def authority (u : Url) : String :=
  (u.host.map Host.text).getD "" ++ (u.port.map fun n => ":" ++ String.ofList (Decimal.digits n)).getD ""

/-- The whole URL; credentials are left out. -/
def text (u : Url) : String :=
  u.scheme ++ ":" ++ (if u.host.isSome then "//" ++ u.authority else "") ++ u.target ++
    (u.fragment.map ("#" ++ ·)).getD ""

/-! ## Reading -/

/-- Blanks and control characters at both ends and line breaks anywhere do not count. -/
def cleaned (cs : List Char) : List Char :=
  let isEdge (c : Char) : Bool := c ≤ ' '
  ((cs.dropWhile isEdge).reverse.dropWhile isEdge).reverse.filter fun c =>
    c ≠ '\t' ∧ c ≠ '\n' ∧ c ≠ '\r'

def splitScheme : List Char → Option (List Char × List Char)
  | [] => none
  | c :: cs =>
    let rest := cs.dropWhile fun d => d.isAlphanum || d = '+' || d = '-' || d = '.'
    match rest with
    | ':' :: after =>
      if c.isAlpha then some ((c :: cs.take (cs.length - rest.length)).map Char.toLower, after)
      else none
    | _ => none

def isSlash (special : Bool) (c : Char) : Bool := c = '/' || (special && c = '\\')

/-- Where the authority or the path before a query ends. -/
def isEnd (c : Char) : Bool := c = '?' || c = '#'

def isDot (segment : List Char) : Bool :=
  ['.'] = segment || "%2e".toList = segment.map Char.toLower

def isDoubleDot (segment : List Char) : Bool :=
  ["..", ".%2e", "%2e.", "%2e%2e"].any fun s => s.toList = segment.map Char.toLower

/-- Resolves dot segments; one at the end leaves an empty segment. -/
def resolve : List (List Char) → List (List Char) → List (List Char)
  | done, [] => done
  | done, s :: ss =>
    let last := if ss = [] then [[]] else []
    if isDoubleDot s then resolve (done.dropLast ++ last) ss
    else if isDot s then resolve (done ++ last) ss
    else resolve (done ++ [s]) ss

def pathText (special : Bool) (cs : List Char) : List Char :=
  let segments := match cs with
    | [] => if special then [[]] else []
    | c :: rest =>
      if isSlash special c then rest.splitOnP (isSlash special) else cs.splitOnP (isSlash special)
  (resolve [] (segments.map (encode inPath))).flatMap ('/' :: ·)

/-- A fragment begins at `#`, a query at `?` before it. -/
def splitTail (cs : List Char) : List Char × Option (List Char) × Option (List Char) :=
  let before := cs.takeWhile (· ≠ '#')
  let fragment := match cs.dropWhile (· ≠ '#') with
    | [] => none
    | _ :: f => some f
  match before.dropWhile (· ≠ '?') with
  | [] => (before, none, fragment)
  | _ :: q => (before.takeWhile (· ≠ '?'), some q, fragment)

def withTail (u : Url) (path : List Char → List Char) (rest : List Char) : Url :=
  let (before, query, fragment) := splitTail rest
  { u with
    path := String.ofList (path before)
    query := query.map fun q => String.ofList (encode (inQuery (isSpecial u.scheme)) q)
    fragment := fragment.map fun f => String.ofList (encode inFragment f) }

def port? (scheme : String) (ds : List Char) : Except Fault (Option Nat) :=
  if ds = [] then .ok none
  else match Text.number? 10 ds with
    | some n =>
      if 65535 < n then .error .badPort
      else .ok (if defaultPort? scheme = some n then none else some n)
    | none => .error .badPort

/-- The host ends at the first colon outside brackets. -/
def splitPort : Bool → List Char → List Char × Option (List Char)
  | _, [] => ([], none)
  | inside, c :: cs =>
    if c = ':' ∧ ¬ inside then ([], some cs)
    else
      let (host, port) := splitPort (if c = '[' then true else if c = ']' then false else inside) cs
      (c :: host, port)

def decoded (cs : List Char) : String :=
  (String.fromUTF8? ⟨(decode cs).toArray⟩).getD ""

/-- What stands before the last `@` of an authority, and what stands after it. -/
def splitCredentials (cs : List Char) : Option (List Char) × List Char :=
  match cs.reverse.dropWhile (· ≠ '@') with
  | [] => (none, cs)
  | _ :: before => (some before.reverse, (cs.reverse.takeWhile (· ≠ '@')).reverse)

def credentials? (cs : List Char) : Option (String × Option String) :=
  let password := match cs.dropWhile (· ≠ ':') with
    | [] => none
    | _ :: p => some p
  let password := (password.filter (· ≠ [])).map decoded
  let name := decoded (cs.takeWhile (· ≠ ':'))
  if name = "" ∧ password = none then none else some (name, password)

def ofAuthority (scheme : String) (cs : List Char) : Except Fault Url := do
  let special := isSpecial scheme
  let ends (c : Char) : Bool := isSlash special c || isEnd c
  let (user, place) := splitCredentials (cs.takeWhile fun c => !ends c)
  let (name, port) := splitPort false place
  if name = [] ∧ (special ∨ user.isSome ∨ port.isSome) then throw .emptyHost
  let host ← if special then Host.special name else Host.plain name
  let port ← port? scheme (port.getD [])
  let u : Url :=
    { scheme := scheme, credentials := user.bind credentials?, host := some host, port := port,
      path := "" }
  return u.withTail (pathText special) (cs.dropWhile fun c => !ends c)

/-- A file may be on this host, which then has no name. -/
def ofFile (cs : List Char) : Except Fault Url := do
  let isSep := isSlash true
  match cs with
  | a :: b :: rest =>
    if isSep a ∧ isSep b then
      let ends (c : Char) : Bool := isSep c || isEnd c
      let name := rest.takeWhile fun c => !ends c
      let host ← if name = [] then pure (Host.name "") else Host.special name
      let host := if host = .name "localhost" then .name "" else host
      let u : Url := { scheme := "file", host := some host, path := "" }
      return u.withTail (pathText true) (rest.dropWhile fun c => !ends c)
  | _ => pure ()
  let u : Url := { scheme := "file", host := some (.name ""), path := "" }
  return u.withTail (pathText true) cs

/-- A URL without a host; only a path that begins with a slash consists of segments. -/
def ofPlain (scheme : String) (cs : List Char) : Except Fault Url :=
  let u : Url := { scheme := scheme, path := "" }
  match cs with
  | '/' :: '/' :: rest => ofAuthority scheme rest
  | '/' :: _ => .ok (u.withTail (pathText false) cs)
  | _ => .ok (u.withTail (encode fun _ => false) cs)

def ofText (s : String) : Except Fault Url :=
  match splitScheme (cleaned s.toList) with
  | none => .error .relative
  | some (scheme, rest) =>
    let scheme := String.ofList scheme
    if scheme = "file" then ofFile rest
    else if isSpecial scheme then ofAuthority scheme (rest.dropWhile (isSlash true))
    else ofPlain scheme rest

end Url
end TopicLoad
