import TopicLoad.Url.Percent
import TopicLoad.Decimal.Notation

/-! Hosts of URLs: names and numeric addresses. -/
namespace TopicLoad
namespace Url

inductive Fault where
  | relative
  | emptyHost
  | badName
  | badCharacter
  | badPort
  | badIpv4
  | badIpv6
deriving DecidableEq, Repr

def Fault.message : Fault → String
  | .relative => "relative URL without a base"
  | .emptyHost => "empty host"
  | .badName => "invalid international domain name"
  | .badCharacter => "invalid domain character"
  | .badPort => "invalid port number"
  | .badIpv4 => "invalid IPv4 address"
  | .badIpv6 => "invalid IPv6 address"

inductive Host where
  | name (text : String)
  | ipv4 (address : Nat)
  /-- Eight groups of 16 bits. -/
  | ipv6 (groups : List Nat)
deriving DecidableEq, Repr

def pieces (separator : Char) (cs : List Char) : List (List Char) := cs.splitOnP (· == separator)

/-! ## Addresses of 32 bits -/

/-- A number that may be octal or hexadecimal. -/
def addressPart? : List Char → Option Nat
  | '0' :: 'x' :: ds | '0' :: 'X' :: ds => if ds = [] then some 0 else Text.number? 16 ds
  | '0' :: d :: ds => Text.number? 8 (d :: ds)
  | ds => Text.number? 10 ds

def dotted (cs : List Char) : List (List Char) :=
  let ps := pieces '.' cs
  if 1 < ps.length ∧ ps.getLast? = some [] then ps.dropLast else ps

/-- Names whose last part is a number have to be addresses. -/
def isNumeric (cs : List Char) : Bool :=
  match (dotted cs).getLast? with
  | some last => (last ≠ [] && last.all Char.isDigit) || (addressPart? last).isSome
  | none => false

/-- All parts but the last are bytes, the last one fills the rest of the address. -/
def ipv4? (cs : List Char) : Option Nat := do
  let ps := dotted cs
  let ns ← ps.mapM addressPart?
  let last ← ns.getLast?
  let bytes := ns.dropLast
  if 4 < ns.length ∨ bytes.any (255 < ·) ∨ 1 <<< (8 * (5 - ns.length)) ≤ last then none
  else
    let high := bytes.foldl (fun n b => n * 256 + b) 0
    some (high <<< (8 * (5 - ns.length)) + last)

def ipv4Text (n : Nat) : List Char :=
  ['.'].intercalate ([n >>> 24 % 256, n >>> 16 % 256, n >>> 8 % 256, n % 256].map Decimal.digits)

/-! ## Addresses of 128 bits -/

def byte? (ds : List Char) : Option Nat :=
  if ds.length = 1 ∨ (ds.head? ≠ some '0' ∧ ds.length ≤ 3) then
    (Text.number? 10 ds).filter (· < 256)
  else none

/-- The groups between colons; the last one may be a dotted address, which counts twice. -/
def groups? (dots : Bool) : List (List Char) → Option (List Nat)
  | [] => some []
  | [p] =>
    if dots ∧ '.' ∈ p then
      match (pieces '.' p).mapM byte? with
      | some [a, b, c, d] => some [a * 256 + b, c * 256 + d]
      | _ => none
    else if 4 < p.length then none
    else (Text.number? 16 p).map fun n => [n]
  | p :: ps => do
    let n ← if 4 < p.length then none else Text.number? 16 p
    let ns ← groups? dots ps
    some (n :: ns)

def splitGap : List Char → Option (List Char × List Char)
  | ':' :: ':' :: cs => some ([], cs)
  | c :: cs => (splitGap cs).map fun s => (c :: s.1, s.2)
  | [] => none

def side? (dots : Bool) (cs : List Char) : Option (List Nat) :=
  if cs = [] then some [] else groups? dots (pieces ':' cs)

/-- Two colons stand for at least one group of zero. -/
def ipv6? (cs : List Char) : Option (List Nat) :=
  match splitGap cs with
  | none => (groups? true (pieces ':' cs)).filter fun ns => ns.length = 8
  | some (before, after) => do
    let left ← side? false before
    let right ← side? true after
    let n := left.length + right.length
    if 7 < n then none else some (left ++ List.replicate (8 - n) 0 ++ right)

def zeros (ns : List Nat) : Nat := (ns.takeWhile (· == 0)).length

/-- Where the first of the longest runs of two or more zeros begins, and its length. -/
def longestRun (ns : List Nat) : Option (Nat × Nat) :=
  let runs := (List.range ns.length).map fun i => (i, zeros (ns.drop i))
  let best := runs.foldl (fun b r => if b.2 < r.2 then r else b) (0, 0)
  if 2 ≤ best.2 then some best else none

def groupsText (ns : List Nat) : List Char := [':'].intercalate (ns.map (Nat.toDigits 16))

def ipv6Text (ns : List Nat) : List Char :=
  match longestRun ns with
  | none => groupsText ns
  | some (i, n) => groupsText (ns.take i) ++ ':' :: ':' :: groupsText (ns.drop (i + n))

/-! ## Hosts -/

def isForbidden (c : Char) : Bool :=
  c.toNat = 0 || "\t\n\r #/:<>?@[\\]^|".toList.contains c

/-- Names are in ASCII and in lower case; percent-encoding is undone first. -/
def Host.named (cs : List Char) : Except Fault Host :=
  let bytes := decode cs
  let name := (bytes.map fun b => Char.ofNat b.toNat).map Char.toLower
  if name.any fun c => isControl c || c = '%' || isForbidden c then .error .badName
  else if name = [] then .error .emptyHost
  else if isNumeric name then
    match ipv4? name with
    | some n => .ok (.ipv4 n)
    | none => .error .badIpv4
  else .ok (.name (String.ofList name))

def Host.bracketed (cs : List Char) : Except Fault Host :=
  match cs.reverse with
  | ']' :: inner =>
    match ipv6? inner.reverse with
    | some ns => .ok (.ipv6 ns)
    | none => .error .badIpv6
  | _ => .error .badIpv6

def Host.special : List Char → Except Fault Host
  | '[' :: cs => bracketed cs
  | cs => named cs

/-- The host of any other scheme is not looked into. -/
def Host.plain : List Char → Except Fault Host
  | '[' :: cs => bracketed cs
  | cs =>
    if cs.any isForbidden then .error .badCharacter
    else .ok (.name (String.ofList (encode (fun _ => false) cs)))

def Host.text : Host → String
  | .name s => s
  | .ipv4 n => String.ofList (ipv4Text n)
  | .ipv6 ns => String.ofList ('[' :: ipv6Text ns ++ [']'])

end Url
end TopicLoad
