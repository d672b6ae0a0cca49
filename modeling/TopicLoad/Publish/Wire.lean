import TopicLoad.Publish.Reply
import TopicLoad.Publish.Request
import TopicLoad.Text.Blank

/-! Requests and replies as bytes. A connection serves one request, so a reply ends where its head says
or where the connection is closed. -/
namespace TopicLoad
namespace Publish

/-- Bytes as characters of the same number. -/
def latin (bs : List UInt8) : List Char := bs.map fun b => Char.ofNat b.toNat

/-- The bytes of text, or each byte as a character if they are none. -/
def textOfBytes (bs : List UInt8) : String :=
  (String.fromUTF8? ⟨bs.toArray⟩).getD (String.ofList (latin bs))

def headerLine (name value : String) : String := name ++ ": " ++ value ++ "\r\n"

def Request.bytes (r : Request) : ByteArray :=
  let body := r.body.text.toUTF8
  let head := r.line ++ "\r\n" ++ headerLine "content-type" Request.contentType ++
    String.join (r.authorization.map (headerLine "authorization")) ++ headerLine "accept" "*/*" ++
    headerLine "user-agent" Request.userAgent ++ headerLine "host" r.url.authority ++
    headerLine "content-length" (toString body.size) ++ headerLine "connection" "close" ++ "\r\n"
  head.toUTF8 ++ body

namespace Reply

def splitLine : List UInt8 → Option (List UInt8 × List UInt8)
  | 13 :: 10 :: bs => some ([], bs)
  | b :: bs => (splitLine bs).map fun s => (b :: s.1, s.2)
  | [] => none

theorem splitLine_length {bs line rest : List UInt8} (h : splitLine bs = some (line, rest)) :
    rest.length < bs.length := by
  induction bs generalizing line with
  | nil => simp [splitLine] at h
  | cons b bs ih =>
    unfold splitLine at h
    split at h
    · next heq =>
      simp only [List.cons.injEq] at heq
      simp only [Option.some.injEq, Prod.mk.injEq] at h
      simp only [heq.2, ← h.2, List.length_cons]
      omega
    · next heq =>
      simp only [List.cons.injEq] at heq
      obtain ⟨s, hs, he⟩ := Option.map_eq_some_iff.mp h
      simp only [Prod.mk.injEq] at he
      have := @ih s.1 (by rw [heq.2, hs, ← he.2])
      simp only [List.length_cons]
      omega
    · simp at *

def header? (line : List UInt8) : Option (String × String) :=
  let cs := latin line
  match cs.dropWhile (· ≠ ':') with
  | [] => none
  | _ :: value =>
    let name := (cs.takeWhile (· ≠ ':')).map Char.toLower
    some (String.ofList name, String.ofList (Text.trim value))

/-- The headers up to an empty line, and the bytes after it. -/
def headers (bs : List UInt8) : Option (List (String × String) × List UInt8) :=
  match h : splitLine bs with
  | none => none
  | some (line, rest) =>
    have := splitLine_length h
    if line = [] then some ([], rest)
    else (headers rest).map fun hs => ((header? line).toList ++ hs.1, hs.2)
termination_by bs.length

def code? (line : List UInt8) : Option Nat :=
  match (latin line).splitOnP (· == ' ') with
  | version :: code :: _ =>
    if "HTTP/1.".toList.isPrefixOf version ∧ code.length = 3 then Text.number? 10 code else none
  | _ => none

def chunks : Nat → List UInt8 → Option (List UInt8)
  | 0, _ => none
  | fuel + 1, bs => do
    let (line, rest) ← splitLine bs
    let n ← Text.number? 16 ((latin line).takeWhile fun c => c ≠ ';' ∧ c ≠ ' ')
    if n = 0 then some []
    else if rest.length < n + 2 then none
    else (chunks fuel (rest.drop (n + 2))).map (rest.take n ++ ·)

def bodyOf (headers : List (String × String)) (bs : List UInt8) : Option (List UInt8) :=
  if (headers.lookup "transfer-encoding").map (·.toLower) = some "chunked" then
    chunks (bs.length + 1) bs
  else match headers.lookup "content-length" with
    | some s => do
      let n ← Decimal.readNat Limits.bits64 s.toList
      if bs.length < n then none else some (bs.take n)
    | none => some bs

/-- The final reply among the bytes of a connection; replies that announce it are passed over. -/
def ofBytes? : Nat → List UInt8 → Option Reply
  | 0, _ => none
  | fuel + 1, bs => do
    let (line, rest) ← splitLine bs
    let code ← code? line
    let (hs, rest) ← headers rest
    if code < 200 ∧ code ≠ 101 then ofBytes? fuel rest
    else
      let status : Status := ⟨code⟩
      let body ← if status.isBodiless then some [] else bodyOf hs rest
      some ⟨status, textOfBytes body⟩

end Reply
end Publish
end TopicLoad
