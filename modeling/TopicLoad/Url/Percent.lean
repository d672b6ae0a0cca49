import TopicLoad.Text.Digits

/-! Percent-encoding: a byte that may not stand as it is becomes `%` and two hexadecimal digits. -/
namespace TopicLoad
namespace Url

def upperDigit (n : Nat) : Char := n.digitChar.toUpper

def encodeByte (b : UInt8) : List Char := ['%', upperDigit (b.toNat / 16), upperDigit (b.toNat % 16)]

/-- Control characters and everything outside ASCII are encoded at every place. -/
def isControl (c : Char) : Bool := c.toNat < 0x20 || 0x7e < c.toNat

def encode (forbidden : Char → Bool) (cs : List Char) : List Char :=
  cs.flatMap fun c =>
    if isControl c || forbidden c then (String.utf8EncodeChar c).flatMap encodeByte else [c]

/-- The bytes that are meant; a `%` without two digits stands for itself. -/
def decode : List Char → List UInt8
  | [] => []
  | '%' :: a :: b :: cs =>
    match Text.hexValue? a, Text.hexValue? b with
    | some m, some n => .ofNat (m * 16 + n) :: decode cs
    | _, _ => 37 :: decode (a :: b :: cs)
  | c :: cs => String.utf8EncodeChar c ++ decode cs
termination_by cs => cs.length

def inFragment (c : Char) : Bool := c = ' ' || c = '"' || c = '<' || c = '>' || c = '\x60'

def inPath (c : Char) : Bool :=
  inFragment c || c = '#' || c = '?' || c = '^' || c = '\x7b' || c = '\x7d'

/-- In URLs of special schemes the apostrophe is encoded, too. -/
def inQuery (special : Bool) (c : Char) : Bool :=
  c = ' ' || c = '"' || c = '#' || c = '<' || c = '>' || (special && c = '\'')

@[simp] theorem encode_nil (forbidden : Char → Bool) : encode forbidden [] = [] := rfl

theorem encode_append (forbidden : Char → Bool) (cs ds : List Char) :
    encode forbidden (cs ++ ds) = encode forbidden cs ++ encode forbidden ds := by
  simp [encode]

end Url
end TopicLoad
