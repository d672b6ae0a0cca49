import TopicLoad.Text.Digits

/-! 128-bit identifiers as text. -/
namespace TopicLoad

structure Uuid where
  value : BitVec 128
deriving DecidableEq, Repr

namespace Uuid

def digit (u : Uuid) (i : Nat) : Nat := u.value.toNat >>> (4 * (31 - i)) % 16

def simple (u : Uuid) : List Char := (List.range 32).map fun i => Nat.digitChar (u.digit i)

def hyphenated (u : Uuid) : String :=
  let ds := u.simple
  let group (start length : Nat) := (ds.drop start).take length
  String.ofList <| group 0 8 ++ '-' :: group 8 4 ++ '-' :: group 12 4 ++ '-' :: group 16 4 ++
    '-' :: group 20 12

/-- Random bits with the marks of version 4 and of the usual variant. -/
def ofRandom (n : Nat) : Uuid :=
  let v := BitVec.ofNat 128 n
  let keep : BitVec 128 := ~~~(0xf000c000000000000000)
  ⟨(v &&& keep) ||| 0x40008000000000000000⟩

def ofDigits? (ds : List Char) : Option Uuid :=
  if ds.length ≠ 32 then none
  else (Text.number? 16 ds).map fun n => ⟨BitVec.ofNat 128 n⟩

def ofGroups? (cs : List Char) : Option Uuid :=
  if cs.length = 36 ∧ [8, 13, 18, 23].all (fun i => cs[i]? == some '-') then
    ofDigits? (cs.take 8 ++ (cs.drop 9).take 4 ++ (cs.drop 14).take 4 ++ (cs.drop 19).take 4 ++
      cs.drop 24)
  else none

/-- Plain digits, hyphenated groups, groups in braces, or groups after
`urn:uuid:` in either case. -/
def ofText? (s : String) : Option Uuid :=
  let cs := s.toList
  if cs.length = 32 then ofDigits? cs
  else if cs.length = 36 then ofGroups? cs
  else if cs.length = 38 ∧ cs.head? = some '\x7b' ∧ cs.getLast? = some '\x7d' then
    ofGroups? ((cs.drop 1).take 36)
  else if cs.length = 45 ∧ (cs.take 9).map Char.toLower = "urn:uuid:".toList then ofGroups? (cs.drop 9)
  else none

end Uuid
end TopicLoad
