/-! Digits of bases up to sixteen and the numbers they denote. -/
namespace TopicLoad
namespace Text

def hexValue? (c : Char) : Option Nat :=
  if c.isDigit then some (c.toNat - 48)
  else if 'a' ≤ c ∧ c ≤ 'f' then some (c.toNat - 87)
  else if 'A' ≤ c ∧ c ≤ 'F' then some (c.toNat - 55)
  else none

def digitValue? (base : Nat) (c : Char) : Option Nat := (hexValue? c).filter (· < base)

def number? (base : Nat) (ds : List Char) : Option Nat :=
  if ds = [] then none
  else (ds.mapM (digitValue? base)).map fun ns => ns.foldl (fun n d => n * base + d) 0

@[simp] theorem number?_nil (base : Nat) : number? base [] = none := rfl

end Text
end TopicLoad
