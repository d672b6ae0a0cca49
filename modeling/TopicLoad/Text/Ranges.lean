/-! Sets of characters given as ascending ranges of code points. -/
namespace TopicLoad
namespace Text

/-- First and last code point, both included. -/
abbrev Ranges := Array (Nat × Nat)

def Ranges.has (table : Ranges) (c : Char) : Bool :=
  table.any fun r => decide (r.1 ≤ c.toNat) && decide (c.toNat ≤ r.2)

end Text
end TopicLoad
