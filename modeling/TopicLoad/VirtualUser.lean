import TopicLoad.Text.Uuid

/-! Identifiers of virtual users, one for every run. -/
namespace TopicLoad

structure VirtualUser where
  id : Uuid
deriving DecidableEq, Repr

namespace VirtualUser

def ofText? (s : String) : Option VirtualUser := (Uuid.ofText? s).map VirtualUser.mk

def ofRandom (n : Nat) : VirtualUser := ⟨Uuid.ofRandom n⟩

def short (u : VirtualUser) : String := String.ofList (u.id.simple.take 8)

def display (u : VirtualUser) : String := s!"vu_{u.short}"

end VirtualUser
end TopicLoad
