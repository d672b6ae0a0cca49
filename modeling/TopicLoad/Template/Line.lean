import TopicLoad.Text.Blank

/-! Texts with placeholders. A placeholder is `{{ expression }}` with no brace inside; a text is cut
into its placeholders, taken from left to right, and the gaps between them. -/
namespace TopicLoad
namespace Template

/-- A text as pairs of a gap and the expression of the placeholder behind it, and the last gap. -/
structure Line where
  slots : List (List Char × List Char)
  tail : List Char
deriving DecidableEq, Repr

namespace Line

def push (c : Char) (l : Line) : Line :=
  match l.slots with
  | [] => ⟨[], c :: l.tail⟩
  | (gap, expr) :: slots => ⟨(c :: gap, expr) :: slots, l.tail⟩

def slot (expr : List Char) (l : Line) : Line := ⟨([], expr) :: l.slots, l.tail⟩

def isBrace (c : Char) : Bool := c = '\x7b' || c = '\x7d'

def inside? : List Char → Option (List Char)
  | '\x7b' :: '\x7b' :: cs =>
    match cs.dropWhile fun c => !isBrace c with
    | '\x7d' :: '\x7d' :: _ => some (cs.takeWhile fun c => !isBrace c)
    | _ => none
  | _ => none

/-- Cuts what is left of a text after its first `skip` characters. -/
def cutFrom : Nat → List Char → Line
  | _, [] => ⟨[], []⟩
  | skip + 1, _ :: cs => cutFrom skip cs
  | 0, c :: cs =>
    match inside? (c :: cs) with
    | some inner => (cutFrom (inner.length + 3) cs).slot (Text.trim inner)
    | none => (cutFrom 0 cs).push c

def cut (cs : List Char) : Line := cutFrom 0 cs

def isOpen : List Char → Bool
  | '\x7b' :: '\x7b' :: _ => true
  | _ :: cs => isOpen cs
  | [] => false

@[simp] theorem cutFrom_nil (skip : Nat) : cutFrom skip [] = ⟨[], []⟩ := by cases skip <;> rfl

@[simp] theorem cutFrom_succ (skip : Nat) (c : Char) (cs : List Char) :
    cutFrom (skip + 1) (c :: cs) = cutFrom skip cs := rfl

theorem cutFrom_eq_drop (skip : Nat) (cs : List Char) : cutFrom skip cs = cut (cs.drop skip) := by
  induction cs generalizing skip with
  | nil => simp [cut]
  | cons c cs ih =>
    cases skip with
    | zero => rfl
    | succ skip => simpa using ih skip

end Line
end Template
end TopicLoad
