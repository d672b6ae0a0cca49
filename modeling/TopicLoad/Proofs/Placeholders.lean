import Mathlib.Data.List.TakeWhile
import TopicLoad.Template.Rendering

/-! The placeholders of a text. They never overlap, so they divide the text into themselves and the gaps
between them in one way only; that division is the one the scan from left to right finds, and rendering
the text is rendering its gaps and placeholders one after another. -/
namespace TopicLoad
namespace Template

def Bare (x : List Char) : Prop := ∀ c ∈ x, Line.isBrace c = false

def placeholder (x : List Char) : List Char := '\x7b' :: '\x7b' :: (x ++ ['\x7d', '\x7d'])

@[simp] theorem placeholder_length (x : List Char) : (placeholder x).length = x.length + 4 := by
  simp [placeholder]

/-- A placeholder stands in a text behind its first `i` characters. -/
def Occurs (cs : List Char) (i : Nat) (x : List Char) : Prop :=
  Bare x ∧ placeholder x <+: cs.drop i

namespace Bare

@[simp] theorem nil : Bare [] := by simp [Bare]

theorem cons_iff {c : Char} {x : List Char} : Bare (c :: x) ↔ Line.isBrace c = false ∧ Bare x := by
  simp [Bare]

theorem takeWhile_append {x : List Char} (h : Bare x) (rest : List Char) :
    (x ++ '\x7d' :: rest).takeWhile (fun c => !Line.isBrace c) = x := by
  have hx : ∀ c ∈ x, (!Line.isBrace c) = true := fun c hc => by simp [h c hc]
  rw [List.takeWhile_append_of_pos hx]
  simp [Line.isBrace]

theorem dropWhile_append {x : List Char} (h : Bare x) (rest : List Char) :
    (x ++ '\x7d' :: rest).dropWhile (fun c => !Line.isBrace c) = '\x7d' :: rest := by
  have hx : ∀ c ∈ x, (!Line.isBrace c) = true := fun c hc => by simp [h c hc]
  rw [List.dropWhile_append_of_pos hx]
  simp [Line.isBrace]

end Bare

namespace Occurs

variable {cs rest : List Char} {i j : Nat} {x y : List Char}

@[simp] theorem succ_iff (c : Char) : Occurs (c :: cs) (i + 1) x ↔ Occurs cs i x := by
  simp [Occurs]

theorem drop_iff : Occurs (cs.drop i) j x ↔ Occurs cs (i + j) x := by
  simp [Occurs, List.drop_drop]

theorem append_iff (gap : List Char) : Occurs (gap ++ cs) (gap.length + i) x ↔ Occurs cs i x := by
  rw [← drop_iff, List.drop_left]

theorem nil_iff : ¬ Occurs [] i x := by
  simp [Occurs, placeholder]

theorem head (h : Occurs cs 0 x) : ∃ rest, cs = placeholder x ++ rest := by
  obtain ⟨rest, hrest⟩ := h.2
  exact ⟨rest, by simpa using hrest.symm⟩

theorem zero_iff (hx : Bare x) : Occurs (placeholder x ++ rest) 0 y ↔ y = x := by
  constructor
  · intro h
    obtain ⟨tail, ht⟩ := h.head
    have hcs : x ++ '\x7d' :: '\x7d' :: rest = y ++ '\x7d' :: '\x7d' :: tail := by
      simpa [placeholder] using ht
    have hy := h.1.takeWhile_append ('\x7d' :: tail)
    rw [← hcs, hx.takeWhile_append] at hy
    exact hy.symm
  · rintro rfl
    exact ⟨hx, by simp⟩

/-- No placeholder begins between the braces of another, nor on them. -/
theorem behind (hx : Bare x) (h : Occurs (x ++ '\x7d' :: '\x7d' :: rest) i y) :
    x.length + 2 ≤ i := by
  induction x generalizing i with
  | nil =>
    match i with
    | 0 =>
      obtain ⟨tail, ht⟩ := h.head
      simp [placeholder] at ht
    | 1 =>
      obtain ⟨tail, ht⟩ := ((succ_iff _).mp h).head
      simp [placeholder] at ht
    | i + 2 => simp
  | cons c x ih =>
    have hc := Bare.cons_iff.mp hx
    match i with
    | 0 =>
      obtain ⟨tail, ht⟩ := h.head
      have hbrace : c = '\x7b' := by simpa [placeholder] using congrArg List.head? ht
      simp [hbrace, Line.isBrace] at hc
    | i + 1 =>
      have hi := ih hc.2 ((succ_iff c).mp h)
      simp only [List.length_cons]
      omega

theorem placeholder_append_iff (hx : Bare x) :
    Occurs (placeholder x ++ rest) i y ↔
      (i = 0 ∧ y = x) ∨ ∃ j, i = (placeholder x).length + j ∧ Occurs rest j y := by
  constructor
  · intro h
    match i with
    | 0 => exact .inl ⟨rfl, (zero_iff hx).mp h⟩
    | 1 =>
      obtain ⟨tail, ht⟩ := ((succ_iff _).mp h).head
      have hsecond : (x ++ ['\x7d', '\x7d'] ++ rest).head? = some '\x7b' := by
        simpa [placeholder] using congrArg (fun l => (List.tail l).head?) ht
      cases x with
      | nil => simp at hsecond
      | cons c x =>
        have hbrace : c = '\x7b' := by simpa using hsecond
        simp [hbrace, Line.isBrace, Bare.cons_iff] at hx
    | i + 2 =>
      have hinner : Occurs (x ++ '\x7d' :: '\x7d' :: rest) i y := by
        simpa [placeholder] using h
      have hi := behind hx hinner
      refine .inr ⟨i - (x.length + 2), by simp only [placeholder_length]; omega, ?_⟩
      have hsplit : i + 2 = (placeholder x).length + (i - (x.length + 2)) := by
        simp only [placeholder_length]
        omega
      rw [hsplit] at h
      exact (append_iff _).mp h
  · rintro (⟨rfl, rfl⟩ | ⟨j, rfl, h⟩)
    · exact (zero_iff hx).mpr rfl
    · exact (append_iff _).mpr h

theorem unique (h : Occurs cs i x) (h' : Occurs cs i y) : x = y := by
  have hx : Occurs (cs.drop i) 0 x := drop_iff.mpr h
  have hy : Occurs (cs.drop i) 0 y := drop_iff.mpr h'
  obtain ⟨rest, hrest⟩ := hx.head
  rw [hrest] at hy
  exact ((zero_iff h.1).mp hy).symm

theorem disjoint (h : Occurs cs i x) (h' : Occurs cs j y) (hij : i < j) :
    i + (placeholder x).length ≤ j := by
  have hx : Occurs (cs.drop i) 0 x := drop_iff.mpr h
  have hy : Occurs (cs.drop i) (j - i) y := by
    rw [drop_iff, Nat.add_sub_cancel' (Nat.le_of_lt hij)]
    exact h'
  obtain ⟨rest, hrest⟩ := hx.head
  rw [hrest, placeholder_append_iff h.1] at hy
  obtain ⟨hzero, -⟩ | ⟨k, hk, -⟩ := hy
  · omega
  · omega

end Occurs

namespace Line

theorem inside?_eq_some_iff {cs x : List Char} : inside? cs = some x ↔ Occurs cs 0 x := by
  constructor
  · intro h
    unfold inside? at h
    split at h
    · next cs =>
      split at h
      · next rest hdrop =>
        cases h
        have hcs := List.takeWhile_append_dropWhile
          (p := fun c => !isBrace c) (l := cs)
        rw [hdrop] at hcs
        refine ⟨fun c hc => ?_, ⟨rest, ?_⟩⟩
        · simpa using List.mem_takeWhile_imp hc
        · simpa [placeholder] using hcs
      · cases h
    · cases h
  · intro h
    obtain ⟨rest, rfl⟩ := h.head
    have hopen : placeholder x ++ rest = '\x7b' :: '\x7b' :: (x ++ '\x7d' :: '\x7d' :: rest) := by
      simp [placeholder]
    simp only [hopen, inside?, h.1.dropWhile_append, h.1.takeWhile_append]

theorem isOpen_iff {cs : List Char} : isOpen cs = true ↔ ['\x7b', '\x7b'] <:+: cs := by
  fun_induction isOpen cs with
  | case1 cs => exact ⟨fun _ => ⟨[], cs, rfl⟩, fun _ => rfl⟩
  | case2 c cs hcs ih =>
    rw [ih, List.infix_cons_iff]
    constructor
    · exact .inr
    · rintro (⟨rest, h⟩ | h)
      · cases h
        exact absurd rfl (hcs _ rfl)
      · exact h
  | case3 => simp

/-- The gaps and, for every expression, a text in its place. -/
def filled (text : List Char → List Char) (l : Line) : List Char :=
  l.slots.flatMap (fun s => s.1 ++ text s.2) ++ l.tail

/-- Where the placeholders of a line stand behind `n` characters. -/
def places : Nat → List (List Char × List Char) → List (Nat × List Char)
  | _, [] => []
  | n, (gap, x) :: slots =>
    (n + gap.length, x) :: places (n + gap.length + (placeholder x).length) slots

def trimmed (l : Line) : Line := ⟨l.slots.map fun s => (s.1, Text.trim s.2), l.tail⟩

theorem filled_push (text : List Char → List Char) (c : Char) (l : Line) :
    (l.push c).filled text = c :: l.filled text := by
  obtain ⟨slots, tail⟩ := l
  cases slots <;> rfl

theorem filled_slot (text : List Char → List Char) (x : List Char) (l : Line) :
    (l.slot x).filled text = text x ++ l.filled text := by
  simp [slot, filled]

theorem filled_cons (text : List Char → List Char) (gap x : List Char)
    (slots : List (List Char × List Char)) (tail : List Char) :
    filled text ⟨(gap, x) :: slots, tail⟩ = gap ++ (text x ++ filled text ⟨slots, tail⟩) := by
  simp [filled]

theorem trimmed_push (c : Char) (l : Line) : (l.push c).trimmed = l.trimmed.push c := by
  obtain ⟨slots, tail⟩ := l
  cases slots <;> rfl

theorem trimmed_slot (x : List Char) (l : Line) :
    (l.slot x).trimmed = l.trimmed.slot (Text.trim x) := rfl

theorem mem_places_add {m n : Nat} {slots : List (List Char × List Char)} {p : Nat × List Char} :
    p ∈ places (m + n) slots ↔ ∃ j, p.1 = m + j ∧ (j, p.2) ∈ places n slots := by
  induction slots generalizing n with
  | nil => simp [places]
  | cons s slots ih =>
    obtain ⟨gap, x⟩ := s
    obtain ⟨i, y⟩ := p
    simp only [places, List.mem_cons, Prod.mk.injEq, Nat.add_assoc m, ih]
    constructor
    · rintro (⟨rfl, rfl⟩ | ⟨j, rfl, hj⟩)
      · exact ⟨_, rfl, .inl ⟨rfl, rfl⟩⟩
      · exact ⟨j, rfl, .inr hj⟩
    · rintro ⟨j, rfl, ⟨rfl, rfl⟩ | hj⟩
      · exact .inl ⟨rfl, rfl⟩
      · exact .inr ⟨j, rfl, hj⟩

theorem places_push (n : Nat) (c : Char) (l : Line) :
    places n (l.push c).slots = places (n + 1) l.slots := by
  obtain ⟨slots, tail⟩ := l
  cases slots with
  | nil => rfl
  | cons s slots => simp [push, places, Nat.add_assoc, Nat.add_comm 1]

theorem mem_places_push {i : Nat} {x : List Char} {c : Char} {l : Line} :
    (i, x) ∈ places 0 (l.push c).slots ↔ ∃ j, i = j + 1 ∧ (j, x) ∈ places 0 l.slots := by
  rw [places_push, Nat.zero_add, ← Nat.add_zero 1, mem_places_add]
  simp [Nat.add_comm 1]

theorem mem_places_cons {i : Nat} {gap x y : List Char} {slots : List (List Char × List Char)} :
    (i, y) ∈ places 0 ((gap, x) :: slots) ↔ (i = gap.length ∧ y = x) ∨
      ∃ j, i = gap.length + (placeholder x).length + j ∧ (j, y) ∈ places 0 slots := by
  rw [places, List.mem_cons, Nat.zero_add, Prod.mk.injEq,
    ← Nat.add_zero (gap.length + (placeholder x).length), mem_places_add]
  simp

theorem exists_mem_places_iff {x : List Char} {slots : List (List Char × List Char)} :
    (∃ i, (i, x) ∈ places 0 slots) ↔ ∃ s ∈ slots, s.2 = x := by
  induction slots with
  | nil => simp [places]
  | cons s slots ih =>
    obtain ⟨gap, y⟩ := s
    simp only [mem_places_cons, List.mem_cons, exists_eq_or_imp, ← ih]
    constructor
    · rintro ⟨i, ⟨-, rfl⟩ | ⟨j, -, hj⟩⟩
      · exact .inl rfl
      · exact .inr ⟨j, hj⟩
    · rintro (rfl | ⟨j, hj⟩)
      · exact ⟨gap.length, .inl ⟨rfl, rfl⟩⟩
      · exact ⟨gap.length + (placeholder y).length + j, .inr ⟨j, rfl, hj⟩⟩

end Line

/-- A line divides a text: put together again it is the text, and its placeholders are all that stand
there. -/
structure Divides (cs : List Char) (l : Line) : Prop where
  joined : l.filled placeholder = cs
  all : ∀ i x, Occurs cs i x ↔ (i, x) ∈ Line.places 0 l.slots

namespace Divides

variable {cs rest : List Char} {l : Line} {x : List Char}

theorem nil : Divides [] ⟨[], []⟩ where
  joined := rfl
  all i x := by simp [Line.places, Occurs.nil_iff]

theorem push {c : Char} (hc : ∀ x, ¬ Occurs (c :: cs) 0 x) (h : Divides cs l) :
    Divides (c :: cs) (l.push c) where
  joined := by rw [Line.filled_push, h.joined]
  all i x := by
    rw [Line.mem_places_push]
    cases i with
    | zero => simp [hc x]
    | succ i => simp [h.all]

theorem slot (hx : Bare x) (h : Divides rest l) :
    Divides (placeholder x ++ rest) (l.slot x) where
  joined := by rw [Line.filled_slot, h.joined]
  all i y := by
    simp only [Occurs.placeholder_append_iff hx, Line.slot, Line.mem_places_cons, h.all,
      List.length_nil, Nat.zero_add]

theorem exists_cut (cs : List Char) : ∃ l, Divides cs l ∧ Line.cut cs = l.trimmed := by
  induction hn : cs.length using Nat.strongRecOn generalizing cs with
  | _ n ih =>
    cases cs with
    | nil => exact ⟨_, nil, rfl⟩
    | cons c cs =>
      simp only [List.length_cons] at hn
      cases hin : Line.inside? (c :: cs) with
      | none =>
        obtain ⟨l, hl, hcut⟩ := ih cs.length (by omega) cs rfl
        have hfree : ∀ x, ¬ Occurs (c :: cs) 0 x := fun x hx => by
          simp [Line.inside?_eq_some_iff.mpr hx] at hin
        refine ⟨l.push c, hl.push hfree, ?_⟩
        have hstep : Line.cut (c :: cs) = (Line.cut cs).push c := by
          simp only [Line.cut, Line.cutFrom, hin]
        rw [hstep, hcut, Line.trimmed_push]
      | some x =>
        have hocc := Line.inside?_eq_some_iff.mp hin
        obtain ⟨rest, hrest⟩ := hocc.head
        have htail : cs.drop (x.length + 3) = rest := by
          have := congrArg (List.drop (x.length + 4)) hrest
          rwa [List.drop_succ_cons, ← placeholder_length, List.drop_left] at this
        have hshort : rest.length < n := by
          have := congrArg List.length hrest
          simp only [List.length_cons, List.length_append, placeholder_length] at this
          omega
        obtain ⟨l, hl, hcut⟩ := ih rest.length hshort rest rfl
        refine ⟨l.slot x, hrest ▸ hl.slot hocc.1, ?_⟩
        have hstep : Line.cut (c :: cs) = (Line.cut rest).slot (Text.trim x) := by
          simp only [Line.cut, Line.cutFrom, hin]
          rw [Line.cutFrom_eq_drop, htail, Line.cut]
        rw [hstep, hcut, Line.trimmed_slot]

theorem behind {gap tail : List Char} {slots : List (List Char × List Char)}
    (h : Divides cs ⟨(gap, x) :: slots, tail⟩) :
    Divides (Line.filled placeholder ⟨slots, tail⟩) ⟨slots, tail⟩ where
  joined := rfl
  all i y := by
    have hcs : cs = (gap ++ placeholder x) ++ Line.filled placeholder ⟨slots, tail⟩ := by
      rw [← h.joined, Line.filled_cons, List.append_assoc]
    have hoccurs := h.all ((gap ++ placeholder x).length + i) y
    rw [hcs, Occurs.append_iff, Line.mem_places_cons] at hoccurs
    rw [hoccurs]
    simp only [List.length_append, placeholder_length, Nat.add_left_cancel_iff]
    constructor
    · rintro (⟨hlong, -⟩ | ⟨j, rfl, hj⟩)
      · omega
      · exact hj
    · exact fun hi => .inr ⟨i, rfl, hi⟩

theorem occurs_first {gap tail : List Char} {slots : List (List Char × List Char)}
    (h : Divides cs ⟨(gap, x) :: slots, tail⟩) : Occurs cs gap.length x :=
  (h.all _ _).mpr (Line.mem_places_cons.mpr (.inl ⟨rfl, rfl⟩))

theorem first_le {gap tail y : List Char} {i : Nat} {slots : List (List Char × List Char)}
    (h : Divides cs ⟨(gap, x) :: slots, tail⟩) (hy : Occurs cs i y) : gap.length ≤ i := by
  obtain ⟨rfl, -⟩ | ⟨j, rfl, -⟩ := Line.mem_places_cons.mp ((h.all i y).mp hy)
  · exact le_rfl
  · omega

theorem unique {l' : Line} (h : Divides cs l) (h' : Divides cs l') : l = l' := by
  obtain ⟨slots, tail⟩ := l
  obtain ⟨slots', tail'⟩ := l'
  induction slots generalizing cs slots' with
  | nil =>
    cases slots' with
    | nil =>
      have htail : tail = tail' := h.joined.trans h'.joined.symm
      rw [htail]
    | cons s slots' =>
      have hfirst := (h.all _ _).mp h'.occurs_first
      simp [Line.places] at hfirst
  | cons s slots ih =>
    obtain ⟨gap, x⟩ := s
    cases slots' with
    | nil =>
      have hfirst := (h'.all _ _).mp h.occurs_first
      simp [Line.places] at hfirst
    | cons s' slots' =>
      obtain ⟨gap', x'⟩ := s'
      -- Both lines have their first slot where the text has its first placeholder.
      have hlength : gap.length = gap'.length :=
        le_antisymm (h.first_le h'.occurs_first) (h'.first_le h.occurs_first)
      have hx : x = x' := by
        have hfirst := h'.occurs_first
        rw [← hlength] at hfirst
        exact h.occurs_first.unique hfirst
      have hjoined := h.joined.trans h'.joined.symm
      rw [Line.filled_cons, Line.filled_cons] at hjoined
      have hgap := List.append_inj hjoined hlength
      rw [hx] at hgap
      have hrest := List.append_cancel_left hgap.2
      have hbehind := h'.behind
      rw [← hrest] at hbehind
      have htail := ih h.behind slots' hbehind
      cases htail
      rw [hgap.1, hx]

/-- What stands between the braces of a placeholder is an expression of the line, and the other way
round. -/
theorem exists_occurs_iff (h : Divides cs l) : (∃ i, Occurs cs i x) ↔ ∃ s ∈ l.slots, s.2 = x := by
  rw [← Line.exists_mem_places_iff]
  simp only [h.all]

end Divides

theorem Occurs.mem_cut {cs : List Char} {i : Nat} {x : List Char} (h : Occurs cs i x) :
    ∃ s ∈ (Line.cut cs).slots, s.2 = Text.trim x := by
  obtain ⟨l, hl, hcut⟩ := Divides.exists_cut cs
  obtain ⟨s, hs, rfl⟩ := hl.exists_occurs_iff.mp ⟨i, h⟩
  refine ⟨(s.1, Text.trim s.2), ?_, rfl⟩
  rw [hcut]
  exact List.mem_map_of_mem hs

end Template
end TopicLoad
