import Mathlib.Data.List.Infix
import TopicLoad.Proofs.Placeholders

/-! What rendering makes of a text, said of the gaps and placeholders that divide it. The first piece that
is at fault gives the error; a text without such a piece becomes its gaps with the values of its
placeholders between them, and a text that is one placeholder becomes the value itself. -/
namespace TopicLoad
namespace Template

inductive Piece where
  | gap (cs : List Char)
  | hole (x : List Char)
deriving DecidableEq, Repr

namespace Line

def pieces (l : Line) : List Piece := l.slots.flatMap (fun s => [.gap s.1, .hole s.2]) ++ [.gap l.tail]

def gaps (l : Line) : List (List Char) := l.slots.map Prod.fst ++ [l.tail]

theorem pieces_cons (gap x : List Char) (slots : List (List Char × List Char)) (tail : List Char) :
    pieces ⟨(gap, x) :: slots, tail⟩ = .gap gap :: .hole x :: pieces ⟨slots, tail⟩ := by
  simp [pieces]

theorem gap_mem_pieces {l : Line} {cs : List Char} : .gap cs ∈ l.pieces ↔ cs ∈ l.gaps := by
  simp [pieces, gaps, eq_comm]

theorem hole_mem_pieces {l : Line} {x : List Char} : .hole x ∈ l.pieces ↔ ∃ s ∈ l.slots, s.2 = x := by
  simp [pieces, eq_comm]

end Line

variable (vars : Keyed Json) (a : Ambient) (source : String)

/-- What is wrong with a piece of a text. -/
def Piece.fault? : Piece → Option Fault
  | .gap cs => if ['\x7b', '\x7b'] <:+: cs then some (.unterminated source) else none
  | .hole x =>
    if Text.trim x = [] then some .emptyPlaceholder
    else match evaluate vars a (Text.trim x) with
      | .ok _ => none
      | .error f => some f

def shown (x : List Char) : List Char :=
  match evaluate vars a (Text.trim x) with
  | .ok v => v.plain.toList
  | .error _ => []

/-- The expressions of a text have their values whatever the random bits and the time of day. -/
def Steady (cs : List Char) : Prop :=
  ∀ i x, Occurs cs i x → ∀ b, evaluate vars b (Text.trim x) = evaluate vars a (Text.trim x)

variable {vars a}

theorem evaluate_nil : evaluate vars a [] = .error .emptyPlaceholder := by simp [evaluate]

theorem evaluate_of_lookup {expr : List Char} {v : Json} (hexpr : expr ≠ [])
    (hv : lookup vars expr = some v) : evaluate vars a expr = .ok v := by
  simp [evaluate, hexpr, hv]

theorem Steady.of_cut {cs : List Char}
    (h : ∀ s ∈ (Line.cut cs).slots, ∀ b, evaluate vars b s.2 = evaluate vars a s.2) :
    Steady vars a cs := by
  intro i x hx b
  obtain ⟨s, hs, htrim⟩ := hx.mem_cut
  rw [← htrim]
  exact h s hs b

theorem shown_of_ok {x : List Char} {v : Json} (h : evaluate vars a (Text.trim x) = .ok v) :
    shown vars a x = v.plain.toList := by
  simp [shown, h]

namespace Piece

theorem fault?_gap (cs : List Char) :
    fault? vars a source (.gap cs) = if Line.isOpen cs then some (.unterminated source) else none := by
  simp only [fault?, Line.isOpen_iff]

theorem fault?_hole_eq_some_iff {x : List Char} {f : Fault} :
    fault? vars a source (.hole x) = some f ↔ evaluate vars a (Text.trim x) = .error f := by
  by_cases hx : Text.trim x = []
  · simp [fault?, hx, evaluate_nil]
  · cases hv : evaluate vars a (Text.trim x) <;> simp [fault?, hx, hv]

theorem fault?_hole_eq_none_iff {x : List Char} :
    fault? vars a source (.hole x) = none ↔ ∃ v, evaluate vars a (Text.trim x) = .ok v := by
  by_cases hx : Text.trim x = []
  · simp [fault?, hx, evaluate_nil]
  · cases hv : evaluate vars a (Text.trim x) <;> simp [fault?, hx, hv]

theorem fault?_gap_eq_none_iff {cs : List Char} :
    fault? vars a source (.gap cs) = none ↔ ¬ ['\x7b', '\x7b'] <:+: cs := by
  simp [fault?]

end Piece

theorem Line.sound_iff {l : Line} :
    l.pieces.findSome? (Piece.fault? vars a source) = none ↔
      (∀ gap ∈ l.gaps, ¬ ['\x7b', '\x7b'] <:+: gap) ∧
        ∀ s ∈ l.slots, Text.trim s.2 ≠ [] ∧ ∃ v, evaluate vars a (Text.trim s.2) = .ok v := by
  rw [List.findSome?_eq_none_iff]
  constructor
  · intro h
    refine ⟨fun gap hgap => ?_, fun s hs => ?_⟩
    · exact (Piece.fault?_gap_eq_none_iff source).mp (h _ (Line.gap_mem_pieces.mpr hgap))
    · obtain ⟨v, hv⟩ := (Piece.fault?_hole_eq_none_iff source).mp
        (h _ (Line.hole_mem_pieces.mpr ⟨s, hs, rfl⟩))
      refine ⟨fun hempty => ?_, v, hv⟩
      rw [hempty, evaluate_nil] at hv
      cases hv
  · rintro ⟨hgaps, hslots⟩ (cs | x) hp
    · exact (Piece.fault?_gap_eq_none_iff source).mpr (hgaps cs (Line.gap_mem_pieces.mp hp))
    · obtain ⟨s, hs, rfl⟩ := Line.hole_mem_pieces.mp hp
      exact (Piece.fault?_hole_eq_none_iff source).mpr (hslots s hs).2

/-- Filling goes through the pieces from left to right and stops at the first that is at fault. -/
theorem fill_trimmed {slots : List (List Char × List Char)} (tail : List Char)
    (h : ∀ s ∈ slots, ∀ b, evaluate vars b (Text.trim s.2) = evaluate vars a (Text.trim s.2))
    (b : Ambient) :
    fill vars source b (Line.trimmed ⟨slots, tail⟩).slots tail =
      match (Line.pieces ⟨slots, tail⟩).findSome? (Piece.fault? vars a source) with
      | some f => .error f
      | none => .ok (Line.filled (shown vars a) ⟨slots, tail⟩) := by
  induction slots generalizing b with
  | nil =>
    by_cases hopen : Line.isOpen tail <;>
      simp [fill, Line.trimmed, Line.pieces, Line.filled, Piece.fault?_gap, hopen]
  | cons s slots ih =>
    obtain ⟨gap, x⟩ := s
    have hx := h _ List.mem_cons_self
    have hslots := ih (fun s hs => h s (List.mem_cons_of_mem _ hs)) (b.child 1)
    simp only [Line.trimmed] at hslots
    simp only [Line.trimmed, List.map_cons, fill, Line.pieces_cons, List.findSome?_cons,
      Piece.fault?_gap, hx (b.child 0), hslots]
    by_cases hopen : Line.isOpen gap
    · simp [hopen]
    · cases hv : evaluate vars a (Text.trim x) with
      | error f => simp [hopen, (Piece.fault?_hole_eq_some_iff source).mpr hv]
      | ok v =>
        simp only [hopen, (Piece.fault?_hole_eq_none_iff source).mpr ⟨v, hv⟩, Line.filled_cons, shown_of_ok hv]
        cases (Line.pieces ⟨slots, tail⟩).findSome? (Piece.fault? vars a source) <;> simp

theorem renderText_whole {s : String} {l : Line} {x : List Char} (hcut : Line.cut s.toList = l.trimmed)
    (hl : l = ⟨[([], x)], []⟩) :
    renderText vars a s = evaluate vars (a.child 0) (Text.trim x) := by
  subst hl
  simp only [renderText, hcut, Line.trimmed, List.map_cons, List.map_nil]

theorem renderText_filled {s : String} {l : Line} (hcut : Line.cut s.toList = l.trimmed)
    (hl : ∀ x, l ≠ ⟨[([], x)], []⟩) :
    renderText vars a s =
      (fill vars s a l.trimmed.slots l.tail).map fun cs => .str (String.ofList cs) := by
  unfold renderText
  split
  · next expr hwhole =>
    exfalso
    obtain ⟨slots, tail⟩ := l
    rw [hcut] at hwhole
    match slots with
    | [] => simp [Line.trimmed] at hwhole
    | [(gap, x)] =>
      simp only [Line.trimmed, List.map_cons, List.map_nil, Line.mk.injEq, List.cons.injEq,
        Prod.mk.injEq, and_true] at hwhole
      exact hl x (by rw [hwhole.1.1, hwhole.2])
    | _ :: _ :: _ => simp [Line.trimmed] at hwhole
  · next slots tail _ hline =>
    rw [hcut] at hline
    rw [hline]
    exact congrArg (fun t => (fill vars s a slots t).map _) (congrArg Line.tail hline).symm

section Divided

variable {s : String} {l : Line}

theorem Steady.slots (h : Steady vars a s.toList) (hl : Divides s.toList l) :
    ∀ t ∈ l.slots, ∀ b, evaluate vars b (Text.trim t.2) = evaluate vars a (Text.trim t.2) := by
  intro t ht b
  obtain ⟨i, hi⟩ := hl.exists_occurs_iff.mpr ⟨t, ht, rfl⟩
  exact h i t.2 hi b

theorem renderText_of_fault {f : Fault} (hl : Divides s.toList l)
    (hcut : Line.cut s.toList = l.trimmed) (hsteady : Steady vars a s.toList)
    (hf : l.pieces.findSome? (Piece.fault? vars a s) = some f) : renderText vars a s = .error f := by
  by_cases hwhole : ∃ x, l = ⟨[([], x)], []⟩
  · obtain ⟨x, rfl⟩ := hwhole
    have hx := hsteady.slots hl _ List.mem_cons_self (a.child 0)
    rw [renderText_whole hcut rfl, hx]
    cases hv : evaluate vars a (Text.trim x) with
    | ok v =>
      have hhole := (Piece.fault?_hole_eq_none_iff s).mpr ⟨v, hv⟩
      simp [Line.pieces, Piece.fault?_gap, hhole, Line.isOpen] at hf
    | error g =>
      have hhole := (Piece.fault?_hole_eq_some_iff s).mpr hv
      simp only [Line.pieces, List.flatMap_cons, List.cons_append, List.findSome?_cons,
        Piece.fault?_gap, hhole, Line.isOpen] at hf
      exact congrArg _ (Option.some.inj hf)
  · have hfill := fill_trimmed s l.tail (hsteady.slots hl) a
    rw [hf] at hfill
    rw [renderText_filled hcut fun x hx => hwhole ⟨x, hx⟩]
    exact congrArg _ hfill

/-- Without such a piece there is a value: that of the only placeholder if the text is nothing else, or
else a text. Either way it reads as the gaps with the values between them. -/
theorem renderText_of_sound (hl : Divides s.toList l)
    (hcut : Line.cut s.toList = l.trimmed) (hsteady : Steady vars a s.toList)
    (hf : l.pieces.findSome? (Piece.fault? vars a s) = none) :
    ∃ v, renderText vars a s = .ok v ∧ v.plain.toList = l.filled (shown vars a) ∧
      (∀ x, l = ⟨[([], x)], []⟩ → evaluate vars a (Text.trim x) = .ok v) ∧
      ((∀ x, l ≠ ⟨[([], x)], []⟩) → v = .str (String.ofList (l.filled (shown vars a)))) := by
  by_cases hwhole : ∃ x, l = ⟨[([], x)], []⟩
  · obtain ⟨x, rfl⟩ := hwhole
    have hx := hsteady.slots hl _ List.mem_cons_self (a.child 0)
    obtain ⟨v, hv⟩ := ((Line.sound_iff s).mp hf).2 _ List.mem_cons_self |>.2
    refine ⟨v, ?_, ?_, ?_, fun hne => absurd rfl (hne x)⟩
    · rw [renderText_whole hcut rfl, hx, hv]
    · simp [Line.filled, shown_of_ok hv]
    · intro y hy
      cases hy
      exact hv
  · have hne : ∀ x, l ≠ ⟨[([], x)], []⟩ := fun x hx => hwhole ⟨x, hx⟩
    have hfill := fill_trimmed s l.tail (hsteady.slots hl) a
    rw [hf] at hfill
    refine ⟨.str (String.ofList (l.filled (shown vars a))), ?_, ?_, ?_, fun _ => rfl⟩
    · rw [renderText_filled hcut hne]
      exact congrArg _ hfill
    · simp [Json.plain]
    · exact fun x hx => absurd hx (hne x)

end Divided

/-- Placeholders never overlap and divide a text in one way. If the values of its expressions do not
depend on chance or time, the text is rendered unless one of its pieces is at fault, the first of which
is then the reason; the result reads as the gaps with the values between them, not scanned again, and is
the value itself if the text is a single placeholder. -/
theorem text_rendered_by_pieces (vars : Keyed Json) (a : Ambient) (s : String) :
    (∀ i j x y, Occurs s.toList i x → Occurs s.toList j y → i ≤ j →
      (i = j ∧ x = y) ∨ i + (placeholder x).length ≤ j) ∧
    ∃ l, Divides s.toList l ∧ (∀ l', Divides s.toList l' → l' = l) ∧
      (Steady vars a s.toList →
        (∀ f, render vars a (.str s) = .error f ↔
          l.pieces.findSome? (Piece.fault? vars a s) = some f) ∧
        ((∃ v, render vars a (.str s) = .ok v) ↔
          (∀ gap ∈ l.gaps, ¬ ['\x7b', '\x7b'] <:+: gap) ∧
            ∀ t ∈ l.slots, Text.trim t.2 ≠ [] ∧ ∃ v, evaluate vars a (Text.trim t.2) = .ok v) ∧
        ∀ v, render vars a (.str s) = .ok v →
          v.plain.toList = l.filled (shown vars a) ∧
          (∀ x, l = ⟨[([], x)], []⟩ → evaluate vars a (Text.trim x) = .ok v) ∧
          ((∀ x, l ≠ ⟨[([], x)], []⟩) → v = .str (String.ofList (l.filled (shown vars a))))) := by
  constructor
  · intro i j x y hx hy hij
    obtain rfl | hlt := Nat.eq_or_lt_of_le hij
    · exact .inl ⟨rfl, hx.unique hy⟩
    · exact .inr (hx.disjoint hy hlt)
  · obtain ⟨l, hl, hcut⟩ := Divides.exists_cut s.toList
    refine ⟨l, hl, fun l' hl' => hl'.unique hl, fun hsteady => ?_⟩
    simp only [render]
    rw [← Line.sound_iff s]
    cases hf : l.pieces.findSome? (Piece.fault? vars a s) with
    | some f =>
      rw [renderText_of_fault hl hcut hsteady hf]
      simp
    | none =>
      obtain ⟨v, hv, hresult⟩ := renderText_of_sound hl hcut hsteady hf
      rw [hv]
      refine ⟨by simp, by simp, fun w hw => ?_⟩
      cases hw
      exact hresult

/-- Of three opening braces the first belongs to the gap. A list is shown as JSON text. -/
theorem three_braces_rendered (a : Ambient) :
    ∃ vars s l, vars = [("all", .arr [.ofNat 1, .str "b"]), ("user", .obj [("id", .ofNat 7)])] ∧
      s = "\x7b\x7b\x7b user.id \x7d\x7d of \x7b\x7ball\x7d\x7d" ∧
      Steady vars a s.toList ∧ Divides s.toList l ∧
      render vars a (.str s) = .ok (.str "\x7b7 of [1,\"b\"]") ∧
      l.filled (shown vars a) = "\x7b7 of [1,\"b\"]".toList := by
  let vars : Keyed Json := [("all", .arr [.ofNat 1, .str "b"]), ("user", .obj [("id", .ofNat 7)])]
  let s := "\x7b\x7b\x7b user.id \x7d\x7d of \x7b\x7ball\x7d\x7d"
  have hcut : Line.cut s.toList =
      ⟨[(['\x7b'], "user.id".toList), (" of ".toList, "all".toList)], []⟩ := by decide +kernel
  have huser (b : Ambient) : evaluate vars b "user.id".toList = .ok (.ofNat 7) :=
    evaluate_of_lookup (by decide) rfl
  have hall (b : Ambient) : evaluate vars b "all".toList = .ok (.arr [.ofNat 1, .str "b"]) :=
    evaluate_of_lookup (by decide) rfl
  have hsteady : Steady vars a s.toList := Steady.of_cut fun t ht b => by
    rw [hcut] at ht
    simp only [List.mem_cons, List.not_mem_nil, or_false] at ht
    obtain rfl | rfl := ht
    · rw [huser, huser]
    · rw [hall, hall]
  have hvalue : render vars a (.str s) = .ok (.str "\x7b7 of [1,\"b\"]") := by
    rw [render, renderText, hcut]
    simp only [fill, huser, hall]
    rfl
  obtain ⟨-, l, hl, -, hrendered⟩ := text_rendered_by_pieces vars a s
  exact ⟨vars, s, l, rfl, rfl, hsteady, hl, hvalue, ((hrendered hsteady).2.2 _ hvalue).1.symm⟩

end Template
end TopicLoad
