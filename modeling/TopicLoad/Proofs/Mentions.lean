import TopicLoad.Engine.Context
import TopicLoad.Proofs.Templates

/-! What rendering reads. Of the variables only those count whose names begin the expressions of a template,
and what they are bound to is put in as it is, with all the braces in it. -/
namespace TopicLoad
namespace Template

/-- The name of the variable that an expression reads: all that stands before its first point. -/
def root (expr : List Char) : String := String.ofList (expr.takeWhile (· ≠ '.'))

/-- A text of the template has an expression that reads the variable. -/
def Mentions (v : Json) (name : String) : Prop :=
  ∃ s ∈ v.texts, ∃ i x, Occurs s.toList i x ∧ root (Text.trim x) = name

def fickle : List String := ["randomNumber", "randomString", "uuid", "timestamp"]

/-- An expression that calls none of the functions of chance and time, with or without arguments. -/
def Lasting (expr : List Char) : Prop :=
  ∀ f ∈ fickle, expr ≠ '$' :: f.toList ∧
    ∀ args, '\n' ∉ args → expr ≠ '$' :: f.toList ++ '(' :: args ++ [')']

theorem mentions_iff {v : Json} {name : String} :
    Mentions v name ↔ ∃ s ∈ v.texts, ∃ t ∈ (Line.cut s.toList).slots, root t.2 = name := by
  constructor
  · rintro ⟨s, hs, i, x, hx, rfl⟩
    obtain ⟨t, ht, htrim⟩ := hx.mem_cut
    exact ⟨s, hs, t, ht, by rw [htrim]⟩
  · rintro ⟨s, hs, t, ht, rfl⟩
    obtain ⟨l, hl, hcut⟩ := Divides.exists_cut s.toList
    rw [hcut, Line.trimmed] at ht
    obtain ⟨slot, hslot, rfl⟩ := List.mem_map.mp ht
    obtain ⟨i, hi⟩ := hl.exists_occurs_iff.mpr ⟨slot, hslot, rfl⟩
    exact ⟨s, hs, i, slot.2, hi, rfl⟩

variable {vars vars' : Keyed Json} {a : Ambient}

theorem splitAt_eq_cons (separator : Char) (cs : List Char) :
    ∃ parts, splitAt separator cs = cs.takeWhile (· ≠ separator) :: parts := by
  induction cs with
  | nil => exact ⟨[], rfl⟩
  | cons c cs ih =>
    obtain ⟨parts, hparts⟩ := ih
    by_cases hc : c = separator
    · exact ⟨splitAt separator cs, by simp [splitAt, hc]⟩
    · exact ⟨parts, by simp [splitAt, hc, hparts]⟩

section Congruence

theorem lookup_congr {path : List Char} (h : vars.get? (root path) = vars'.get? (root path)) :
    lookup vars path = lookup vars' path := by
  obtain ⟨parts, hparts⟩ := splitAt_eq_cons '.' path
  simp only [lookup, hparts]
  exact congrArg (Option.bind · _) h

theorem evaluate_congr {expr : List Char} (h : vars.get? (root expr) = vars'.get? (root expr))
    (a : Ambient) : evaluate vars a expr = evaluate vars' a expr := by
  simp only [evaluate, lookup_congr h]

theorem fill_congr {slots : List (List Char × List Char)}
    (h : ∀ s ∈ slots, ∀ a, evaluate vars a s.2 = evaluate vars' a s.2) (source : String) (a : Ambient)
    (tail : List Char) : fill vars source a slots tail = fill vars' source a slots tail := by
  induction slots generalizing a with
  | nil => rfl
  | cons s slots ih =>
    have hslots := ih (fun t ht => h t (List.mem_cons_of_mem s ht)) (a.child 1)
    simp only [fill, h s List.mem_cons_self, hslots]

theorem renderText_congr {s : String}
    (h : ∀ t ∈ (Line.cut s.toList).slots, ∀ a, evaluate vars a t.2 = evaluate vars' a t.2) (a : Ambient) :
    renderText vars a s = renderText vars' a s := by
  simp only [renderText]
  split
  · next expr hwhole =>
    exact h ([], expr) (by rw [hwhole]; exact List.mem_cons_self) (a.child 0)
  · next slots tail _ hline =>
    rw [hline] at h
    rw [fill_congr h]

theorem renderItems_congr {vs : List Json} (h : ∀ v ∈ vs, ∀ a, render vars a v = render vars' a v)
    (a : Ambient) : renderItems vars a vs = renderItems vars' a vs := by
  induction vs generalizing a with
  | nil => rfl
  | cons v vs ih =>
    have hitems := ih (fun w hw => h w (List.mem_cons_of_mem v hw)) (a.child 1)
    simp only [renderItems, h v List.mem_cons_self, hitems]

theorem renderMembers_congr {ms : List (String × Json)}
    (hnames : ∀ m ∈ ms, ∀ a, renderText vars a m.1 = renderText vars' a m.1)
    (hvalues : ∀ m ∈ ms, ∀ a, render vars a m.2 = render vars' a m.2) (a : Ambient) (done : Keyed Json) :
    renderMembers vars a done ms = renderMembers vars' a done ms := by
  induction ms generalizing a done with
  | nil => rfl
  | cons m ms ih =>
    obtain ⟨name, v⟩ := m
    have hmembers := ih (fun d hd => hnames d (List.mem_cons_of_mem _ hd))
      fun d hd => hvalues d (List.mem_cons_of_mem _ hd)
    simp only [renderMembers, hnames _ List.mem_cons_self, hvalues _ List.mem_cons_self, hmembers]

theorem render_congr {v : Json} (h : ∀ s ∈ v.texts, ∀ a, renderText vars a s = renderText vars' a s)
    (a : Ambient) : render vars a v = render vars' a v := by
  induction v generalizing a with
  | null | bool | num => rfl
  | str s => exact h s List.mem_cons_self a
  | arr vs ih =>
    have hitems := Json.forall_texts_arr.mp h
    simp only [render, renderItems_congr fun v hv => ih v hv (hitems v hv)]
  | obj ms ih =>
    have hmembers := Json.forall_texts_obj.mp h
    simp only [render, renderMembers_congr (fun m hm => (hmembers m hm).1)
      fun m hm => ih m hm (hmembers m hm).2]

theorem render_eq_of_mentioned {v : Json} (h : ∀ name, Mentions v name → vars.get? name = vars'.get? name)
    (a : Ambient) : render vars a v = render vars' a v :=
  render_congr (fun s hs => renderText_congr fun t ht =>
    evaluate_congr (h (root t.2) (mentions_iff.mpr ⟨s, hs, t, ht, rfl⟩))) a

end Congruence

section Calls

theorem eq_of_call?_eq_some {expr name args : List Char} (h : call? expr = some (name, args)) :
    '\n' ∉ args ∧ expr = '$' :: name ++ '(' :: args ++ [')'] := by
  unfold call? at h
  split at h
  · next cs =>
    dsimp only at h
    split at h
    · next rest hrest =>
      split at h
      · next hcall =>
        obtain ⟨-, hlast, hline⟩ := hcall
        obtain ⟨inner, rfl⟩ := List.getLast?_eq_some_iff.mp hlast
        simp only [List.dropLast_concat, Option.some.injEq, Prod.mk.injEq] at h
        obtain ⟨rfl, rfl⟩ := h
        have hcs := List.takeWhile_append_dropWhile (p := Text.isWord) (l := cs)
        rw [hrest] at hcs
        refine ⟨fun hargs => hline (List.mem_append_left _ hargs), ?_⟩
        simpa using hcs.symm
      · cases h
    · cases h
  · cases h

theorem callBuiltin_eq_error {name : List Char} (h : String.ofList name ∉ fickle) (a : Ambient)
    (args : List Char) : callBuiltin a name args = .error (.unknownFunction (String.ofList name)) := by
  simp only [fickle, List.mem_cons, List.not_mem_nil, or_false, not_or] at h
  obtain ⟨hnumber, hstring, huuid, htimestamp⟩ := h
  simp only [callBuiltin]

theorem lasting_of_head? {expr : List Char} (h : expr.head? ≠ some '$') : Lasting expr := by
  refine fun f _ => ⟨?_, fun args _ => ?_⟩
  · rintro rfl
    exact h rfl
  · rintro rfl
    exact h rfl

theorem Lasting.evaluate_eq {expr : List Char} (h : Lasting expr) (b : Ambient) :
    evaluate vars b expr = evaluate vars a expr := by
  have hcall {name args : List Char} (hexpr : expr = '$' :: name ∨
      '\n' ∉ args ∧ expr = '$' :: name ++ '(' :: args ++ [')']) (c : Ambient) :
      callBuiltin c name args = .error (.unknownFunction (String.ofList name)) := by
    refine callBuiltin_eq_error (fun hf => ?_) c args
    obtain ⟨hbare, hargs⟩ := h _ hf
    rw [String.toList_ofList] at hbare hargs
    rcases hexpr with hexpr | ⟨hline, hexpr⟩
    · exact hbare hexpr
    · exact hargs args hline hexpr
  simp only [evaluate]
  split_ifs with hexpr
  · rfl
  · cases lookup vars expr with
    | some v => rfl
    | none =>
      cases hc : call? expr with
      | some call =>
        obtain ⟨name, args⟩ := call
        have hspan := eq_of_call?_eq_some hc
        simp only [hcall (.inr hspan)]
      | none =>
        simp only
        split
        · next name => simp only [hcall (.inl rfl)]
        · rfl

end Calls
section Verbatim

theorem Line.filled_congr {l : Line} {text text' : List Char → List Char}
    (h : ∀ t ∈ l.slots, text t.2 = text' t.2) : l.filled text = l.filled text' := by
  have hslots : l.slots.flatMap (fun t => t.1 ++ text t.2) = l.slots.flatMap fun t => t.1 ++ text' t.2 :=
    List.flatMap_congr fun t ht => by rw [h t ht]
  rw [filled, filled, hslots]

theorem renderText_bound {s : String} {l : Line} (hl : Divides s.toList l)
    (hgaps : ∀ gap ∈ l.gaps, ¬ ['\x7b', '\x7b'] <:+: gap) {value : List Char → Json}
    (hvalue : ∀ t ∈ l.slots, Text.trim t.2 ≠ [] ∧ lookup vars (Text.trim t.2) = some (value t.2))
    (a : Ambient) :
    ∃ w, renderText vars a s = .ok w ∧ w.plain.toList = l.filled (fun x => (value x).plain.toList) ∧
      ∀ x, l = ⟨[([], x)], []⟩ → w = value x := by
  have hexpr (b : Ambient) : ∀ t ∈ l.slots, evaluate vars b (Text.trim t.2) = .ok (value t.2) := fun t ht =>
    evaluate_of_lookup (hvalue t ht).1 (hvalue t ht).2
  have hsteady : Steady vars a s.toList := fun i x hx b => by
    obtain ⟨t, ht, rfl⟩ := hl.exists_occurs_iff.mp ⟨i, hx⟩
    rw [hexpr b t ht, hexpr a t ht]
  have hsound : l.pieces.findSome? (Piece.fault? vars a s) = none :=
    (Line.sound_iff s).mpr ⟨hgaps, fun t ht => ⟨(hvalue t ht).1, value t.2, hexpr a t ht⟩⟩
  have hcut : Line.cut s.toList = l.trimmed := by
    obtain ⟨l', hl', hcut⟩ := Divides.exists_cut s.toList
    rwa [hl'.unique hl] at hcut
  obtain ⟨w, hw, hplain, hwhole, -⟩ := renderText_of_sound hl hcut hsteady hsound
  refine ⟨w, hw, ?_, fun x hx => ?_⟩
  · rw [hplain]
    exact Line.filled_congr fun t ht => shown_of_ok (hexpr a t ht)
  · have hx' := hwhole x hx
    rw [hexpr a ([], x) (hx ▸ List.mem_cons_self)] at hx'
    exact (Except.ok.inj hx').symm

end Verbatim

/-- What a template becomes depends on the variables that its expressions name and on no others, which may
be bound, bound anew or unbound at will; and if none of its expressions calls a function of chance or time,
it depends on nothing else. What a variable is bound to is not looked through for placeholders. -/
theorem rendering_reads_mentioned_only (v : Json) :
    (∀ vars vars' : Keyed Json, (∀ name, Mentions v name → vars.get? name = vars'.get? name) →
      (∀ a, render vars a v = render vars' a v) ∧
      ((∀ s ∈ v.texts, ∀ i x, Occurs s.toList i x →
          Lasting (Text.trim x) ∨ lookup vars (Text.trim x) ≠ none) →
        ∀ a b, render vars a v = render vars' b v)) ∧
    (∀ (vars : Engine.Vars) name w, ¬ Mentions v name → ∀ a, render (vars.set name w) a v = render vars a v) ∧
    ∀ (vars : Keyed Json) (s : String) l (value : List Char → Json), Divides s.toList l →
      (∀ gap ∈ l.gaps, ¬ ['\x7b', '\x7b'] <:+: gap) →
      (∀ t ∈ l.slots, Text.trim t.2 ≠ [] ∧ lookup vars (Text.trim t.2) = some (value t.2)) →
      ∀ a, ∃ w, render vars a (.str s) = .ok w ∧
        w.plain.toList = l.filled (fun x => (value x).plain.toList) ∧
        ∀ x, l = ⟨[([], x)], []⟩ → w = value x := by
  refine ⟨fun vars vars' h => ⟨render_eq_of_mentioned h, fun hlasting a b => ?_⟩, ?_, ?_⟩
  · have hsteady : ∀ s ∈ v.texts, Steady vars a s.toList := fun s hs i x hx c => by
      rcases hlasting s hs i x hx with hlast | hbound
      · exact hlast.evaluate_eq c
      · exact evaluate_eq_of_bound hbound c
    rw [← render_steady hsteady b]
    exact render_eq_of_mentioned h b
  · intro vars name w hname a
    refine render_eq_of_mentioned (fun k hk => ?_) a
    have hne : name ≠ k := fun h => hname (h ▸ hk)
    exact (vars.get?_set name w k).trans (if_neg hne)
  · intro vars s l value hl hgaps hvalue a
    exact renderText_bound hl hgaps hvalue a

/-- The text of one variable is put in with its braces, whatever the variable that it names is bound to. -/
theorem unread_variable_changed :
    ∃ (v : Json) (vars vars' : Keyed Json),
      v = .obj [("\x7b\x7bkey\x7d\x7d", .arr [.str "\x7b\x7b text.0 \x7d\x7d!"])] ∧
      vars.get? "secret" ≠ vars'.get? "secret" ∧
      (∀ name, Mentions v name → vars.get? name = vars'.get? name) ∧
      (∀ s ∈ v.texts, ∀ i x, Occurs s.toList i x → Lasting (Text.trim x)) ∧
      ∀ a b, render vars a v = .ok (.obj [("k", .arr [.str "\x7b\x7bsecret\x7d\x7d!"])]) ∧
        render vars' b v = .ok (.obj [("k", .arr [.str "\x7b\x7bsecret\x7d\x7d!"])]) := by
  let v : Json := .obj [("\x7b\x7bkey\x7d\x7d", .arr [.str "\x7b\x7b text.0 \x7d\x7d!"])]
  let vars : Keyed Json :=
    [("key", .str "k"), ("secret", .str "s"), ("text", .arr [.str "\x7b\x7bsecret\x7d\x7d"])]
  let vars' : Keyed Json := [("key", .str "k"), ("text", .arr [.str "\x7b\x7bsecret\x7d\x7d"])]
  have hread : ∀ s ∈ v.texts, ∀ t ∈ (Line.cut s.toList).slots,
      t.2.head? ≠ some '$' ∧ (root t.2 = "key" ∨ root t.2 = "text") := by decide +kernel
  have hagree : ∀ name, Mentions v name → vars.get? name = vars'.get? name := by
    intro name hname
    obtain ⟨s, hs, t, ht, rfl⟩ := mentions_iff.mp hname
    rcases (hread s hs t ht).2 with hroot | hroot
    · rw [hroot]
      rfl
    · rw [hroot]
      rfl
  have hlasting : ∀ s ∈ v.texts, ∀ i x, Occurs s.toList i x → Lasting (Text.trim x) := by
    intro s hs i x hx
    obtain ⟨t, ht, htrim⟩ := hx.mem_cut
    rw [← htrim]
    exact lasting_of_head? (hread s hs t ht).1
  have hkey (a : Ambient) : renderText vars a "\x7b\x7bkey\x7d\x7d" = .ok (.str "k") :=
    renderText_of_lookup "key".toList (by decide +kernel) (by decide) rfl
  have htext (a : Ambient) : renderText vars a "\x7b\x7b text.0 \x7d\x7d!" =
      .ok (.str "\x7b\x7bsecret\x7d\x7d!") := by
    have hcut : Line.cut "\x7b\x7b text.0 \x7d\x7d!".toList = ⟨[([], "text.0".toList)], ['!']⟩ := by
      decide +kernel
    have hvalue (b : Ambient) : evaluate vars b "text.0".toList = .ok (.str "\x7b\x7bsecret\x7d\x7d") :=
      evaluate_of_lookup (by decide) rfl
    rw [renderText, hcut]
    simp only [fill, hvalue]
    rfl
  have hrender (a : Ambient) :
      render vars a v = .ok (.obj [("k", .arr [.str "\x7b\x7bsecret\x7d\x7d!"])]) := by
    simp only [v, render, renderMembers, renderItems, hkey, htext]
    rfl
  refine ⟨v, vars, vars', rfl, by simp [vars, vars'], hagree, hlasting, fun a b => ⟨hrender a, ?_⟩⟩
  rw [← ((rendering_reads_mentioned_only v).1 vars vars' hagree).2
    (fun s hs i x hx => .inl (hlasting s hs i x hx)) a b]
  exact hrender a

end Template
end TopicLoad
