import Mathlib.Data.List.Forall2
import Mathlib.Data.List.Induction
import Mathlib.Tactic.Choose
import TopicLoad.Proofs.ByteOrder
import TopicLoad.Proofs.Interpolation

/-! What rendering makes of a whole template. Its texts, the names of members included, are rendered one
after another, and the first that cannot be rendered is the reason why the template cannot. What comes of a
template has its shape, but for names that become equal: of those the last one keeps its value. -/
namespace TopicLoad

namespace Keyed

variable {α β : Type} {m : Keyed α} {k : String} {v : α}

/-- If the bindings of a map are renamed and bound anew in their order, a name is bound to what comes of the
greatest name that has become it. -/
theorem get?_ofList_map_iff (h : m.Ordered) (f : String × α → String × β) {u : β} :
    get? (ofList (m.map f)) k = some u ↔
      ∃ e ∈ m, f e = (k, u) ∧ ∀ d ∈ m, (f d).1 = k → d.1 ≤ e.1 := by
  induction m using List.reverseRecOn with
  | nil => simp [ofList]
  | append_singleton m e ih =>
    obtain ⟨hm, -, hbelow⟩ := List.pairwise_append.mp h
    have hlt : ∀ d ∈ m, d.1 < e.1 := fun d hd => hbelow d hd e List.mem_cons_self
    have hlast : ofList ((m ++ [e]).map f) = insert (f e).1 (f e).2 (ofList (m.map f)) := by
      simp [ofList]
    rw [hlast, get?_insert]
    -- The greatest name is bound last, so it has the say if it has become `k`, and none otherwise.
    by_cases hk : (f e).1 = k
    · rw [if_pos hk]
      constructor
      · intro hu
        have hfe : f e = (k, u) := Prod.ext hk (Option.some.inj hu)
        refine ⟨e, by simp, hfe, fun d hd _ => ?_⟩
        rcases List.mem_append.mp hd with hd | hd
        · exact Std.le_of_lt (hlt d hd)
        · exact List.mem_singleton.mp hd ▸ Std.le_refl e.1
      · rintro ⟨d, hd, hfd, hgreatest⟩
        have hed : e.1 ≤ d.1 := hgreatest e (by simp) hk
        rcases List.mem_append.mp hd with hd | hd
        · exact absurd (hlt d hd) (String.not_lt.mpr hed)
        · rw [← List.mem_singleton.mp hd, hfd]
    · rw [if_neg hk, ih hm]
      constructor
      · rintro ⟨d, hd, hfd, hgreatest⟩
        refine ⟨d, List.mem_append_left _ hd, hfd, fun d' hd' hk' => ?_⟩
        rcases List.mem_append.mp hd' with hd' | hd'
        · exact hgreatest d' hd' hk'
        · rw [List.mem_singleton.mp hd'] at hk'
          exact absurd hk' hk
      · rintro ⟨d, hd, hfd, hgreatest⟩
        have hmem : d ∈ m := by
          rcases List.mem_append.mp hd with hd | hd
          · exact hd
          · rw [← List.mem_singleton.mp hd, hfd] at hk
            exact absurd rfl hk
        exact ⟨d, hmem, hfd, fun d' hd' => hgreatest d' (List.mem_append_left _ hd')⟩

theorem mem_ofList_map_fst_iff {l : List (String × α)} :
    k ∈ (ofList l).map Prod.fst ↔ k ∈ l.map Prod.fst := by
  induction l using List.reverseRecOn with
  | nil => simp [ofList]
  | append_singleton l e ih =>
    have hlast : ofList (l ++ [e]) = insert e.1 e.2 (ofList l) := by simp [ofList]
    rw [hlast, List.map_append, List.mem_append, ← ih, mem_map_fst_iff, mem_map_fst_iff]
    by_cases hk : e.1 = k
    · simp [get?_insert, hk]
    · simp [get?_insert, hk, Ne.symm hk]

theorem eq_ofList_map_iff (h : m.Ordered) (f : String × α → String × β) {n : Keyed β} (hn : n.Ordered) :
    n = ofList (m.map f) ↔
      (∀ k, k ∈ n.map Prod.fst ↔ ∃ e ∈ m, (f e).1 = k) ∧
        ∀ e ∈ m, (∀ d ∈ m, (f d).1 = (f e).1 → d.1 ≤ e.1) → n.get? (f e).1 = some (f e).2 := by
  have hkeys (k : String) : k ∈ (ofList (m.map f)).map Prod.fst ↔ ∃ e ∈ m, (f e).1 = k := by
    rw [mem_ofList_map_fst_iff]
    simp only [List.map_map, List.mem_map, Function.comp_apply]
  constructor
  · rintro rfl
    exact ⟨hkeys, fun e he hgreatest => (get?_ofList_map_iff h f).mpr ⟨e, he, rfl, hgreatest⟩⟩
  · rintro ⟨hnames, hlast⟩
    refine eq_of_get?_eq hn (ordered_ofList _) fun k => ?_
    cases hk : get? (ofList (m.map f)) k with
    | some u =>
      obtain ⟨e, he, hfe, hgreatest⟩ := (get?_ofList_map_iff h f).mp hk
      have hbound := hlast e he (by rwa [hfe])
      rwa [hfe] at hbound
    | none =>
      have hfree : k ∉ n.map Prod.fst := by
        rw [hnames, ← hkeys, mem_map_fst_iff, hk]
        simp
      cases hn : get? n k with
      | none => rfl
      | some u => exact absurd (mem_map_fst_iff.mpr ⟨u, hn⟩) hfree

end Keyed
namespace Json

/-- What holds of the values that hold no others, and of every other value if it holds of all values right
within it, holds of every value. -/
@[induction_eliminator]
theorem induct {P : Json → Prop} (null : P .null) (bool : ∀ b, P (.bool b)) (num : ∀ n, P (.num n))
    (str : ∀ s, P (.str s)) (arr : ∀ vs, (∀ v ∈ vs, P v) → P (.arr vs))
    (obj : ∀ ms, (∀ m ∈ ms, P m.2) → P (.obj ms)) (v : Json) : P v := by
  match v with
  | .null => exact null
  | .bool b => exact bool b
  | .num n => exact num n
  | .str s => exact str s
  | .arr vs => exact arr vs fun v _ => induct null bool num str arr obj v
  | .obj ms => exact obj ms fun m _ => induct null bool num str arr obj m.2
termination_by v
decreasing_by
  · have hitem := List.sizeOf_lt_of_mem ‹v ∈ vs›
    simp only [Json.arr.sizeOf_spec]
    omega
  · obtain ⟨name, v⟩ := m
    have hmember := List.sizeOf_lt_of_mem ‹(name, v) ∈ ms›
    simp only [Json.obj.sizeOf_spec, Prod.mk.sizeOf_spec] at hmember ⊢
    omega

mutual

/-- The texts in a value, the names of members included, in the order in which they are rendered. -/
def texts : Json → List String
  | .str s => [s]
  | .arr vs => itemTexts vs
  | .obj ms => memberTexts ms
  | _ => []

def itemTexts : List Json → List String
  | [] => []
  | v :: vs => texts v ++ itemTexts vs

def memberTexts : List (String × Json) → List String
  | [] => []
  | (name, v) :: ms => name :: (texts v ++ memberTexts ms)

end

@[simp] theorem texts_arr (vs : List Json) : texts (.arr vs) = vs.flatMap texts := by
  have hitems : itemTexts vs = vs.flatMap texts := by
    induction vs with
    | nil => rfl
    | cons v vs ih => simp [itemTexts, ih]
  simp [texts, hitems]

@[simp] theorem texts_obj (ms : List (String × Json)) :
    texts (.obj ms) = ms.flatMap fun m => m.1 :: texts m.2 := by
  have hmembers : memberTexts ms = ms.flatMap fun m => m.1 :: texts m.2 := by
    induction ms with
    | nil => rfl
    | cons m ms ih => simp [memberTexts, ih]
  simp [texts, hmembers]

theorem forall_texts_arr {P : String → Prop} {vs : List Json} :
    (∀ s ∈ texts (.arr vs), P s) ↔ ∀ v ∈ vs, ∀ s ∈ v.texts, P s := by
  simp only [texts_arr, List.mem_flatMap]
  grind

theorem forall_texts_obj {P : String → Prop} {ms : List (String × Json)} :
    (∀ s ∈ texts (.obj ms), P s) ↔ ∀ m ∈ ms, P m.1 ∧ ∀ s ∈ m.2.texts, P s := by
  simp only [texts_obj, List.mem_flatMap, List.mem_cons]
  constructor
  · exact fun h m hm => ⟨h m.1 ⟨m, hm, .inl rfl⟩, fun s hs => h s ⟨m, hm, .inr hs⟩⟩
  · rintro h s ⟨m, hm, rfl | hs⟩
    · exact (h m hm).1
    · exact (h m hm).2 s hs

/-- In every object within a value the names ascend in the order of their bytes. -/
inductive Sorted : Json → Prop where
  | null : Sorted .null
  | bool (b : Bool) : Sorted (.bool b)
  | num (n : Number) : Sorted (.num n)
  | str (s : String) : Sorted (.str s)
  | arr {vs : List Json} (h : ∀ v ∈ vs, Sorted v) : Sorted (.arr vs)
  | obj {ms : List (String × Json)}
    (hnames : ms.Pairwise fun a b => Text.bytes a.1.toList < Text.bytes b.1.toList)
    (h : ∀ m ∈ ms, Sorted m.2) : Sorted (.obj ms)

end Json

namespace Template

section Attempts

variable {α β : Type} {f : α → Except Fault β} {xs : List α} {ys : List β}

def failure? : Except Fault α → Option Fault
  | .ok _ => none
  | .error f => some f

theorem failure?_eq_some_iff {r : Except Fault α} {e : Fault} : failure? r = some e ↔ r = .error e := by
  cases r <;> simp [failure?]

theorem failure?_eq_none_iff {r : Except Fault α} : failure? r = none ↔ ∃ x, r = .ok x := by
  cases r <;> simp [failure?]

@[simp] theorem failure?_map (g : α → β) (r : Except Fault α) : failure? (g <$> r) = failure? r := by
  cases r <;> rfl

theorem map_eq_ok_iff {g : α → β} {r : Except Fault α} {y : β} :
    g <$> r = .ok y ↔ ∃ x, r = .ok x ∧ g x = y := by
  cases r with
  | error f => simp [Functor.map, Except.map]
  | ok x => simp [Functor.map, Except.map]

/-- If what goes wrong in every attempt is the first that goes wrong in parts of it, then so it is in the
attempts one after another. -/
theorem failure?_mapM {parts : α → List String} {part : String → Option Fault}
    (h : ∀ x ∈ xs, failure? (f x) = (parts x).findSome? part) :
    failure? (xs.mapM f) = (xs.flatMap parts).findSome? part := by
  induction xs with
  | nil => rfl
  | cons x xs ih =>
    rw [List.flatMap_cons, List.findSome?_append, ← h x List.mem_cons_self,
      ← ih fun y hy => h y (List.mem_cons_of_mem x hy), List.mapM_cons]
    cases f x with
    | error e => rfl
    | ok y => cases xs.mapM f <;> rfl

theorem mapM_eq_ok_iff {R : α → β → Prop} (h : ∀ x ∈ xs, ∀ y, f x = .ok y ↔ R x y) :
    xs.mapM f = .ok ys ↔ List.Forall₂ R xs ys := by
  induction xs generalizing ys with
  | nil => simp [pure, Except.pure, eq_comm]
  | cons x xs ih =>
    rw [List.mapM_cons, List.forall₂_cons_left_iff]
    simp only [← h x List.mem_cons_self, ← ih fun y hy => h y (List.mem_cons_of_mem x hy)]
    cases f x with
    | error e => simp [bind, Except.bind]
    | ok y => cases xs.mapM f <;> simp [bind, Except.bind, pure, Except.pure, eq_comm]

theorem mapM_eq_ok_map {g : α → β} (h : ∀ x ∈ xs, f x = .ok (g x)) : xs.mapM f = .ok (xs.map g) := by
  rw [mapM_eq_ok_iff fun _ _ _ => Iff.rfl, List.forall₂_map_right_iff, List.forall₂_same]
  exact h

theorem exists_of_mapM_eq_ok (h : xs.mapM f = .ok ys) : ∀ x ∈ xs, ∃ y, f x = .ok y := by
  have hall := (mapM_eq_ok_iff fun _ _ _ => Iff.rfl).mp h
  clear h
  induction hall with
  | nil => simp
  | cons hx _ ih => exact List.forall_mem_cons.mpr ⟨⟨_, hx⟩, ih⟩

end Attempts

section Throughout

variable {vars : Keyed Json} {a : Ambient}

theorem Steady.renderText_eq {s : String} (h : Steady vars a s.toList) (b : Ambient) :
    renderText vars b s = renderText vars a s := by
  obtain ⟨l, hl, hcut⟩ := Divides.exists_cut s.toList
  have hslots := h.slots hl
  by_cases hwhole : ∃ x, l = ⟨[([], x)], []⟩
  · obtain ⟨x, rfl⟩ := hwhole
    have hx := hslots _ List.mem_cons_self
    rw [renderText_whole hcut rfl, renderText_whole hcut rfl]
    exact (hx _).trans (hx _).symm
  · have hne : ∀ x, l ≠ ⟨[([], x)], []⟩ := fun x hx => hwhole ⟨x, hx⟩
    have hfill (c : Ambient) := fill_trimmed s l.tail hslots c
    rw [renderText_filled hcut hne, renderText_filled hcut hne]
    exact congrArg _ ((hfill b).trans (hfill a).symm)

variable (vars a) in
def member (m : String × Json) : Except Fault (String × Json) := do
  let name ← renderText vars a m.1
  let v ← render vars a m.2
  .ok (name.plain, v)

theorem failure?_member (m : String × Json) :
    failure? (member vars a m) =
      (failure? (renderText vars a m.1)).or (failure? (render vars a m.2)) := by
  simp only [member]
  cases renderText vars a m.1 with
  | error f => rfl
  | ok name => cases render vars a m.2 <;> rfl

theorem member_eq_ok_iff {m w : String × Json} :
    member vars a m = .ok w ↔
      (∃ v, renderText vars a m.1 = .ok v ∧ v.plain = w.1) ∧ render vars a m.2 = .ok w.2 := by
  obtain ⟨name, v⟩ := w
  simp only [member]
  cases renderText vars a m.1 with
  | error f => simp [bind, Except.bind]
  | ok t => cases render vars a m.2 <;> simp [bind, Except.bind]

theorem mapM_member_eq_ok_iff {ms ws : List (String × Json)} :
    ms.mapM (member vars a) = .ok ws ↔
      ∃ shown, (∀ m ∈ ms, member vars a m = .ok (shown m)) ∧ ms.map shown = ws := by
  constructor
  · intro h
    let shown (m : String × Json) : String × Json :=
      match member vars a m with
      | .ok w => w
      | .error _ => m
    have hshown : ∀ m ∈ ms, member vars a m = .ok (shown m) := fun m hm => by
      obtain ⟨w, hw⟩ := exists_of_mapM_eq_ok h m hm
      simp only [shown, hw]
    rw [mapM_eq_ok_map hshown] at h
    exact ⟨shown, hshown, Except.ok.inj h⟩
  · rintro ⟨shown, hshown, rfl⟩
    exact mapM_eq_ok_map hshown

theorem renderItems_eq {vs : List Json} (h : ∀ v ∈ vs, ∀ b, render vars b v = render vars a v)
    (b : Ambient) : renderItems vars b vs = vs.mapM (render vars a) := by
  induction vs generalizing b with
  | nil => rfl
  | cons v vs ih =>
    have htail := ih fun w hw => h w (List.mem_cons_of_mem v hw)
    simp only [renderItems, List.mapM_cons, h v List.mem_cons_self, htail]
    rfl

theorem renderMembers_eq {ms : List (String × Json)}
    (hnames : ∀ m ∈ ms, ∀ b, renderText vars b m.1 = renderText vars a m.1)
    (hvalues : ∀ m ∈ ms, ∀ b, render vars b m.2 = render vars a m.2) (b : Ambient) (done : Keyed Json) :
    renderMembers vars b done ms = done.override <$> ms.mapM (member vars a) := by
  induction ms generalizing b done with
  | nil => rfl
  | cons m ms ih =>
    obtain ⟨name, v⟩ := m
    have htail := ih (fun d hd => hnames d (List.mem_cons_of_mem _ hd))
      fun d hd => hvalues d (List.mem_cons_of_mem _ hd)
    simp only [renderMembers, List.mapM_cons, member, hnames _ List.mem_cons_self,
      hvalues _ List.mem_cons_self, htail]
    cases renderText vars a name with
    | error f => rfl
    | ok t =>
      cases render vars a v with
      | error f => rfl
      | ok w => cases ms.mapM (member vars a) <;> rfl

theorem render_steady {v : Json} (h : ∀ s ∈ v.texts, Steady vars a s.toList) (b : Ambient) :
    render vars b v = render vars a v := by
  induction v generalizing b with
  | null | bool | num => rfl
  | str s => exact (h s List.mem_cons_self).renderText_eq b
  | arr vs ih =>
    have hitems := Json.forall_texts_arr.mp h
    simp only [render, renderItems_eq fun v hv => ih v hv (hitems v hv)]
  | obj ms ih =>
    have hmembers := Json.forall_texts_obj.mp h
    simp only [render, renderMembers_eq (fun m hm => (hmembers m hm).1.renderText_eq)
      fun m hm => ih m hm (hmembers m hm).2]

theorem render_arr {vs : List Json} (h : ∀ s ∈ (Json.arr vs).texts, Steady vars a s.toList) :
    render vars a (.arr vs) = .arr <$> vs.mapM (render vars a) := by
  have hitems := Json.forall_texts_arr.mp h
  simp only [render, renderItems_eq fun v hv => render_steady (hitems v hv)]

theorem render_obj {ms : List (String × Json)} (h : ∀ s ∈ (Json.obj ms).texts, Steady vars a s.toList) :
    render vars a (.obj ms) = (fun ws => .obj (Keyed.ofList ws)) <$> ms.mapM (member vars a) := by
  have hmembers := Json.forall_texts_obj.mp h
  simp only [render, renderMembers_eq (fun m hm => (hmembers m hm).1.renderText_eq)
    fun m hm => render_steady (hmembers m hm).2]
  cases ms.mapM (member vars a) <;> rfl

theorem failure?_render {v : Json} (h : ∀ s ∈ v.texts, Steady vars a s.toList) :
    failure? (render vars a v) = v.texts.findSome? fun s => failure? (renderText vars a s) := by
  induction v with
  | null | bool | num => rfl
  | str s => simp [Json.texts, render]
  | arr vs ih =>
    have hitems := Json.forall_texts_arr.mp h
    rw [render_arr h, failure?_map, Json.texts_arr]
    exact failure?_mapM fun v hv => ih v hv (hitems v hv)
  | obj ms ih =>
    have hmembers := Json.forall_texts_obj.mp h
    rw [render_obj h, failure?_map, Json.texts_obj]
    refine failure?_mapM fun m hm => ?_
    rw [failure?_member, ih m hm (hmembers m hm).2, List.findSome?_cons]
    cases failure? (renderText vars a m.1) <;> rfl

end Throughout

/-- What comes of a template. A text that is a name of a member stands as plain text; the names of an
object that comes of another are all its names after rendering, and each is bound to what comes of the
value of the greatest name that it has come of. -/
inductive Rendered (vars : Keyed Json) (a : Ambient) : Json → Json → Prop where
  | null : Rendered vars a .null .null
  | bool (b : Bool) : Rendered vars a (.bool b) (.bool b)
  | num (n : Json.Number) : Rendered vars a (.num n) (.num n)
  | str {s : String} {w : Json} (h : renderText vars a s = .ok w) : Rendered vars a (.str s) w
  | arr {vs ws : List Json} (h : List.Forall₂ (Rendered vars a) vs ws) :
    Rendered vars a (.arr vs) (.arr ws)
  | obj {ms ws : Keyed Json} (shown : String × Json → String × Json)
    (hnames : ∀ m ∈ ms, ∃ v, renderText vars a m.1 = .ok v ∧ v.plain = (shown m).1)
    (hvalues : ∀ m ∈ ms, Rendered vars a m.2 (shown m).2)
    (hordered : ws.Ordered)
    (hkeys : ∀ k, k ∈ ws.map Prod.fst ↔ ∃ m ∈ ms, (shown m).1 = k)
    (hlast : ∀ m ∈ ms,
      (∀ d ∈ ms, (shown d).1 = (shown m).1 → Text.bytes d.1.toList ≤ Text.bytes m.1.toList) →
        ws.get? (shown m).1 = some (shown m).2) :
    Rendered vars a (.obj ms) (.obj ws)

section Throughout

variable {vars : Keyed Json} {a : Ambient}

theorem render_eq_ok_iff {v w : Json} (hv : v.Sorted) (h : ∀ s ∈ v.texts, Steady vars a s.toList) :
    render vars a v = .ok w ↔ Rendered vars a v w := by
  induction v generalizing w with
  | null | bool | num =>
    constructor
    · rintro ⟨⟩
      constructor
    · rintro ⟨⟩
      rfl
  | str s =>
    constructor
    · exact fun hw => .str hw
    · rintro ⟨⟩
      assumption
  | arr vs ih =>
    cases hv with
    | arr hsorted =>
      have hitems := Json.forall_texts_arr.mp h
      have hall {ws : List Json} : vs.mapM (render vars a) = .ok ws ↔ List.Forall₂ (Rendered vars a) vs ws :=
        mapM_eq_ok_iff fun v hv w => ih v hv (hsorted v hv) (hitems v hv)
      rw [render_arr h, map_eq_ok_iff]
      constructor
      · rintro ⟨ws, hws, rfl⟩
        exact .arr (hall.mp hws)
      · rintro (_ | _ | _ | _ | hws)
        exact ⟨_, hall.mpr hws, rfl⟩
  | obj ms ih =>
    cases hv with
    | obj hnames hsorted =>
      have hordered : Keyed.Ordered ms := Keyed.ordered_iff_bytes.mpr hnames
      have hmembers := Json.forall_texts_obj.mp h
      have hvalue {m : String × Json} (hm : m ∈ ms) {w : Json} :
          render vars a m.2 = .ok w ↔ Rendered vars a m.2 w :=
        ih m hm (hsorted m hm) (hmembers m hm).2
      rw [render_obj h, map_eq_ok_iff]
      constructor
      · rintro ⟨_, hws, rfl⟩
        -- Names may have become one by rendering: then the member stays whose name was the last before.
        obtain ⟨shown, hshown, rfl⟩ := mapM_member_eq_ok_iff.mp hws
        obtain ⟨hkeys, hlast⟩ := (Keyed.eq_ofList_map_iff hordered shown (Keyed.ordered_ofList _)).mp rfl
        simp only [← Text.bytes_le_iff] at hlast
        exact .obj shown (fun m hm => (member_eq_ok_iff.mp (hshown m hm)).1)
          (fun m hm => (hvalue hm).mp (member_eq_ok_iff.mp (hshown m hm)).2)
          (Keyed.ordered_ofList _) hkeys hlast
      · rintro (_ | _ | _ | _ | _ | ⟨shown, hnames, hvalues, hws, hkeys, hlast⟩)
        have hshown : ∀ m ∈ ms, member vars a m = .ok (shown m) := fun m hm =>
          member_eq_ok_iff.mpr ⟨hnames m hm, (hvalue hm).mpr (hvalues m hm)⟩
        simp only [Text.bytes_le_iff] at hlast
        have hlist := (Keyed.eq_ofList_map_iff hordered shown hws).mpr ⟨hkeys, hlast⟩
        exact ⟨_, mapM_member_eq_ok_iff.mpr ⟨shown, hshown, rfl⟩, congrArg Json.obj hlist.symm⟩

theorem Occurs.opens {cs : List Char} {i : Nat} {x : List Char} (h : Occurs cs i x) :
    ['\x7b', '\x7b'] <:+: cs := by
  have hopen : ['\x7b', '\x7b'] <+: placeholder x := ⟨_, rfl⟩
  exact (hopen.trans h.2).isInfix.trans (List.drop_suffix i cs).isInfix

theorem Steady.of_closed {cs : List Char} (h : ¬ ['\x7b', '\x7b'] <:+: cs) : Steady vars a cs :=
  fun _ _ hx => absurd hx.opens h

theorem evaluate_eq_of_bound {expr : List Char} (h : lookup vars expr ≠ none) (b : Ambient) :
    evaluate vars b expr = evaluate vars a expr := by
  obtain ⟨v, hv⟩ := Option.ne_none_iff_exists'.mp h
  by_cases hexpr : expr = []
  · rw [hexpr, evaluate_nil, evaluate_nil]
  · rw [evaluate_of_lookup hexpr hv, evaluate_of_lookup hexpr hv]

theorem Steady.of_bound {cs : List Char} (h : ∀ s ∈ (Line.cut cs).slots, lookup vars s.2 ≠ none) :
    Steady vars a cs :=
  .of_cut fun s hs => evaluate_eq_of_bound (h s hs)

theorem renderText_of_lookup {s : String} (expr : List Char) {v : Json}
    (hcut : Line.cut s.toList = ⟨[([], expr)], []⟩) (hexpr : expr ≠ []) (hv : lookup vars expr = some v) :
    renderText vars a s = .ok v := by
  rw [renderText, hcut]
  exact evaluate_of_lookup hexpr hv

theorem renderText_closed {s : String} (h : ¬ ['\x7b', '\x7b'] <:+: s.toList) :
    renderText vars a s = .ok (.str s) := by
  obtain ⟨⟨slots, tail⟩, hl, hcut⟩ := Divides.exists_cut s.toList
  cases slots with
  | cons t slots => exact absurd hl.occurs_first.opens h
  | nil =>
    have htail : tail = s.toList := hl.joined
    have hopen : Line.isOpen s.toList = false := by
      rw [← Bool.not_eq_true, Line.isOpen_iff]
      exact h
    rw [renderText_filled hcut (by simp), htail]
    simp [Line.trimmed, fill, hopen, Except.map]

theorem Rendered.of_closed {v : Json} (hv : v.Sorted)
    (h : ∀ s ∈ v.texts, ¬ ['\x7b', '\x7b'] <:+: s.toList) : Rendered vars a v v := by
  induction v with
  | null => exact .null
  | bool b => exact .bool b
  | num n => exact .num n
  | str s => exact .str (renderText_closed (h s List.mem_cons_self))
  | arr vs ih =>
    cases hv with
    | arr hsorted =>
      have hitems := Json.forall_texts_arr.mp h
      exact .arr (List.forall₂_same.mpr fun v hv => ih v hv (hsorted v hv) (hitems v hv))
  | obj ms ih =>
    cases hv with
    | obj hnames hsorted =>
      have hordered : Keyed.Ordered ms := Keyed.ordered_iff_bytes.mpr hnames
      have hmembers := Json.forall_texts_obj.mp h
      refine .obj id (fun m hm => ⟨.str m.1, renderText_closed (hmembers m hm).1, rfl⟩)
        (fun m hm => ih m hm (hsorted m hm) (hmembers m hm).2) hordered (fun k => List.mem_map) ?_
      exact fun m hm _ => (Keyed.get?_eq_some_iff hordered).mpr hm

end Throughout

/-- A template is rendered unless one of its texts cannot be, the first of which is then the reason; what
comes of it has its shape, and of an object only the members are lost whose names become equal to that of a
later one. A template without pairs of opening braces stands for itself. -/
theorem template_rendered_throughout (v : Json) (hv : v.Sorted) :
    (∀ vars a, (∀ s ∈ v.texts, Steady vars a s.toList) →
      (∀ w, render vars a v = .ok w ↔ Rendered vars a v w) ∧
      ((∃ f, render vars a v = .error f) ↔
        ∃ s ∈ v.texts, ∃ f, render vars a (.str s) = .error f) ∧
      ∀ f, render vars a v = .error f ↔
        ∃ before s after, v.texts = before ++ s :: after ∧ render vars a (.str s) = .error f ∧
          ∀ t ∈ before, ∃ w, render vars a (.str t) = .ok w) ∧
    ((∀ s ∈ v.texts, ¬ ['\x7b', '\x7b'] <:+: s.toList) → ∀ vars a, render vars a v = .ok v) := by
  constructor
  · intro vars a hsteady
    have hfailure := failure?_render hsteady
    refine ⟨fun w => render_eq_ok_iff hv hsteady, ?_, fun f => ?_⟩
    · simp only [← failure?_eq_some_iff, hfailure, render, ← Option.isSome_iff_exists,
        List.isSome_findSome?, List.any_eq_true]
    · rw [← failure?_eq_some_iff, hfailure, List.findSome?_eq_some_iff]
      simp only [failure?_eq_some_iff, failure?_eq_none_iff, render]
  · intro hclosed vars a
    have hsteady : ∀ s ∈ v.texts, Steady vars a s.toList := fun s hs => .of_closed (hclosed s hs)
    exact (render_eq_ok_iff hv hsteady).mpr (.of_closed hv hclosed)

/-- The last member takes the name of the first, whose value is lost. -/
theorem colliding_names_rendered :
    ∃ vars v w,
      v = .obj [("a", .str "\x7b\x7bold\x7d\x7d"), ("b", .bool true),
        ("\x7b\x7bkey\x7d\x7d", .arr [.str "\x7b\x7b n \x7d\x7d"])] ∧
      w = .obj [("a", .arr [.ofNat 5]), ("b", .bool true)] ∧ v.Sorted ∧
      ∀ a, (∀ s ∈ v.texts, Steady vars a s.toList) ∧ render vars a v = .ok w ∧ Rendered vars a v w := by
  let vars : Keyed Json := [("key", .str "a"), ("n", .ofNat 5), ("old", .null)]
  let v : Json := .obj [("a", .str "\x7b\x7bold\x7d\x7d"), ("b", .bool true),
    ("\x7b\x7bkey\x7d\x7d", .arr [.str "\x7b\x7b n \x7d\x7d"])]
  have hsorted : v.Sorted := .obj (by decide +kernel) (by
    simp only [List.forall_mem_cons, List.not_mem_nil, false_imp_iff, implies_true, and_true]
    exact ⟨.str _, .bool _, .arr (by simp [Json.Sorted.str])⟩)
  have hbound : ∀ s ∈ v.texts, ∀ t ∈ (Line.cut s.toList).slots, lookup vars t.2 ≠ none := by
    decide +kernel
  refine ⟨vars, v, _, rfl, rfl, hsorted, fun a => ?_⟩
  have hsteady : ∀ s ∈ v.texts, Steady vars a s.toList := fun s hs => .of_bound (hbound s hs)
  have hold (b : Ambient) : renderText vars b "\x7b\x7bold\x7d\x7d" = .ok .null :=
    renderText_of_lookup "old".toList (by decide +kernel) (by decide) rfl
  have hkey (b : Ambient) : renderText vars b "\x7b\x7bkey\x7d\x7d" = .ok (.str "a") :=
    renderText_of_lookup "key".toList (by decide +kernel) (by decide) rfl
  have hn (b : Ambient) : renderText vars b "\x7b\x7b n \x7d\x7d" = .ok (.ofNat 5) :=
    renderText_of_lookup "n".toList (by decide +kernel) (by decide) rfl
  have hplain (b : Ambient) : renderText vars b "a" = .ok (.str "a") ∧ renderText vars b "b" = .ok (.str "b") :=
    ⟨renderText_closed (by decide), renderText_closed (by decide)⟩
  have hvalue : render vars a v = .ok (.obj [("a", .arr [.ofNat 5]), ("b", .bool true)]) := by
    simp only [v, render, renderMembers, renderItems, hplain, hold, hkey, hn]
    rfl
  exact ⟨hsteady, hvalue, (((template_rendered_throughout v hsorted).1 vars a hsteady).1 _).mp hvalue⟩

end Template
end TopicLoad
