import TopicLoad.Proofs.Templates

/-! Every value within a variable can be had by its address: the name of the variable and what leads from its
value to the other, with points between them. -/
namespace TopicLoad

namespace Decimal

/-- A numeral for a number below a bound: decimal digits, with a plus sign in front of them or without. -/
def Numeral (bound : Nat) (cs : List Char) (n : Nat) : Prop :=
  ∃ ds, (cs = ds ∨ cs = '+' :: ds) ∧ ds ≠ [] ∧ (∀ d ∈ ds, d.isDigit) ∧
    Nat.ofDigitChars 10 ds 0 = n ∧ n < bound

variable {bound n : Nat} {cs : List Char}

theorem readNat_eq_some_iff : readNat bound cs = some n ↔ Numeral bound cs n := by
  have hdigits (ds : List Char) :
      (if ds ≠ [] ∧ ds.all Char.isDigit ∧ value ds < bound then some (value ds) else none) = some n ↔
        ds ≠ [] ∧ (∀ d ∈ ds, d.isDigit) ∧ Nat.ofDigitChars 10 ds 0 = n ∧ n < bound := by
    have hvalue : value ds = Nat.ofDigitChars 10 ds 0 := rfl
    rw [Option.ite_none_right_eq_some, List.all_eq_true, Option.some.injEq, hvalue]
    constructor
    · rintro ⟨⟨hne, hall, hbound⟩, rfl⟩
      exact ⟨hne, hall, rfl, hbound⟩
    · rintro ⟨hne, hall, rfl, hbound⟩
      exact ⟨⟨hne, hall, hbound⟩, rfl⟩
  by_cases hplus : ∃ r, cs = '+' :: r
  · obtain ⟨r, rfl⟩ := hplus
    constructor
    · exact fun h => ⟨r, .inr rfl, (hdigits r).mp h⟩
    · rintro ⟨ds, hds | hds, hnumber⟩
      · have hdigit := hnumber.2.1 '+' (hds ▸ List.mem_cons_self)
        exact absurd hdigit (by decide)
      · cases hds
        exact (hdigits r).mpr hnumber
  · have hread : readNat bound cs =
        if cs ≠ [] ∧ cs.all Char.isDigit ∧ value cs < bound then some (value cs) else none := by
      -- This rules out the first case of the match.
      have hbare : ∀ r, cs = '+' :: r → False := fun r hr => hplus ⟨r, hr⟩
      simp only [readNat]
    rw [hread, hdigits]
    constructor
    · exact fun h => ⟨cs, .inl rfl, h⟩
    · rintro ⟨ds, rfl | hds, hnumber⟩
      · exact hnumber
      · exact absurd ⟨ds, hds⟩ hplus

theorem numeral_digits (h : n < bound) : Numeral bound (digits n) n :=
  ⟨digits n, .inl rfl, Nat.toDigits_ne_nil,
    fun _ hd => Nat.isDigit_of_mem_toDigits (by decide) (by decide) hd,
    Nat.ofDigitChars_toDigits (by decide) (by decide), h⟩

end Decimal

namespace Json

/-- A path leads from a value to another within it: in an object to the value of a member by its name, in an
array to an item by a numeral of its place. -/
inductive Within : Json → List String → Json → Prop where
  | here (v : Json) : Within v [] v
  | member {ms : Keyed Json} {name : String} {w u : Json} {path : List String}
    (hw : ms.get? name = some w) (hu : Within w path u) : Within (.obj ms) (name :: path) u
  | item {vs : List Json} {i : Nat} {p : String} {w u : Json} {path : List String}
    (hp : Decimal.Numeral Limits.bits64 p.toList i) (hw : vs[i]? = some w) (hu : Within w path u) :
    Within (.arr vs) (p :: path) u

end Json

namespace Template

open Json (Within)

theorem splitAt_eq_splitOn (separator : Char) (cs : List Char) :
    splitAt separator cs = cs.splitOn separator := by
  induction cs with
  | nil => rfl
  | cons c cs ih =>
    by_cases hc : c = separator
    · simp [splitAt, hc, ih, List.splitOn, List.splitOnP_cons_eq_if_modifyHead]
    · obtain ⟨part, parts, hparts⟩ := List.exists_cons_of_ne_nil (List.splitOnP_ne_nil (· == separator) cs)
      simp only [splitAt, hc, ih, if_false, List.splitOn, List.splitOnP_cons_eq_if_modifyHead, beq_iff_eq]
      simp [hparts]

theorem follow_eq_some_iff {v u : Json} {path : List String} :
    follow v (path.map String.toList) = some u ↔ Within v path u := by
  induction path generalizing v with
  | nil =>
    rw [List.map_nil, follow, Option.some.injEq]
    constructor
    · rintro rfl
      exact .here v
    · rintro ⟨⟩
      rfl
  | cons p path ih =>
    rw [List.map_cons]
    cases v with
    | obj ms =>
      simp only [follow, String.ofList_toList]
      constructor
      · intro h
        cases hw : Keyed.get? ms p with
        | none => simp [hw] at h
        | some w =>
          rw [hw] at h
          exact .member hw (ih.mp h)
      · rintro (_ | ⟨hw, hu⟩)
        rw [hw]
        exact ih.mpr hu
    | arr vs =>
      simp only [follow]
      constructor
      · intro h
        split at h
        · next w hw =>
          obtain ⟨i, hi, hitem⟩ := Option.bind_eq_some_iff.mp hw
          exact .item (Decimal.readNat_eq_some_iff.mp hi) hitem (ih.mp h)
        · cases h
      · rintro (_ | _ | ⟨hp, hw, hu⟩)
        rw [Decimal.readNat_eq_some_iff.mpr hp, Option.bind_some, hw]
        exact ih.mpr hu
    | null | bool | num | str =>
      constructor
      · intro h
        simp [follow] at h
      · rintro ⟨⟩

namespace Bare

theorem append_iff {x y : List Char} : Bare (x ++ y) ↔ Bare x ∧ Bare y := List.forall_mem_append

theorem of_blank {cs : List Char} (h : ∀ c ∈ cs, Text.isBlank c) : Bare cs := by
  intro c hc
  have hblank := h c hc
  have hopen : c ≠ '\x7b' := by
    rintro rfl
    exact absurd hblank (by decide +kernel)
  have hclose : c ≠ '\x7d' := by
    rintro rfl
    exact absurd hblank (by decide +kernel)
  simp [Line.isBrace, hopen, hclose]

theorem joined {parts : List (List Char)} (h : ∀ cs ∈ parts, Bare cs) :
    Bare (['.'].intercalate parts) := by
  induction parts with
  | nil => exact nil
  | cons cs parts ih =>
    have hrest := ih fun ds hds => h ds (List.mem_cons_of_mem cs hds)
    cases parts with
    | nil =>
      rw [List.intercalate_singleton]
      exact h cs List.mem_cons_self
    | cons ds parts =>
      rw [List.intercalate_cons_cons, append_iff, append_iff]
      exact ⟨⟨h cs List.mem_cons_self, by simp [Bare, Line.isBrace]⟩, hrest⟩

end Bare

/-- The name of a variable and a path from its value, with points between them. -/
def address (name : String) (path : List String) : String := ".".intercalate (name :: path)

/-- An address that can be read again: there are no points in its parts nor braces, and no blanks at either
end. -/
structure Writable (name : String) (path : List String) : Prop where
  plain : ∀ s ∈ name :: path, ∀ c ∈ s.toList, c ≠ '.' ∧ c ≠ '\x7b' ∧ c ≠ '\x7d'
  nonempty : address name path ≠ ""
  first : ∀ c, (address name path).toList.head? = some c → Text.isBlank c = false
  last : ∀ c, (address name path).toList.getLast? = some c → Text.isBlank c = false

variable {vars : Keyed Json} {name : String} {path : List String}

theorem address_toList (name : String) (path : List String) :
    (address name path).toList = ['.'].intercalate ((name :: path).map String.toList) :=
  String.toList_intercalate

namespace Writable

theorem bare_address (h : Writable name path) : Bare (address name path).toList := by
  have hsegments : ∀ s ∈ name :: path, Bare s.toList := fun s hs c hc => by
    obtain ⟨-, hopen, hclose⟩ := h.plain s hs c hc
    simp [Line.isBrace, hopen, hclose]
  rw [address_toList]
  refine Bare.joined fun cs hcs => ?_
  obtain ⟨s, hs, rfl⟩ := List.mem_map.mp hcs
  exact hsegments s hs

theorem lookup_eq_some_iff (h : Writable name path) {u : Json} :
    lookup vars (address name path).toList = some u ↔
      ∃ v, vars.get? name = some v ∧ Within v path u := by
  have hpoint : ∀ cs ∈ (name :: path).map String.toList, '.' ∉ cs := by
    intro cs hcs hmem
    obtain ⟨s, hs, rfl⟩ := List.mem_map.mp hcs
    exact (h.plain s hs '.' hmem).1 rfl
  have hsplit : splitAt '.' (address name path).toList = name.toList :: path.map String.toList := by
    rw [splitAt_eq_splitOn, address_toList, List.splitOn_intercalate '.' hpoint (by simp), List.map_cons]
  simp only [lookup, hsplit, String.ofList_toList, Option.bind_eq_some_iff, follow_eq_some_iff]

end Writable

theorem cut_placeholder {x : List Char} (hx : Bare x) :
    Line.cut (placeholder x) = ⟨[([], Text.trim x)], []⟩ := by
  have hdivides : Divides (placeholder x) (Line.slot x ⟨[], []⟩) := by
    simpa using Divides.slot hx Divides.nil
  obtain ⟨l, hl, hcut⟩ := Divides.exists_cut (placeholder x)
  rw [hcut, hl.unique hdivides]
  rfl

theorem evaluate_undefined {expr : List Char} (hexpr : expr ≠ []) (hnone : lookup vars expr = none)
    (hcall : expr.head? ≠ some '$') (a : Ambient) :
    evaluate vars a expr = .error (.undefined (String.ofList expr)) := by
  cases expr with
  | nil => exact absurd rfl hexpr
  | cons c cs =>
    have hc : c ≠ '$' := fun h => hcall (congrArg some h)
    simp [evaluate, hnone, call?, hc]

theorem Writable.cut_padded (h : Writable name path) {s : String} {pad pad' : List Char}
    (hpad : ∀ c ∈ pad, Text.isBlank c) (hpad' : ∀ c ∈ pad', Text.isBlank c)
    (hs : s.toList = placeholder (pad ++ (address name path).toList ++ pad')) :
    Line.cut s.toList = ⟨[([], (address name path).toList)], []⟩ := by
  have hbare : Bare (pad ++ (address name path).toList ++ pad') :=
    Bare.append_iff.mpr ⟨Bare.append_iff.mpr ⟨.of_blank hpad, h.bare_address⟩, .of_blank hpad'⟩
  have htrim : Text.trim (pad ++ (address name path).toList ++ pad') = (address name path).toList := by
    rw [List.append_assoc, Text.trim_blanks_append _ _ hpad, Text.trim_append_blanks hpad',
      Text.trim_eq_self h.first h.last]
  rw [hs, cut_placeholder hbare, htrim]

/-- A placeholder around an address, with any blanks between, becomes the value at that address, as it is.
If there is none, that is the reason for a failure, unless the address begins like a call. -/
theorem values_within_addressed (vars : Keyed Json) (a : Ambient) (name : String) (path : List String)
    (hwritable : Writable name path) (pad pad' : List Char) (hpad : ∀ c ∈ pad, Text.isBlank c)
    (hpad' : ∀ c ∈ pad', Text.isBlank c) (s : String)
    (hs : s.toList = placeholder (pad ++ (address name path).toList ++ pad')) :
    (∀ v u, vars.get? name = some v → Within v path u → render vars a (.str s) = .ok u) ∧
    ((∀ v u, vars.get? name = some v → ¬ Within v path u) →
      (address name path).toList.head? ≠ some '$' →
        render vars a (.str s) = .error (.undefined (address name path))) := by
  have hexpr : (address name path).toList ≠ [] := fun h =>
    hwritable.nonempty (String.toList_eq_nil_iff.mp h)
  have hrender : render vars a (.str s) = evaluate vars (a.child 0) (address name path).toList := by
    rw [render, renderText, hwritable.cut_padded hpad hpad' hs]
  constructor
  · intro v u hv hu
    rw [hrender]
    exact evaluate_of_lookup hexpr (hwritable.lookup_eq_some_iff.mpr ⟨v, hv, hu⟩)
  · intro hnone hcall
    have hlookup : lookup vars (address name path).toList = none := by
      cases hu : lookup vars (address name path).toList with
      | none => rfl
      | some u =>
        obtain ⟨v, hv, hwithin⟩ := hwritable.lookup_eq_some_iff.mp hu
        exact absurd hwithin (hnone v u hv)
    rw [hrender, evaluate_undefined hexpr hlookup hcall, String.ofList_toList]

/-- A variable with the name of a function, and an address that leads on from a number. -/
theorem shadowed_function_addressed :
    ∃ vars : Keyed Json,
      vars = [("$uuid", .obj [("a b", .arr [.ofNat 7, .str "x"])]), ("n", .ofNat 7)] ∧
      Writable "$uuid" ["a b", "1"] ∧ Writable "n" ["0"] ∧
      ∀ a, render vars a (.str "\x7b\x7b\t$uuid.a b.1 \x7d\x7d") = .ok (.str "x") ∧
        render vars a (.str "\x7b\x7bn.0\x7d\x7d") = .error (.undefined "n.0") := by
  let vars : Keyed Json := [("$uuid", .obj [("a b", .arr [.ofNat 7, .str "x"])]), ("n", .ofNat 7)]
  have hblank : Text.isBlank '$' = false ∧ Text.isBlank '1' = false ∧ Text.isBlank 'n' = false ∧
      Text.isBlank '0' = false ∧ Text.isBlank '\t' = true ∧ Text.isBlank ' ' = true := by decide +kernel
  obtain ⟨hdollar, hone, hletter, hzero, htab, hspace⟩ := hblank
  have huuid : Writable "$uuid" ["a b", "1"] :=
    { plain := by simp
      nonempty := by decide
      first := fun c hc => Option.some.inj hc ▸ hdollar
      last := fun c hc => Option.some.inj hc ▸ hone }
  have hn : Writable "n" ["0"] :=
    { plain := by simp
      nonempty := by decide
      first := fun c hc => Option.some.inj hc ▸ hletter
      last := fun c hc => Option.some.inj hc ▸ hzero }
  have hplace : Decimal.Numeral Limits.bits64 (Decimal.digits 1) 1 := Decimal.numeral_digits (by decide)
  have hwithin : Within (.obj [("a b", .arr [.ofNat 7, .str "x"])]) ["a b", "1"] (.str "x") :=
    .member rfl (.item hplace rfl (.here _))
  refine ⟨vars, rfl, huuid, hn, fun a => ⟨?_, ?_⟩⟩
  · exact (values_within_addressed vars a "$uuid" ["a b", "1"] huuid ['\t'] [' ']
      (List.forall_mem_singleton.mpr htab) (List.forall_mem_singleton.mpr hspace) _ (by decide)).1 _ _ rfl hwithin
  · refine (values_within_addressed vars a "n" ["0"] hn [] [] (by simp) (by simp) _ (by decide)).2 ?_ (by decide)
    intro v u hv hu
    cases hv
    cases hu

end Template
end TopicLoad
