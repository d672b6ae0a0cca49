import TopicLoad.Proofs.Magnitude

/-! Think times as text. A text is a number and perhaps a unit, with blanks around; it is never both a
number with one unit and a number with another, and stands for the duration for which the number stands
that its seconds are. -/
namespace TopicLoad

namespace Double

/-! ## The characters of numbers -/

/-- Characters of which numbers are made. They are no blanks, and units have none of them. -/
structure IsNumeral (c : Char) : Prop where
  above : 0x20 < c.toNat
  below : c.toNat < 0x7f
  not_s : c ≠ 's'
  not_m : c ≠ 'm'

instance (c : Char) : Decidable (IsNumeral c) :=
  decidable_of_iff (0x20 < c.toNat ∧ c.toNat < 0x7f ∧ c ≠ 's' ∧ c ≠ 'm')
    ⟨fun ⟨habove, hbelow, hs, hm⟩ => ⟨habove, hbelow, hs, hm⟩,
      fun h => ⟨h.above, h.below, h.not_s, h.not_m⟩⟩

namespace IsNumeral

variable {c d : Char}

theorem not_blank (h : IsNumeral c) : Text.isBlank c = false := by
  have habove := h.above
  have hbelow := h.below
  simp [Text.isBlank, Text.blanks, Text.Ranges.has]
  omega

theorem of_isDigit (h : c.isDigit = true) : IsNumeral c := by
  have hrange : 48 ≤ c.toNat ∧ c.toNat ≤ 57 := by
    simpa [Char.isDigit, UInt32.le_iff_toNat_le] using h
  exact ⟨by omega, by omega, by rintro rfl; exact absurd hrange (by decide),
    by rintro rfl; exact absurd hrange (by decide)⟩

theorem of_toLower (h : c.toLower = d) (hd : IsNumeral d) : IsNumeral c := by
  rw [Char.toLower] at h
  split at h
  · next hupper =>
    have hrange : 65 ≤ c.toNat ∧ c.toNat ≤ 90 := by
      simpa [UInt32.le_iff_toNat_le] using hupper
    exact ⟨by omega, by omega, by rintro rfl; exact absurd hrange (by decide),
      by rintro rfl; exact absurd hrange (by decide)⟩
  · exact h ▸ hd

end IsNumeral

theorem isNumeral_of_all_isDigit {ds : List Char} (h : ds.all Char.isDigit = true) :
    ∀ c ∈ ds, IsNumeral c :=
  fun c hc => .of_isDigit (List.all_eq_true.mp h c hc)

theorem isNumeral_of_unsigned {cs body : List Char} {negative : Bool}
    (h : (match cs with
      | '-' :: r => (true, r)
      | '+' :: r => (false, r)
      | _ => (false, cs)) = (negative, body)) (hbody : ∀ c ∈ body, IsNumeral c) :
    ∀ c ∈ cs, IsNumeral c := by
  split at h <;> cases h
  · exact List.forall_mem_cons.mpr ⟨by decide, hbody⟩
  · exact List.forall_mem_cons.mpr ⟨by decide, hbody⟩
  · exact hbody

theorem isNumeral_of_readExponent {cs : List Char} {e : Int} (h : readExponent cs = some e) :
    ∀ c ∈ cs, IsNumeral c := by
  unfold readExponent at h
  split at h
  next ds hsign =>
  split at h
  · next hds => exact isNumeral_of_unsigned hsign (isNumeral_of_all_isDigit hds.2)
  · cases h

theorem isNumeral_of_readMagnitude {cs : List Char} {x : Float} (h : readMagnitude cs = some x) :
    ∀ c ∈ cs, IsNumeral c := by
  have hdigits (ds : List Char) : ∀ c ∈ ds.takeWhile Char.isDigit, IsNumeral c :=
    isNumeral_of_all_isDigit (List.all_takeWhile)
  unfold readMagnitude at h
  extract_lets whole rest at h
  split at h
  next places rest' hrest =>
  split at h
  · cases h
  -- What is left after the places is nothing or an exponent.
  have hend : ∀ c ∈ rest', IsNumeral c := by
    split at h
    · simp
    · next c r =>
      split at h
      · next hletter =>
        obtain ⟨e, he, -⟩ := Option.map_eq_some_iff.mp h
        refine List.forall_mem_cons.mpr ⟨?_, isNumeral_of_readExponent he⟩
        rcases hletter with rfl | rfl <;> decide
      · cases h
  rw [← cs.takeWhile_append_dropWhile (p := Char.isDigit)]
  refine List.forall_mem_append.mpr ⟨hdigits cs, ?_⟩
  change ∀ c ∈ rest, IsNumeral c
  clear_value rest
  split at hrest <;> cases hrest
  · next r _ =>
    rw [← r.takeWhile_append_dropWhile (p := Char.isDigit)]
    exact List.forall_mem_cons.mpr ⟨by decide, List.forall_mem_append.mpr ⟨hdigits r, hend⟩⟩
  · exact hend

theorem isNumeral_of_ofText? {cs : List Char} {x : Float} (h : ofText? cs = some x) :
    ∀ c ∈ cs, IsNumeral c := by
  have hword {body : List Char} {word : String} (hbody : String.ofList (body.map Char.toLower) = word)
      (hw : ∀ c ∈ word.toList, IsNumeral c) : ∀ c ∈ body, IsNumeral c := by
    intro c hc
    rw [← hbody, String.toList_ofList] at hw
    exact .of_toLower rfl (hw _ (List.mem_map_of_mem hc))
  unfold ofText? at h
  split at h
  next negative body hsign =>
  refine isNumeral_of_unsigned hsign ?_
  extract_lets lower at h
  split at h
  · next hnan => exact hword hnan (by simp; decide)
  · split at h
    · next hinf =>
      rcases hinf with hinf | hinf
      · exact hword hinf (by simp; decide)
      · exact hword hinf (by simp; decide)
    · obtain ⟨y, hy, -⟩ := Option.map_eq_some_iff.mp h
      exact isNumeral_of_readMagnitude hy

end Double

namespace Think

/-! ## Units -/

/-- What tells in which unit a text is. -/
inductive TimeUnit where
  | none
  | seconds
  | milliseconds
deriving DecidableEq, Repr

namespace TimeUnit

def chars : TimeUnit → List Char
  | .none => []
  | .seconds => ['s']
  | .milliseconds => ['m', 's']

def inSeconds : TimeUnit → Float → Float
  | .milliseconds, x => x / 1000.0
  | _, x => x

end TimeUnit

theorem beforeUnit?_eq_some_iff {unit cs number : List Char} :
    beforeUnit? unit cs = some number ↔ cs = number ++ unit := by
  simp only [beforeUnit?, List.isSuffixOf_iff_suffix]
  constructor
  · intro h
    split at h
    · next hunit =>
      obtain ⟨front, rfl⟩ := hunit
      simpa [eq_comm] using h
    · cases h
  · rintro rfl
    simp

@[simp] theorem beforeUnit?_append (unit number : List Char) :
    beforeUnit? unit (number ++ unit) = some number :=
  beforeUnit?_eq_some_iff.mpr rfl

def split (cs : List Char) : List Char × TimeUnit :=
  match beforeUnit? ['m', 's'] cs, beforeUnit? ['s'] cs with
  | some number, _ => (Text.trim number, .milliseconds)
  | none, some number => (Text.trim number, .seconds)
  | none, none => (Text.trim cs, .none)

theorem seconds?_eq_split (cs : List Char) :
    seconds? cs = (Double.ofText? (split cs).1).map (split cs).2.inSeconds := by
  have hsame (u : TimeUnit) (hu : u ≠ .milliseconds) : u.inSeconds = id := by
    cases u <;> first | rfl | contradiction
  unfold seconds? split
  cases beforeUnit? ['m', 's'] cs with
  | some number => rfl
  | none => cases beforeUnit? ['s'] cs <;> simp [hsame]

theorem split_milliseconds (front : List Char) :
    split (front ++ ['m', 's']) = (Text.trim front, .milliseconds) := by
  simp only [split, beforeUnit?_append]

theorem split_seconds {front : List Char} (hm : 'm' ∉ front) :
    split (front ++ ['s']) = (Text.trim front, .seconds) := by
  have hms : beforeUnit? ['m', 's'] (front ++ ['s']) = none := by
    refine Option.eq_none_iff_forall_ne_some.mpr fun number hnumber => hm ?_
    have hfront := beforeUnit?_eq_some_iff.mp hnumber
    rw [show number ++ ['m', 's'] = number ++ ['m'] ++ ['s'] by simp,
      List.append_left_inj] at hfront
    simp [hfront]
  simp only [split, hms, beforeUnit?_append]

theorem split_none {cs : List Char} (hs : 's' ∉ cs) : split cs = (Text.trim cs, .none) := by
  have hno (unit : List Char) (hunit : 's' ∈ unit) : beforeUnit? unit cs = none :=
    Option.eq_none_iff_forall_ne_some.mpr fun number hnumber =>
      hs (by simp [beforeUnit?_eq_some_iff.mp hnumber, hunit])
  simp only [split, hno ['m', 's'] (by decide), hno ['s'] (by decide)]

/-! ## Readings -/

/-- A number as it is written, what it is, and its unit. -/
structure Reading where
  number : List Char
  value : Float
  unit : TimeUnit

namespace Reading

def seconds (r : Reading) : Float := r.unit.inSeconds r.value

/-- The text is the number and the unit, with blanks between them. -/
structure Of (r : Reading) (cs : List Char) : Prop where
  value : Double.ofText? r.number = some r.value
  layout : ∃ gap, (∀ c ∈ gap, Text.isBlank c) ∧ (r.unit = .none → gap = []) ∧
    cs = r.number ++ gap ++ r.unit.chars

variable {r r' : Reading} {cs : List Char}

theorem trim_number (h : Double.ofText? r.number = some r.value) : Text.trim r.number = r.number :=
  Text.trim_eq_self
    (fun _ hc => (Double.isNumeral_of_ofText? h _ (List.mem_of_mem_head? hc)).not_blank)
    (fun _ hc => (Double.isNumeral_of_ofText? h _ (List.mem_of_mem_getLast? hc)).not_blank)

/-- No number ends as a unit does, and `m` is no blank; so a text falls apart in one way only. -/
theorem Of.split (h : r.Of cs) : split cs = (r.number, r.unit) := by
  obtain ⟨number, value, unit⟩ := r
  obtain ⟨gap, hgap, hnone, rfl⟩ := h.layout
  have hnumeral := Double.isNumeral_of_ofText? h.value
  have htrim : Text.trim (number ++ gap) = number :=
    (Text.trim_append_blanks hgap).trans (trim_number h.value)
  cases unit with
  | milliseconds => exact (split_milliseconds _).trans (by rw [htrim])
  | seconds =>
    refine (split_seconds fun hm => ?_).trans (by rw [htrim])
    rcases List.mem_append.mp hm with hm | hm
    · exact (hnumeral _ hm).not_m rfl
    · exact absurd (hgap _ hm) (by decide +kernel)
  | none =>
    obtain rfl := hnone rfl
    simp only [TimeUnit.chars, List.append_nil] at htrim ⊢
    exact (split_none fun hs => (hnumeral _ hs).not_s rfl).trans (by rw [htrim])

theorem Of.seconds? (h : r.Of cs) : Think.seconds? cs = some r.seconds := by
  rw [seconds?_eq_split, h.split, h.value]
  rfl

theorem Of.unique (h : r.Of cs) (h' : r'.Of cs) : r = r' := by
  obtain ⟨number, value, unit⟩ := r
  obtain ⟨number', value', unit'⟩ := r'
  obtain ⟨rfl, rfl⟩ := Prod.mk.inj (h.split.symm.trans h'.split)
  obtain rfl := Option.some.inj (h.value.symm.trans h'.value)
  rfl

theorem of_front {front : List Char} {x : Float} (u : TimeUnit)
    (hfirst : ∀ c, (front ++ u.chars).head? = some c → Text.isBlank c = false)
    (hx : Double.ofText? (Text.trim front) = some x) (hu : u ≠ .none) :
    Of ⟨Text.trim front, x, u⟩ (front ++ u.chars) := by
  have hstart : front.dropWhile Text.isBlank = front := by
    cases front with
    | nil => rfl
    | cons c rest => exact List.dropWhile_cons_of_neg (by simp [hfirst c rfl])
  obtain ⟨gap, hgap, hfront⟩ := Text.exists_trimEnd_append front
  refine ⟨hx, gap, hgap, fun h => absurd h hu, ?_⟩
  change _ = Text.trimEnd (front.dropWhile Text.isBlank) ++ gap ++ _
  rw [hstart, ← hfront]

theorem exists_of_seconds? {t : List Char} {x : Float}
    (h : Think.seconds? (Text.trim t) = some x) : ∃ r, Of r (Text.trim t) ∧ r.seconds = x := by
  obtain ⟨cs, hcs⟩ : ∃ cs, cs = Text.trim t := ⟨_, rfl⟩
  have hfirst : ∀ c, cs.head? = some c → Text.isBlank c = false := by
    rw [hcs]
    exact fun _ => Text.head?_trim
  rw [← hcs, seconds?_eq_split] at h
  rw [← hcs]
  obtain ⟨v, hv, rfl⟩ := Option.map_eq_some_iff.mp h
  cases hms : beforeUnit? ['m', 's'] cs with
  | some front =>
    obtain rfl := beforeUnit?_eq_some_iff.mp hms
    simp only [Think.split, hms] at hv ⊢
    exact ⟨_, of_front .milliseconds hfirst hv (by decide), rfl⟩
  | none =>
    cases hs : beforeUnit? ['s'] cs with
    | some front =>
      obtain rfl := beforeUnit?_eq_some_iff.mp hs
      simp only [Think.split, hms, hs] at hv ⊢
      exact ⟨_, of_front .seconds hfirst hv (by decide), rfl⟩
    | none =>
      simp only [Think.split, hms, hs] at hv ⊢
      rw [hcs, Text.trim_trim, ← hcs] at hv
      exact ⟨⟨cs, v, .none⟩, ⟨hv, [], by simp, by simp, by simp [TimeUnit.chars]⟩, rfl⟩

theorem Of.trim (h : r.Of cs) : Text.trim cs = cs := by
  obtain ⟨gap, hgap, hnone, hcs⟩ := h.layout
  have hnumeral := Double.isNumeral_of_ofText? h.value
  refine Text.trim_eq_self (fun c hc => ?_) (fun c hc => ?_)
  · have hne : r.number ≠ [] := fun he => by
      have hempty : Double.ofText? [] = none := rfl
      have hvalue := h.value
      rw [he, hempty] at hvalue
      cases hvalue
    rw [hcs, List.append_assoc, List.head?_append_of_ne_nil _ hne] at hc
    exact (hnumeral _ (List.mem_of_mem_head? hc)).not_blank
  · cases hu : r.unit with
    | none =>
      rw [hcs, hnone hu, hu] at hc
      simp only [TimeUnit.chars, List.append_nil] at hc
      exact (hnumeral _ (List.mem_of_mem_getLast? hc)).not_blank
    | seconds | milliseconds =>
      rw [hcs, hu] at hc
      simp only [TimeUnit.chars, List.getLast?_append] at hc
      cases hc
      decide +kernel

end Reading

/-! ## Durations -/

/-- Seconds for which a duration can last. -/
structure Lasting (q : Float) : Prop where
  finite : q.isFinite = true
  sign : ¬ q < 0.0
  below : q < Double.bits64

/-- Finite seconds that no duration can hold. -/
structure Overlong (q : Float) : Prop where
  finite : q.isFinite = true
  sign : ¬ q < 0.0
  above : ¬ q < Double.bits64

theorem ofSeconds_eq_ok_iff (q : Float) : (∃ d, ofSeconds q = .ok d) ↔ Lasting q := by
  by_cases hbad : ¬ q.isFinite ∨ q < 0.0
  · have hnot : ¬ Lasting q := fun h => hbad.elim (fun hf => hf h.finite) h.sign
    rw [ofSeconds, if_pos hbad]
    simp [hnot]
  · obtain ⟨hfinite, hsign⟩ := not_or.mp hbad
    have hfinite := not_not.mp hfinite
    have hbelow := (Duration.ofSeconds?_isSome_iff q).trans (Double.lt_bits64_iff hfinite hsign).symm
    have hlasting : Lasting q ↔ (Duration.ofSeconds? q).isSome = true :=
      ⟨fun h => hbelow.mpr h.below, fun h => ⟨hfinite, hsign, hbelow.mp h⟩⟩
    rw [hlasting, ofSeconds, if_neg hbad]
    cases Duration.ofSeconds? q <;> simp

theorem ofSeconds_eq_tooLong_iff_overlong (q : Float) :
    ofSeconds q = .error .tooLong ↔ Overlong q :=
  (ofSeconds_eq_tooLong_iff q).trans
    ⟨fun ⟨hf, hs, ha⟩ => ⟨hf, hs, ha⟩, fun h => ⟨h.finite, h.sign, h.above⟩⟩

section Text

variable {s : String} {r : Reading}

theorem ofJson_str_of_reading (h : r.Of (Text.trim s.toList)) :
    ofJson (.str s) = match ofSeconds r.seconds with
      | .error (.invalid _) => .error (.invalid s)
      | result => result := by
  cases hresult : ofSeconds r.seconds with
  | ok d => simp only [ofJson, ofText, h.seconds?, hresult]
  | error f => cases f <;> simp only [ofJson, ofText, h.seconds?, hresult]

theorem ofJson_str_of_lasting (h : r.Of (Text.trim s.toList)) (hq : Lasting r.seconds) :
    ofJson (.str s) = ofSeconds r.seconds := by
  obtain ⟨d, hd⟩ := (ofSeconds_eq_ok_iff _).mpr hq
  rw [ofJson_str_of_reading h, hd]

theorem exists_reading (h : ofJson (.str s) ≠ .error (.invalid s)) :
    ∃ r : Reading, r.Of (Text.trim s.toList) := by
  cases hx : seconds? (Text.trim s.toList) with
  | none =>
    refine absurd ?_ h
    simp only [ofJson, ofText, hx]
  | some x =>
    obtain ⟨r, hr, -⟩ := Reading.exists_of_seconds? hx
    exact ⟨r, hr⟩

theorem ofJson_str_eq_ok_iff : (∃ d, ofJson (.str s) = .ok d) ↔
    ∃ r : Reading, r.Of (Text.trim s.toList) ∧ Lasting r.seconds := by
  constructor
  · rintro ⟨d, hd⟩
    obtain ⟨r, hr⟩ := exists_reading (s := s) (by simp [hd])
    rw [ofJson_str_of_reading hr] at hd
    refine ⟨r, hr, (ofSeconds_eq_ok_iff _).mp ⟨d, ?_⟩⟩
    split at hd
    · cases hd
    · exact hd
  · rintro ⟨r, hr, hq⟩
    rw [ofJson_str_of_lasting hr hq]
    exact (ofSeconds_eq_ok_iff _).mpr hq

theorem ofJson_str_eq_tooLong_iff : ofJson (.str s) = .error .tooLong ↔
    ∃ r : Reading, r.Of (Text.trim s.toList) ∧ Overlong r.seconds := by
  rw [ofJson_eq_tooLong_iff]
  constructor
  · rintro ⟨x, hx, hfinite, hsign, habove⟩
    obtain ⟨r, hr, rfl⟩ := Reading.exists_of_seconds? hx
    exact ⟨r, hr, hfinite, hsign, habove⟩
  · rintro ⟨r, hr, hq⟩
    exact ⟨r.seconds, hr.seconds?, hq.finite, hq.sign, hq.above⟩

theorem ofJson_str_eq_invalid
    (h : ∀ r : Reading, r.Of (Text.trim s.toList) → ¬ Lasting r.seconds ∧ ¬ Overlong r.seconds) :
    ofJson (.str s) = .error (.invalid s) := by
  by_contra hnot
  obtain ⟨r, hr⟩ := exists_reading hnot
  obtain ⟨hlasting, hoverlong⟩ := h r hr
  rw [ofJson_str_of_reading hr] at hnot
  cases hq : ofSeconds r.seconds with
  | ok d => exact hlasting ((ofSeconds_eq_ok_iff _).mp ⟨d, hq⟩)
  | error f =>
    cases f with
    | invalid shown => exact hnot (by rw [hq])
    | tooLong => exact hoverlong ((ofSeconds_eq_tooLong_iff_overlong _).mp hq)

theorem ofJson_str_eq_num (h : r.Of (Text.trim s.toList)) (hq : Lasting r.seconds)
    {n : Json.Number} (hn : n.toFloat = r.seconds) : ofJson (.str s) = ofJson (.num n) := by
  rw [ofJson_str_of_lasting h hq, ofJson, hn]

theorem Reading.Of.trim_padded {before layout after : List Char} (h : r.Of layout)
    (hbefore : ∀ c ∈ before, Text.isBlank c) (hafter : ∀ c ∈ after, Text.isBlank c) :
    Text.trim (before ++ layout ++ after) = layout := by
  rw [Text.trim_append_blanks hafter, Text.trim_blanks_append _ _ hbefore, h.trim]

end Text

/-- A text stands for a duration exactly if it reads, trimmed and in the one way there is, as seconds
that can last. It is then as long as the number of those seconds, however much it is padded. Any other
text is refused as it was given, unless its seconds are too many. -/
theorem text_agrees_with_number (s : String) :
    ((∃ d, ofJson (.str s) = .ok d) ↔
      ∃ r : Reading, r.Of (Text.trim s.toList) ∧ Lasting r.seconds) ∧
    (∀ r r' : Reading, r.Of (Text.trim s.toList) → r'.Of (Text.trim s.toList) → r = r') ∧
    (∀ r : Reading, r.Of (Text.trim s.toList) → Lasting r.seconds →
      ∀ n : Json.Number, n.toFloat = r.seconds → ofJson (.str s) = ofJson (.num n)) ∧
    (∀ (r : Reading) (before layout after : List Char),
      (∀ c ∈ before, Text.isBlank c) → (∀ c ∈ after, Text.isBlank c) →
      s.toList = before ++ layout ++ after → r.Of layout → r.unit ≠ .milliseconds →
      Lasting r.value → ∀ n : Json.Number, n.toFloat = r.value → ofJson (.str s) = ofJson (.num n)) ∧
    (ofJson (.str s) = .error .tooLong ↔
      ∃ r : Reading, r.Of (Text.trim s.toList) ∧ Overlong r.seconds) ∧
    ((∀ r : Reading, r.Of (Text.trim s.toList) → ¬ Lasting r.seconds ∧ ¬ Overlong r.seconds) →
      ofJson (.str s) = .error (.invalid s)) := by
  refine ⟨ofJson_str_eq_ok_iff, fun r r' h h' => h.unique h', fun r h hq n hn =>
    ofJson_str_eq_num h hq hn, ?_, ofJson_str_eq_tooLong_iff, ofJson_str_eq_invalid⟩
  intro r before layout after hbefore hafter hs h hu hq n hn
  have hseconds : r.seconds = r.value := by
    cases hunit : r.unit <;> simp_all [Reading.seconds, TimeUnit.inSeconds]
  have htrim : Text.trim s.toList = layout := by
    rw [hs, h.trim_padded hbefore hafter]
  exact ofJson_str_eq_num (htrim.symm ▸ h) (hseconds.symm ▸ hq) (hn.trans hseconds.symm)

/-- Padded seconds, milliseconds, and a text without a number. -/
theorem padded_texts_agree :
    ofJson (.str " 1.5 s ") = ofJson (.num (.float 1.5)) ∧
    ofJson (.str "250 ms") = ofJson (.num (.float 0.25)) ∧
    ofJson (.str " soon ") = .error (.invalid " soon ") := by
  have hblank : ∀ c ∈ [' '], Text.isBlank c := by simp [Text.isBlank, Text.blanks, Text.Ranges.has]
  obtain ⟨-, -, -, hpadded, -, -⟩ := text_agrees_with_number " 1.5 s "
  obtain ⟨-, -, hread, -, -, -⟩ := text_agrees_with_number "250 ms"
  obtain ⟨-, -, -, -, -, hrefused⟩ := text_agrees_with_number " soon "
  refine ⟨?_, ?_, ?_⟩
  · have hr : Reading.Of ⟨['1', '.', '5'], 1.5, .seconds⟩ ['1', '.', '5', ' ', 's'] :=
      ⟨by decide +kernel, [' '], hblank, by decide, rfl⟩
    exact hpadded _ [' '] _ [' '] hblank hblank (by decide +kernel) hr
      (by decide) ⟨by decide +kernel, by decide +kernel, by decide +kernel⟩ (.float 1.5) rfl
  · have hr : Reading.Of ⟨['2', '5', '0'], 250.0, .milliseconds⟩ (Text.trim "250 ms".toList) :=
      ⟨by decide +kernel, [' '], hblank, by decide, by decide +kernel⟩
    exact hread _ hr ⟨by decide +kernel, by decide +kernel, by decide +kernel⟩ (.float 0.25)
      (by decide +kernel)
  · refine hrefused fun r hr => ?_
    have hnone : seconds? (Text.trim " soon ".toList) = none := by decide +kernel
    rw [hr.seconds?] at hnone
    cases hnone

end Think
end TopicLoad
