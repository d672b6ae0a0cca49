import TopicLoad.Json.Reading
import TopicLoad.Json.Text

/-! JSON text that was written is read back as the value that it was written for, with the members of
objects in order. This is shown for texts, and carried on from the items of an array and the members of an
object to the whole. -/
namespace TopicLoad

namespace Keyed

variable {α β : Type} {m n : Keyed α}

end Keyed
namespace Json

mutual

/-- The value with the members of each object in order, and of several with one name the last. -/
def sorted : Json → Json
  | .arr vs => .arr (sortedItems vs)
  | .obj ms => .obj (Keyed.ofList (sortedMembers ms))
  | v => v

def sortedItems : List Json → List Json
  | [] => []
  | v :: vs => sorted v :: sortedItems vs

def sortedMembers : List (String × Json) → List (String × Json)
  | [] => []
  | (name, v) :: ms => (name, sorted v) :: sortedMembers ms

end

namespace Reader

variable {α β : Type} {a : α} {b : β} {c d : Char} {cs rest : List Char} {fuel : Nat} {done : List Char}

/-! ## One reader after another -/

theorem pure_apply (a : α) (cs : List Char) : (pure a : Reader α) cs = .ok (a, cs) := rfl

theorem bind_of_ok {r : Reader α} {f : α → Reader β} (h : r cs = .ok (a, rest)) :
    (r >>= f) cs = f a rest := by
  simp [bind, StateT.bind, Except.bind, h]

theorem seqRight_of_ok {r : Reader α} {q : Reader β} (h : r cs = .ok (a, rest)) :
    (r *> q) cs = q rest := by
  simp [SeqRight.seqRight, bind, StateT.bind, Except.bind, h]

theorem map_of_ok {r : Reader α} {f : α → β} (h : r cs = .ok (a, rest)) :
    (f <$> r) cs = .ok (f a, rest) := by
  simp [Functor.map, StateT.map, bind, Except.bind, pure, Except.pure, h]

theorem peek_cons (h : isSpace c = false) : peek (c :: cs) = .ok (some c, c :: cs) := by
  simp [peek, h]

theorem advance_cons : advance (c :: cs) = .ok ((), cs) := rfl

/-! ## Texts -/

theorem hexQuad_written {n : Nat} (hn : n < 0x20) (rest : List Char) :
    hexQuad (Json.hexQuad n ++ rest) = .ok (n, rest) := by
  have hsize : ∀ n < 0x20, byteSize (Json.hexQuad n) = 4 := by decide
  have hvalue : ∀ n < 0x20, (Json.hexQuad n).map Text.hexValue? =
      [some 0, some 0, some (n / 16), some (n % 16)] := by
    decide
  obtain ⟨a, b, c, d, h⟩ : ∃ a b c d, Json.hexQuad n = [a, b, c, d] := ⟨_, _, _, _, rfl⟩
  have hs := hsize n hn
  have hv := hvalue n hn
  rw [h] at hs hv ⊢
  simp only [List.map_cons, List.map_nil, List.cons.injEq] at hv
  simp [hexQuad, hs, hv]
  omega

theorem escaped_letter (h : simpleEscape? d = some c) : escaped (d :: rest) = .ok (c, rest) := by
  rw [escaped, bind_of_ok rfl]
  simp only [List.head?_cons, h]
  rw [seqRight_of_ok rfl]
  rfl

theorem escaped_code (h : c.toNat < 0x20) :
    escaped ('u' :: Json.hexQuad c.toNat ++ rest) = .ok (c, rest) := by
  have hread : unicodeEscape (Json.hexQuad c.toNat ++ rest) = .ok (c, rest) := by
    rw [unicodeEscape, bind_of_ok (hexQuad_written h rest), if_neg (by omega), if_pos (by omega),
      Char.ofNat_toNat]
    rfl
  rw [escaped, List.cons_append, bind_of_ok rfl]
  exact hread

theorem untilQuote_escaped {written : List Char} (h : escaped (written ++ rest) = .ok (c, rest)) :
    untilQuote (fuel + 1) done ('\\' :: written ++ rest) = untilQuote fuel (c :: done) rest := by
  rw [untilQuote, List.cons_append, bind_of_ok rfl]
  simp only [List.head?_cons, Char.reduceEq, if_false, if_true]
  rw [bind_of_ok rfl]
  exact bind_of_ok h

theorem escape_cases (c : Char) :
    (∃ d, escape c = ['\\', d] ∧ simpleEscape? d = some c) ∨
    (c.toNat < 0x20 ∧ escape c = '\\' :: 'u' :: Json.hexQuad c.toNat) ∨
    (c ≠ '"' ∧ c ≠ '\\' ∧ ¬ c.toNat < 0x20 ∧ escape c = [c]) := by
  have hletter (e d : Char) (hd : simpleEscape? d = some e) (hc : c = e) (he : escape e = ['\\', d]) :
      ∃ d, escape c = ['\\', d] ∧ simpleEscape? d = some c := ⟨d, hc ▸ he, hc ▸ hd⟩
  by_cases hquote : c = '"'
  · exact .inl (hletter _ '"' rfl hquote rfl)
  by_cases hslash : c = '\\'
  · exact .inl (hletter _ '\\' rfl hslash rfl)
  by_cases hn : c = '\n'
  · exact .inl (hletter _ 'n' rfl hn rfl)
  by_cases hr : c = '\r'
  · exact .inl (hletter _ 'r' rfl hr rfl)
  by_cases ht : c = '\t'
  · exact .inl (hletter _ 't' rfl ht rfl)
  by_cases hb : c = '\x08'
  · exact .inl (hletter _ 'b' rfl hb rfl)
  by_cases hf : c = '\x0c'
  · exact .inl (hletter _ 'f' rfl hf rfl)
  by_cases hlow : c.toNat < 0x20
  · exact .inr (.inl ⟨hlow, by simp [escape, hquote, hslash, hn, hr, ht, hb, hf, hlow]⟩)
  · exact .inr (.inr ⟨hquote, hslash, hlow,
      by simp [escape, hquote, hslash, hn, hr, ht, hb, hf, hlow]⟩)

theorem untilQuote_escape (c : Char) (rest : List Char) :
    untilQuote (fuel + 1) done (escape c ++ rest) = untilQuote fuel (c :: done) rest := by
  obtain ⟨d, hc, hd⟩ | ⟨hlow, hc⟩ | ⟨hquote, hslash, hlow, hc⟩ := escape_cases c
  · rw [hc]
    exact untilQuote_escaped (escaped_letter hd)
  · rw [hc]
    exact untilQuote_escaped (escaped_code hlow)
  · rw [hc, untilQuote, List.singleton_append, bind_of_ok rfl]
    simp only [List.head?_cons, hquote, hslash, hlow, if_false]
    exact seqRight_of_ok rfl

theorem untilQuote_written (s rest : List Char) (h : s.length < fuel) :
    untilQuote fuel done (s.flatMap escape ++ '"' :: rest) =
      .ok (String.ofList (done.reverse ++ s), rest) := by
  induction s generalizing fuel done with
  | nil =>
    obtain ⟨fuel, rfl⟩ := Nat.exists_eq_succ_of_ne_zero (Nat.ne_of_gt h)
    rw [untilQuote, List.append_nil]
    rfl
  | cons c s ih =>
    obtain ⟨fuel, rfl⟩ := Nat.exists_eq_succ_of_ne_zero (Nat.ne_zero_of_lt h)
    rw [List.flatMap_cons, List.append_assoc, untilQuote_escape, ih (by simpa using h)]
    simp

theorem quote_append (s : String) (rest : List Char) :
    quote s ++ rest = '"' :: (s.toList.flatMap escape ++ '"' :: rest) := by
  simp [quote]

theorem length_le_length_written (s : List Char) : s.length ≤ (s.flatMap escape).length := by
  induction s with
  | nil => simp
  | cons c s ih =>
    have hescape : 0 < (escape c).length := by
      obtain ⟨d, hc, -⟩ | ⟨-, hc⟩ | ⟨-, -, -, hc⟩ := escape_cases c <;> simp [hc]
    rw [List.flatMap_cons, List.length_append, List.length_cons]
    omega

theorem quotedText_written (s : String) (rest : List Char) :
    quotedText (s.toList.flatMap escape ++ '"' :: rest) = .ok (s, rest) := by
  have hlength := length_le_length_written s.toList
  rw [quotedText, bind_of_ok rfl, untilQuote_written _ _ (by rw [List.length_append]; omega),
    List.reverse_nil, List.nil_append, String.ofList_toList]

/-! ## Lists and objects -/

variable {v : Json} {vs : List Json} {m ms : Keyed Json} {depth : Nat}

/-- The text of a value begins as that of a value does, and is read back as the value in order wherever it
stands in a text, by a reader that allows for a nesting. -/
structure Reread (depth : Nat) (v : Json) : Prop where
  starts : ∃ c cs, v.chars = c :: cs ∧ isSpace c = false ∧ c ≠ ']'
  value_eq : ∀ rest, value depth (v.chars ++ rest) = .ok (v.sorted, rest)

theorem anotherItem_comma (hv : Reread depth v) :
    anotherItem false (',' :: v.chars ++ rest) = .ok (true, v.chars ++ rest) := by
  obtain ⟨c, cs, hc, hspace, hend⟩ := hv.starts
  rw [hc, anotherItem, List.cons_append, bind_of_ok (peek_cons rfl)]
  change (advance >>= fun _ => _) _ = _
  rw [bind_of_ok advance_cons, List.cons_append, bind_of_ok (peek_cons hspace)]
  simp only [pure_apply]

theorem items_written (hvs : ∀ v ∈ vs, Reread depth v) (h : vs.length < fuel) (rest : List Char) :
    items (value depth) fuel false (itemChars vs ++ rest) = .ok (sortedItems vs, ']' :: rest) := by
  induction vs generalizing fuel with
  | nil =>
    obtain ⟨fuel, rfl⟩ := Nat.exists_eq_succ_of_ne_zero (Nat.ne_of_gt h)
    rfl
  | cons v vs ih =>
    obtain ⟨fuel, rfl⟩ := Nat.exists_eq_succ_of_ne_zero (Nat.ne_zero_of_lt h)
    have hv := hvs v List.mem_cons_self
    have hlength : vs.length < fuel := by simpa using h
    have hrest := ih (fun w hw => hvs w (List.mem_cons_of_mem v hw)) hlength
    rw [items, itemChars, List.append_assoc, bind_of_ok (anotherItem_comma hv)]
    change (value depth >>= fun a => _) _ = _
    rw [bind_of_ok (hv.value_eq _), bind_of_ok hrest]
    rfl

theorem colon_cons : colon (':' :: cs) = .ok ((), cs) := rfl

def member (item : Reader Json) (name : String) (ms : Keyed Json) : Reader (Keyed Json) := do
  colon
  let v ← item
  pure (ms.insert name v)

theorem member_written (hv : Reread depth v) (name : String) (m : Keyed Json) (rest : List Char) :
    member (value depth) name m (':' :: v.chars ++ rest) = .ok (m.insert name v.sorted, rest) := by
  rw [member, List.cons_append, bind_of_ok colon_cons, bind_of_ok (hv.value_eq rest)]
  rfl

theorem memberName_written (name : String) (rest : List Char) :
    memberName (quote name ++ rest) = .ok (name, rest) := by
  rw [memberName, quote_append, seqRight_of_ok advance_cons]
  exact quotedText_written name rest

theorem anotherMember_comma (name : String) :
    anotherMember false (',' :: quote name ++ rest) = .ok (true, quote name ++ rest) := by
  rw [anotherMember, List.cons_append, bind_of_ok (peek_cons rfl)]
  change (advance >>= fun _ => _) _ = _
  rw [bind_of_ok advance_cons, quote_append, bind_of_ok (peek_cons rfl)]
  rfl

theorem members_written (hms : ∀ e ∈ ms, Reread depth e.2) (h : ms.length < fuel) (m : Keyed Json)
    (rest : List Char) : members (member (value depth)) fuel false m (memberChars ms ++ rest) =
      .ok ((sortedMembers ms).foldl (fun m e => m.insert e.1 e.2) m, '\x7d' :: rest) := by
  induction ms generalizing fuel m with
  | nil =>
    obtain ⟨fuel, rfl⟩ := Nat.exists_eq_succ_of_ne_zero (Nat.ne_of_gt h)
    rfl
  | cons e ms ih =>
    obtain ⟨name, v⟩ := e
    obtain ⟨fuel, rfl⟩ := Nat.exists_eq_succ_of_ne_zero (Nat.ne_zero_of_lt h)
    have hv : Reread depth v := hms (name, v) List.mem_cons_self
    have hlength : ms.length < fuel := by simpa using h
    have hrest := ih (fun e he => hms e (List.mem_cons_of_mem (name, v) he)) hlength (m.insert name v.sorted)
    have htext : memberChars ((name, v) :: ms) ++ rest =
        ',' :: quote name ++ (':' :: v.chars ++ (memberChars ms ++ rest)) := by
      simp [memberChars]
    rw [members, htext, bind_of_ok (anotherMember_comma name)]
    change (memberName >>= fun _ => _) _ = _
    rw [bind_of_ok (memberName_written name _), bind_of_ok (member_written hv name m _)]
    exact hrest

/-! ## Values -/

theorem enclosed_of_ok {close : Char} {finish : Reader Unit} {inside : Reader α} {rest' : List Char}
    (h : inside cs = .ok (a, rest)) (h' : finish rest = .ok ((), rest')) :
    enclosed close finish inside cs = .ok (a, rest') := by
  simp [enclosed, h, h']

theorem length_lt_itemChars (vs : List Json) : vs.length < (itemChars vs).length := by
  induction vs with
  | nil => simp [itemChars]
  | cons v vs ih => simp only [itemChars, List.length_cons, List.length_append]; omega

theorem length_lt_memberChars (ms : Keyed Json) : ms.length < (memberChars ms).length := by
  induction ms with
  | nil => simp [memberChars]
  | cons e ms ih =>
    obtain ⟨name, v⟩ := e
    simp only [memberChars, List.length_cons, List.length_append]
    omega

theorem valueOver_quote (inner : Option (Reader Json)) (s : String) (rest : List Char) :
    valueOver inner (quote s ++ rest) = .ok (.str s, rest) := by
  unfold valueOver
  rw [quote_append, bind_of_ok (peek_cons rfl)]
  change (advance *> (Json.str <$> quotedText)) _ = _
  rw [seqRight_of_ok advance_cons]
  exact map_of_ok (quotedText_written s rest)

theorem valueOver_list {item : Reader Json}
    (h : items item (cs.length + 1) true cs = .ok (vs, ']' :: rest)) :
    valueOver (some item) ('[' :: cs) = .ok (.arr vs, rest) := by
  unfold valueOver
  rw [bind_of_ok (peek_cons rfl)]
  change (Json.arr <$> (advance *> enclosed ']' endOfList _)) _ = _
  refine map_of_ok ?_
  rw [seqRight_of_ok advance_cons]
  exact enclosed_of_ok h rfl

theorem valueOver_object {item : Reader Json}
    (h : members (member item) (cs.length + 1) true [] cs = .ok (ms, '\x7d' :: rest)) :
    valueOver (some item) ('\x7b' :: cs) = .ok (.obj ms, rest) := by
  unfold valueOver
  rw [bind_of_ok (peek_cons rfl)]
  change (Json.obj <$> (advance *> enclosed '\x7d' endOfObject _)) _ = _
  refine map_of_ok ?_
  rw [seqRight_of_ok advance_cons]
  exact enclosed_of_ok h rfl

theorem Reread.str (depth : Nat) (s : String) : Reread depth (.str s) where
  starts := ⟨'"', _, rfl, rfl, by decide⟩
  value_eq rest := by
    cases depth with
    | zero => exact valueOver_quote none s rest
    | succ depth => exact valueOver_quote (some (value depth)) s rest

theorem Reread.arr (hvs : ∀ v ∈ vs, Reread depth v) : Reread (depth + 1) (.arr vs) where
  starts := by cases vs <;> exact ⟨'[', _, rfl, rfl, by decide⟩
  value_eq rest := by
    cases vs with
    | nil => exact valueOver_list rfl
    | cons v vs =>
      obtain ⟨c, cs, hc, hspace, hend⟩ := (hvs v List.mem_cons_self).starts
      have hfirst : anotherItem true (v.chars ++ (itemChars vs ++ rest)) =
          .ok (true, v.chars ++ (itemChars vs ++ rest)) := by
        rw [hc, anotherItem, List.cons_append, bind_of_ok (peek_cons hspace)]
        simp only [if_true, pure_apply]
      have hlater : items (value depth) (v.chars ++ (itemChars vs ++ rest)).length false
          (itemChars vs ++ rest) = .ok (sortedItems vs, ']' :: rest) := by
        have hlength := length_lt_itemChars vs
        refine items_written (fun w hw => hvs w (List.mem_cons_of_mem v hw)) ?_ rest
        simp only [List.length_append]
        omega
      rw [chars, List.append_assoc, List.cons_append]
      refine valueOver_list ?_
      rw [items, bind_of_ok hfirst]
      change (value depth >>= fun a => _) _ = _
      rw [bind_of_ok ((hvs v List.mem_cons_self).value_eq _), bind_of_ok hlater]
      rfl

theorem Reread.obj (hms : ∀ e ∈ ms, Reread depth e.2) : Reread (depth + 1) (.obj ms) where
  starts := by
    cases ms <;> exact ⟨'\x7b', _, rfl, rfl, by decide⟩
  value_eq rest := by
    cases ms with
    | nil => exact valueOver_object rfl
    | cons e ms =>
      obtain ⟨name, v⟩ := e
      have hv : Reread depth v := hms (name, v) List.mem_cons_self
      have htext : chars (.obj ((name, v) :: ms)) ++ rest =
          '\x7b' :: (quote name ++ (':' :: v.chars ++ (memberChars ms ++ rest))) := by
        simp [chars]
      have hfirst : anotherMember true (quote name ++ (':' :: v.chars ++ (memberChars ms ++ rest))) =
          .ok (true, quote name ++ (':' :: v.chars ++ (memberChars ms ++ rest))) := by
        rw [anotherMember, quote_append, bind_of_ok (peek_cons rfl)]
        rfl
      have hlater : members (member (value depth))
          (quote name ++ (':' :: v.chars ++ (memberChars ms ++ rest))).length false [(name, v.sorted)]
          (memberChars ms ++ rest) =
            .ok (Keyed.ofList (sortedMembers ((name, v) :: ms)), '\x7d' :: rest) := by
        have hlength := length_lt_memberChars ms
        refine members_written (fun e he => hms e (List.mem_cons_of_mem _ he)) ?_ [(name, v.sorted)] rest
        simp only [List.length_append]
        omega
      rw [htext]
      refine valueOver_object ?_
      rw [members, bind_of_ok hfirst]
      change (memberName >>= fun _ => _) _ = _
      rw [bind_of_ok (memberName_written name _), bind_of_ok (member_written hv name [] _)]
      exact hlater

end Reader

end Json
end TopicLoad
