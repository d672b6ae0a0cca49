import Mathlib.Data.List.TakeWhile
import TopicLoad.Url.Basic

/-! What a URL makes of the segments that its text ends with. Plain segments are kept as they are, wherever
they come to stand; so texts that begin alike are different URLs if such endings of them differ. -/
namespace TopicLoad
namespace Url

/-- Characters that stand for themselves at every place behind the host. -/
def isPlain (c : Char) : Bool := !(isControl c || inPath c || inQuery true c || isSlash true c)

/-- Segments that need no encoding and do not stand for another place. -/
def isKept (s : List Char) : Bool := s.all isPlain && !isDot s && !isDoubleDot s

theorem isPlain_iff {c : Char} : isPlain c ↔
    isControl c = false ∧ inPath c = false ∧ inQuery true c = false ∧ isSlash true c = false := by
  simp [isPlain, and_assoc]

theorem isKept_iff {s : List Char} :
    isKept s ↔ s.all isPlain ∧ isDot s = false ∧ isDoubleDot s = false := by
  simp [isKept, and_assoc]

theorem isPlain_of_mem {s : List Char} (hs : isKept s) {c : Char} (hc : c ∈ s) : isPlain c :=
  List.all_eq_true.mp (isKept_iff.mp hs).1 c hc

theorem isKept_of_colon {s : List Char} (hplain : s.all isPlain) (hcolon : ':' ∈ s) : isKept s := by
  have hlower : ':' ∈ s.map Char.toLower := List.mem_map.mpr ⟨':', hcolon, rfl⟩
  have hother (cs : List Char) (hcs : ':' ∉ cs) : cs ≠ s.map Char.toLower := fun h => hcs (h ▸ hlower)
  refine isKept_iff.mpr ⟨hplain, ?_, ?_⟩
  · have hdot : ['.'] ≠ s := by
      rintro rfl
      exact absurd hcolon (by decide)
    simp [isDot, hdot, hother ['%', '2', 'e'] (by decide)]
  · simp [isDoubleDot, hother ['.', '.'] (by decide), hother ['.', '%', '2', 'e'] (by decide),
      hother ['%', '2', 'e', '.'] (by decide), hother ['%', '2', 'e', '%', '2', 'e'] (by decide)]

/-- At least one segment, all of which are kept. -/
structure Ending where
  segments : List (List Char)
  ne_nil : segments ≠ []
  kept : ∀ s ∈ segments, isKept s

namespace Ending

def text (q : Ending) : List Char := q.segments.flatMap ('/' :: ·)

def push (q : Ending) (s : List Char) (hs : isKept s) : Ending :=
  ⟨s :: q.segments, List.cons_ne_nil _ _, List.forall_mem_cons.mpr ⟨hs, q.kept⟩⟩

@[simp] theorem text_push (q : Ending) (s : List Char) (hs : isKept s) :
    (q.push s hs).text = '/' :: s ++ q.text := rfl

theorem exists_text_eq_cons (q : Ending) : ∃ cs, q.text = '/' :: cs := by
  obtain ⟨s, ss, hss⟩ := List.exists_cons_of_ne_nil q.ne_nil
  exact ⟨_, by rw [text, hss, List.flatMap_cons, List.cons_append]⟩

theorem text_ne_nil (q : Ending) : q.text ≠ [] := by
  obtain ⟨cs, hcs⟩ := q.exists_text_eq_cons
  rw [hcs]
  exact List.cons_ne_nil _ _

theorem forall_mem_text (q : Ending) {P : Char → Prop} (hslash : P '/') (hplain : ∀ c, isPlain c → P c) :
    ∀ c ∈ q.text, P c := by
  intro c hc
  obtain ⟨s, hs, hcs⟩ := List.mem_flatMap.mp hc
  rcases List.mem_cons.mp hcs with rfl | hcs
  · exact hslash
  · exact hplain c (isPlain_of_mem (q.kept s hs) hcs)

theorem takeWhile_append (q : Ending) {p : Char → Bool} (hp : p '/' = false) (cs : List Char) :
    (cs ++ q.text).takeWhile p = cs.takeWhile p := by
  obtain ⟨rest, hrest⟩ := q.exists_text_eq_cons
  rw [List.takeWhile_append, hrest, List.takeWhile_cons_of_neg (by simp [hp]), List.append_nil]
  split
  · next hlength => exact ((List.takeWhile_prefix p).eq_of_length hlength).symm
  · rfl

theorem dropWhile_append (q : Ending) {p : Char → Bool} (hp : p '/' = false) (cs : List Char) :
    (cs ++ q.text).dropWhile p = cs.dropWhile p ++ q.text := by
  obtain ⟨rest, hrest⟩ := q.exists_text_eq_cons
  rw [List.dropWhile_append, hrest, List.dropWhile_cons_of_neg (by simp [hp])]
  split
  · next hempty => rw [List.isEmpty_iff.mp hempty, List.nil_append]
  · rfl

theorem takeWhile_append_of_forall (q : Ending) {p : Char → Bool} (hp : ∀ c ∈ q.text, p c)
    (cs : List Char) :
    (cs ++ q.text).takeWhile p = if cs.dropWhile p = [] then cs ++ q.text else cs.takeWhile p := by
  have hwhole : (cs.takeWhile p).length = cs.length ↔ cs.dropWhile p = [] := by
    rw [List.dropWhile_eq_nil_iff, ← List.takeWhile_eq_self_iff]
    exact ⟨(List.takeWhile_prefix p).eq_of_length, congrArg _⟩
  simp only [List.takeWhile_append, List.takeWhile_eq_self_iff.mpr hp, hwhole]

theorem dropWhile_append_of_forall (q : Ending) {p : Char → Bool} (hp : ∀ c ∈ q.text, p c)
    (cs : List Char) :
    (cs ++ q.text).dropWhile p = if cs.dropWhile p = [] then [] else cs.dropWhile p ++ q.text := by
  simp only [List.dropWhile_append, List.dropWhile_eq_nil_iff.mpr hp, List.isEmpty_iff]

end Ending

/-! ## Paths, queries and fragments -/

theorem encode_eq_self {forbidden : Char → Bool} {cs : List Char}
    (h : ∀ c ∈ cs, (isControl c || forbidden c) = false) : encode forbidden cs = cs := by
  induction cs with
  | nil => rfl
  | cons c cs ih =>
    rw [List.forall_mem_cons] at h
    have hc : encode forbidden [c] = [c] := by
      rw [encode, List.flatMap_singleton, h.1, if_neg Bool.false_ne_true]
    rw [← List.singleton_append, encode_append, hc, ih h.2]

/-- Leaves an ending as it is, whatever it is that it ends. -/
def Keeps (f : List Char → List Char) : Prop :=
  ∀ cs, ∃ ds, ∀ q : Ending, f (cs ++ q.text) = ds ++ q.text

theorem Keeps.cancel {f : List Char → List Char} (hf : Keeps f) {cs : List Char} {q q' : Ending}
    (h : f (cs ++ q.text) = f (cs ++ q'.text)) : q.text = q'.text := by
  obtain ⟨ds, hds⟩ := hf cs
  rw [hds, hds] at h
  exact List.append_cancel_left h

theorem keeps_encode {forbidden : Char → Bool} (hslash : forbidden '/' = false)
    (hplain : ∀ c, isPlain c → forbidden c = false) : Keeps (encode forbidden) := by
  intro cs
  refine ⟨encode forbidden cs, fun q => ?_⟩
  have hself : encode forbidden q.text = q.text := by
    refine encode_eq_self (q.forall_mem_text ?_ fun c hc => ?_)
    · rw [hslash]
      decide
    · rw [(isPlain_iff.mp hc).1, hplain c hc]
      rfl
  rw [encode_append, hself]

theorem keeps_encode_fragment : Keeps (encode inFragment) := by
  refine keeps_encode rfl fun c hc => ?_
  have hpath := (isPlain_iff.mp hc).2.1
  simp_all [inPath]

theorem keeps_encode_query (special : Bool) : Keeps (encode (inQuery special)) := by
  refine keeps_encode (by cases special <;> rfl) fun c hc => ?_
  have hquery := (isPlain_iff.mp hc).2.2.1
  cases special <;> simp_all [inQuery]

theorem keeps_encode_control : Keeps (encode fun _ => false) := keeps_encode rfl fun _ _ => rfl

theorem resolve_of_kept {ss : List (List Char)} (h : ∀ s ∈ ss, isKept s) (done : List (List Char)) :
    resolve done ss = done ++ ss := by
  induction ss generalizing done with
  | nil => simp [resolve]
  | cons s ss ih =>
    rw [List.forall_mem_cons] at h
    obtain ⟨-, hdot, hdouble⟩ := isKept_iff.mp h.1
    rw [resolve, hdot, hdouble, if_neg Bool.false_ne_true, if_neg Bool.false_ne_true, ih h.2,
      List.append_assoc, List.singleton_append]

theorem resolve_append (done ss : List (List Char)) :
    ∃ done', ∀ q : Ending, resolve done (ss ++ q.segments) = done' ++ q.segments := by
  induction ss generalizing done with
  | nil => exact ⟨done, fun q => resolve_of_kept q.kept done⟩
  | cons s ss ih =>
    -- A dot segment leaves an empty one only at the end, which is never here.
    have hlast (q : Ending) : ss ++ q.segments ≠ [] := fun h => q.ne_nil (List.append_eq_nil_iff.mp h).2
    by_cases hdouble : isDoubleDot s
    · obtain ⟨done', h⟩ := ih done.dropLast
      exact ⟨done', fun q => by simp [resolve, hdouble, hlast q, h]⟩
    · by_cases hdot : isDot s
      · obtain ⟨done', h⟩ := ih done
        exact ⟨done', fun q => by simp [resolve, hdouble, hdot, hlast q, h]⟩
      · obtain ⟨done', h⟩ := ih (done ++ [s])
        exact ⟨done', fun q => by simp [resolve, hdouble, hdot, h]⟩

theorem splitOnP_append_text (special : Bool) (cs : List Char) (q : Ending) :
    (cs ++ q.text).splitOnP (isSlash special) = cs.splitOnP (isSlash special) ++ q.segments := by
  have hkept := q.kept
  rw [Ending.text]
  generalize q.segments = ss at hkept
  induction ss generalizing cs with
  | nil => simp
  | cons s ss ih =>
    rw [List.forall_mem_cons] at hkept
    have hslashes : ∀ c ∈ s, isSlash special c = false := by
      intro c hc
      have hslash := (isPlain_iff.mp (isPlain_of_mem hkept.1 hc)).2.2.2
      cases special <;> simp_all [isSlash]
    rw [List.flatMap_cons, List.cons_append, List.splitOnP_append_cons _ _ (by simp [isSlash]),
      ih s hkept.2, List.splitOnP_eq_singleton hslashes, List.singleton_append]

theorem map_encode_segments (q : Ending) : q.segments.map (encode inPath) = q.segments := by
  rw [List.map_congr_left (g := id) fun s hs => ?_, List.map_id]
  refine encode_eq_self fun c hc => ?_
  obtain ⟨hcontrol, hpath, -⟩ := isPlain_iff.mp (isPlain_of_mem (q.kept s hs) hc)
  rw [hcontrol, hpath]
  rfl

theorem keeps_pathText (special : Bool) : Keeps (pathText special) := by
  intro cs
  have hpath (ss : List (List Char)) : ∃ ds, ∀ q : Ending,
      (resolve [] ((ss ++ q.segments).map (encode inPath))).flatMap ('/' :: ·) = ds ++ q.text := by
    obtain ⟨done, hdone⟩ := resolve_append [] (ss.map (encode inPath))
    refine ⟨done.flatMap ('/' :: ·), fun q => ?_⟩
    rw [List.map_append, map_encode_segments, hdone, List.flatMap_append, Ending.text]
  cases cs with
  | nil =>
    obtain ⟨ds, hds⟩ := hpath []
    refine ⟨ds, fun q => ?_⟩
    obtain ⟨rest, hrest⟩ := q.exists_text_eq_cons
    -- The slash that a path begins with separates nothing.
    have hsplit : rest.splitOnP (isSlash special) = q.segments := by
      have h := splitOnP_append_text special [] q
      rw [List.nil_append, hrest, List.splitOnP_cons_eq_if_modifyHead, if_pos (by simp [isSlash])] at h
      simpa using h
    rw [← hds q, List.nil_append, List.nil_append, ← hsplit, hrest]
    simp [pathText, isSlash]
  | cons c cs =>
    by_cases hc : isSlash special c
    · obtain ⟨ds, hds⟩ := hpath (cs.splitOnP (isSlash special))
      refine ⟨ds, fun q => ?_⟩
      rw [← hds q, ← splitOnP_append_text]
      simp [pathText, hc]
    · obtain ⟨ds, hds⟩ := hpath ((c :: cs).splitOnP (isSlash special))
      refine ⟨ds, fun q => ?_⟩
      rw [← hds q, ← splitOnP_append_text]
      simp [pathText, hc]

/-- An ending belongs to the fragment if there is one, else to the query if there is one, else to the path. -/
theorem splitTail_append (cs : List Char) (q : Ending) :
    splitTail (cs ++ q.text) =
      match splitTail cs with
      | (before, query, some fragment) => (before, query, some (fragment ++ q.text))
      | (before, some query, none) => (before, some (query ++ q.text), none)
      | (before, none, none) => (before ++ q.text, none, none) := by
  have hplain (d : Char) (hslash : '/' ≠ d) (hd : isPlain d = false) : ∀ c ∈ q.text, decide (c ≠ d) := by
    refine q.forall_mem_text (decide_eq_true hslash) fun c hc => decide_eq_true ?_
    rintro rfl
    rw [hc] at hd
    cases hd
  have hhash := hplain '#' (by decide) (by decide)
  have hmark := hplain '?' (by decide) (by decide)
  have htake := q.takeWhile_append_of_forall hhash cs
  have hdrop := q.dropWhile_append_of_forall hhash cs
  cases hfragment : cs.dropWhile (· ≠ '#') with
  | nil =>
    have hcs : cs.takeWhile (· ≠ '#') = cs := by
      have h := cs.takeWhile_append_dropWhile (p := (· ≠ '#'))
      rwa [hfragment, List.append_nil] at h
    have htake' := q.takeWhile_append_of_forall hmark cs
    have hdrop' := q.dropWhile_append_of_forall hmark cs
    cases hquery : cs.dropWhile (· ≠ '?') with
    | nil => simp only [splitTail, htake, hdrop, hdrop', hfragment, hcs, hquery, if_true]
    | cons d es =>
      simp only [splitTail, htake, hdrop, htake', hdrop', hfragment, hcs, hquery, if_true, if_false,
        reduceCtorEq, List.cons_append]
  | cons c ds =>
    cases hquery : (cs.takeWhile (· ≠ '#')).dropWhile (· ≠ '?') with
    | nil => simp only [splitTail, htake, hdrop, hfragment, hquery, if_false, reduceCtorEq, List.cons_append]
    | cons d es =>
      simp only [splitTail, htake, hdrop, hfragment, hquery, if_false, reduceCtorEq, List.cons_append]

theorem withTail_cancel {path : List Char → List Char} (hpath : Keeps path) {u : Url} {cs : List Char}
    {q q' : Ending} (h : u.withTail path (cs ++ q.text) = u.withTail path (cs ++ q'.text)) :
    q.text = q'.text := by
  simp only [withTail, splitTail_append] at h
  rcases hcs : splitTail cs with ⟨before, query, _ | fragment⟩
  · cases query with
    | none =>
      simp only [hcs] at h
      exact hpath.cancel (String.ofList_injective (congrArg Url.path h))
    | some query =>
      simp only [hcs, Option.map_some] at h
      exact (keeps_encode_query _).cancel (String.ofList_injective (Option.some.inj (congrArg Url.query h)))
  · simp only [hcs, Option.map_some] at h
    exact keeps_encode_fragment.cancel (String.ofList_injective (Option.some.inj (congrArg Url.fragment h)))

/-! ## Reading -/

/-- Reading texts that differ in their endings yields different URLs, or none. -/
def Distinguishes (read : Ending → Except Fault Url) : Prop :=
  ∀ ⦃q q' u⦄, read q = .ok u → read q' = .ok u → q.text = q'.text

namespace Distinguishes

theorem error (f : Fault) : Distinguishes fun _ => .error f := fun _ _ _ h _ => nomatch h

theorem withTail {path : List Char → List Char} (hpath : Keeps path) (u : Url) (cs : List Char) :
    Distinguishes fun q => .ok (u.withTail path (cs ++ q.text)) :=
  fun _ _ _ h h' => withTail_cancel hpath (Except.ok.inj (h.trans h'.symm))

theorem ite {P : Prop} [Decidable P] {read read' : Ending → Except Fault Url} (h : Distinguishes read)
    (h' : Distinguishes read') : Distinguishes fun q => if P then read q else read' q := by
  by_cases hP : P
  · simpa only [if_pos hP] using h
  · simpa only [if_neg hP] using h'

theorem bind {α : Type} (x : Except Fault α) {read : α → Ending → Except Fault Url}
    (h : ∀ a, Distinguishes (read a)) : Distinguishes fun q => x >>= fun a => read a q := by
  cases x with
  | error f => exact error f
  | ok a => exact h a

theorem ofAuthority (scheme : String) (cs : List Char) :
    Distinguishes fun q => Url.ofAuthority scheme (cs ++ q.text) := by
  have htake (q : Ending) := q.takeWhile_append (p := fun c => !(isSlash (isSpecial scheme) c || isEnd c))
    (by simp [isSlash]) cs
  have hdrop (q : Ending) := q.dropWhile_append (p := fun c => !(isSlash (isSpecial scheme) c || isEnd c))
    (by simp [isSlash]) cs
  simp only [Url.ofAuthority, htake, hdrop]
  refine .ite (.error _) (.ite ?_ ?_)
  all_goals exact .bind _ fun host => .bind _ fun port => .withTail (keeps_pathText _) _ _

theorem ofFile (a b : Char) (cs : List Char) : Distinguishes fun q => Url.ofFile (a :: b :: cs ++ q.text) := by
  have htake (q : Ending) := q.takeWhile_append (p := fun c => !(isSlash true c || isEnd c))
    (by simp [isSlash]) cs
  have hdrop (q : Ending) := q.dropWhile_append (p := fun c => !(isSlash true c || isEnd c))
    (by simp [isSlash]) cs
  simp only [Url.ofFile, List.cons_append, htake, hdrop]
  refine .ite (.ite ?_ ?_) (.withTail (keeps_pathText _) _ (a :: b :: cs))
  all_goals exact .bind _ fun host => .withTail (keeps_pathText _) _ _

theorem ofPlain (scheme : String) (a b : Char) (cs : List Char) :
    Distinguishes fun q => Url.ofPlain scheme (a :: b :: cs ++ q.text) := by
  by_cases ha : a = '/'
  · subst ha
    by_cases hb : b = '/'
    · subst hb
      exact ofAuthority scheme cs
    · have hread (q : Ending) : Url.ofPlain scheme ('/' :: b :: cs ++ q.text) =
          .ok (({ scheme := scheme, path := "" } : Url).withTail (pathText false)
            ('/' :: b :: cs ++ q.text)) := by
        simp [Url.ofPlain, hb]
      simp only [hread]
      exact .withTail (keeps_pathText _) _ _
  · have hread (q : Ending) : Url.ofPlain scheme (a :: b :: cs ++ q.text) =
        .ok (({ scheme := scheme, path := "" } : Url).withTail (encode fun _ => false)
          (a :: b :: cs ++ q.text)) := by
      simp [Url.ofPlain, ha]
    simp only [hread]
    exact .withTail keeps_encode_control _ _

end Distinguishes

theorem not_le_space_of_plain {c : Char} (hc : isPlain c) : ¬ c ≤ ' ' := by
  intro hle
  obtain ⟨hcontrol, hpath, -⟩ := isPlain_iff.mp hc
  have hupper : c.toNat ≤ 32 := hle
  have hlower : ¬ c.toNat < 32 := by
    intro hlt
    simp [isControl, hlt] at hcontrol
  have hspace : c = ' ' := Char.toNat_inj.mp (by change c.toNat = 32; omega)
  rw [hspace] at hpath
  exact absurd hpath (by decide)

theorem keeps_cleaned : Keeps cleaned := by
  intro cs
  refine ⟨(cs.dropWhile (· ≤ ' ')).filter fun c => c ≠ '\t' ∧ c ≠ '\n' ∧ c ≠ '\r', fun q => ?_⟩
  have hedge : ∀ c ∈ q.text, ¬ c ≤ ' ' := q.forall_mem_text (by decide) fun c => not_le_space_of_plain
  have hstart := q.dropWhile_append (p := fun c => decide (c ≤ ' ')) (by decide) cs
  have hend : ((cs.dropWhile (· ≤ ' ') ++ q.text).reverse.dropWhile (· ≤ ' ')).reverse =
      cs.dropWhile (· ≤ ' ') ++ q.text := by
    obtain ⟨c, rest, hreverse⟩ := List.exists_cons_of_ne_nil (List.reverse_ne_nil_iff.mpr q.text_ne_nil)
    have hc : ¬ c ≤ ' ' := hedge c (List.mem_reverse.mp (hreverse ▸ List.mem_cons_self))
    rw [List.reverse_append, hreverse, List.cons_append, List.dropWhile_cons_of_neg (by simpa using hc),
      ← List.cons_append, ← hreverse, ← List.reverse_append, List.reverse_reverse]
  have hfilter : q.text.filter (fun c => c ≠ '\t' ∧ c ≠ '\n' ∧ c ≠ '\r') = q.text := by
    refine List.filter_eq_self.mpr fun c hc => ?_
    have hne (d : Char) (hd : d ≤ ' ') : c ≠ d := fun h => hedge c hc (h ▸ hd)
    simp [hne '\t' (by decide), hne '\n' (by decide), hne '\r' (by decide)]
  simp only [cleaned, hstart, hend, List.filter_append, hfilter]

theorem splitScheme_append (cs : List Char) :
    (∀ q : Ending, splitScheme (cs ++ q.text) = none) ∨
    ∃ scheme ds, ∀ q : Ending, splitScheme (cs ++ q.text) = some (scheme, ds ++ q.text) := by
  cases cs with
  | nil =>
    refine .inl fun q => ?_
    obtain ⟨rest, hrest⟩ := q.exists_text_eq_cons
    have hslash : '/'.isAlpha = false := by decide
    rw [List.nil_append, hrest, splitScheme]
    split
    · rw [hslash, if_neg Bool.false_ne_true]
    · rfl
  | cons c cs =>
    -- An ending begins with a character that no scheme has, so where the scheme stops is decided before it.
    have hdrop (q : Ending) := q.dropWhile_append
      (p := fun d => d.isAlphanum || d = '+' || d = '-' || d = '.') (by decide) cs
    cases hcs : cs.dropWhile fun d => d.isAlphanum || d = '+' || d = '-' || d = '.' with
    | nil =>
      refine .inl fun q => ?_
      obtain ⟨rest, hrest⟩ := q.exists_text_eq_cons
      simp only [splitScheme, List.cons_append, hdrop, hcs, List.nil_append]
      rw [hrest]
      rfl
    | cons d ds =>
      by_cases hscheme : d = ':' ∧ c.isAlpha
      · obtain ⟨rfl, hc⟩ := hscheme
        refine .inr ⟨(c :: cs.take (cs.length - (':' :: ds).length)).map Char.toLower, ds, fun q => ?_⟩
        have htake : (cs ++ q.text).take ((cs ++ q.text).length - (':' :: ds ++ q.text).length) =
            cs.take (cs.length - (':' :: ds).length) := by
          rw [List.length_append, List.length_append, Nat.add_sub_add_right,
            List.take_append_of_le_length (Nat.sub_le _ _)]
        simp only [splitScheme, List.cons_append, hdrop, hcs, hc, if_true] at htake ⊢
        rw [htake]
      · refine .inl fun q => ?_
        simp only [splitScheme, List.cons_append, hdrop, hcs]
        split
        · next h =>
          have hd : d = ':' := (List.cons.inj h).1
          rw [if_neg fun hc => hscheme ⟨hd, hc⟩]
        · rfl

/-- Behind a segment that is not empty, endings are told apart whatever the text begins with. -/
theorem distinguishes_ofText (cs : List Char) {s : List Char} (hs : isKept s) (hne : s ≠ []) :
    Distinguishes fun q => ofText (String.ofList (cs ++ (q.push s hs).text)) := by
  obtain ⟨ds, hds⟩ := keeps_cleaned cs
  simp only [ofText, String.toList_ofList, hds]
  rcases splitScheme_append ds with hnone | ⟨scheme, es, hsome⟩
  · simp only [hnone]
    exact .error _
  · -- The segment may be what the host is read from, if the text begins with a scheme only; the ending is not.
    have hfront : ∃ a b front, es ++ '/' :: s = a :: b :: front := by
      obtain ⟨c, s, rfl⟩ := List.exists_cons_of_ne_nil hne
      match es with
      | [] => exact ⟨_, _, _, rfl⟩
      | [_] => exact ⟨_, _, _, rfl⟩
      | _ :: _ :: _ => exact ⟨_, _, _, rfl⟩
    obtain ⟨a, b, front, hfront⟩ := hfront
    have hpush (q : Ending) : es ++ (q.push s hs).text = a :: b :: front ++ q.text := by
      rw [Ending.text_push, ← hfront, List.append_assoc]
    have hhost : (a :: b :: front).dropWhile (isSlash true) ≠ [] := by
      rw [← hfront, Ne, List.dropWhile_eq_nil_iff]
      intro hslashes
      obtain ⟨c, hc⟩ := List.exists_mem_of_ne_nil s hne
      have hslash := hslashes c (List.mem_append_right _ (List.mem_cons_of_mem _ hc))
      rw [(isPlain_iff.mp (isPlain_of_mem hs hc)).2.2.2] at hslash
      cases hslash
    have hslashes (q : Ending) : (a :: b :: front ++ q.text).dropWhile (isSlash true) =
        (a :: b :: front).dropWhile (isSlash true) ++ q.text := by
      rw [List.dropWhile_append, if_neg (by simpa using hhost)]
    simp only [hsome, hpush, hslashes]
    exact .ite (.ofFile a b front) (.ite (.ofAuthority _ _) (.ofPlain _ a b front))

end Url
end TopicLoad
