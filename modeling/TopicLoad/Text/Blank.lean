import TopicLoad.Text.Ranges

/-! White space in the sense of the Unicode property `White_Space`, and the text left when it is
taken off both ends. -/
namespace TopicLoad
namespace Text

def blanks : Ranges :=
  #[(0x9, 0xd), (0x20, 0x20), (0x85, 0x85), (0xa0, 0xa0), (0x1680, 0x1680), (0x2000, 0x200a),
    (0x2028, 0x2029), (0x202f, 0x202f), (0x205f, 0x205f), (0x3000, 0x3000)]

def isBlank (c : Char) : Bool := blanks.has c

def trimEnd (cs : List Char) : List Char := (cs.reverse.dropWhile isBlank).reverse

def trim (cs : List Char) : List Char := trimEnd (cs.dropWhile isBlank)

@[simp] theorem trimEnd_nil : trimEnd [] = [] := rfl

@[simp] theorem trim_nil : trim [] = [] := rfl

theorem trimEnd_append_blanks (cs bs : List Char) (h : ∀ c ∈ bs, isBlank c) :
    trimEnd (cs ++ bs) = trimEnd cs := by
  have hb : ∀ c ∈ bs.reverse, isBlank c := fun c hc => h c (List.mem_reverse.mp hc)
  simp only [trimEnd, List.reverse_append]
  rw [List.dropWhile_append_of_pos hb]

theorem trim_blanks_append (bs cs : List Char) (h : ∀ c ∈ bs, isBlank c) :
    trim (bs ++ cs) = trim cs := by
  simp only [trim]
  rw [List.dropWhile_append_of_pos h]

theorem trim_append_blanks {cs bs : List Char} (h : ∀ c ∈ bs, isBlank c) :
    trim (cs ++ bs) = trim cs := by
  rw [trim, trim, List.dropWhile_append]
  split
  · next hcs =>
    have hbs : bs.dropWhile isBlank = [] := by
      rw [← List.append_nil bs, List.dropWhile_append_of_pos h, List.dropWhile_nil]
    rw [hbs, List.isEmpty_iff.mp hcs]
  · exact trimEnd_append_blanks _ _ h

theorem trim_eq_self {cs : List Char} (hfirst : ∀ c, cs.head? = some c → isBlank c = false)
    (hlast : ∀ c, cs.getLast? = some c → isBlank c = false) : trim cs = cs := by
  have hkept {ds : List Char} (h : ∀ c, ds.head? = some c → isBlank c = false) :
      ds.dropWhile isBlank = ds := by
    cases ds with
    | nil => rfl
    | cons d ds => exact List.dropWhile_cons_of_neg (by simp [h d rfl])
  rw [trim, hkept hfirst, trimEnd, hkept (by rwa [List.head?_reverse]), List.reverse_reverse]

theorem exists_trimEnd_append (cs : List Char) :
    ∃ gap, (∀ c ∈ gap, isBlank c) ∧ cs = trimEnd cs ++ gap := by
  refine ⟨(cs.reverse.takeWhile isBlank).reverse, ?_, ?_⟩
  · intro c hc
    exact List.all_eq_true.mp List.all_takeWhile c (List.mem_reverse.mp hc)
  · rw [trimEnd, ← List.reverse_append, List.takeWhile_append_dropWhile, List.reverse_reverse]

theorem head?_trim {cs : List Char} {c : Char} (h : (trim cs).head? = some c) :
    isBlank c = false := by
  obtain ⟨gap, -, hgap⟩ := exists_trimEnd_append (cs.dropWhile isBlank)
  have hfirst : (cs.dropWhile isBlank).head? = some c := by
    rw [hgap, List.head?_append, show (trimEnd (cs.dropWhile isBlank)).head? = some c from h]
    rfl
  have hkept := List.head?_dropWhile_not isBlank cs
  rwa [hfirst] at hkept

theorem getLast?_trim {cs : List Char} {c : Char} (h : (trim cs).getLast? = some c) :
    isBlank c = false := by
  have hkept := List.head?_dropWhile_not isBlank (cs.dropWhile isBlank).reverse
  rw [trim, trimEnd, List.getLast?_reverse] at h
  rwa [h] at hkept

theorem trim_trim (cs : List Char) : trim (trim cs) = trim cs :=
  trim_eq_self (fun _ => head?_trim) (fun _ => getLast?_trim)

end Text
end TopicLoad
