/-! Finite maps from names to values: lists of pairs whose names ascend by code point. -/
namespace TopicLoad

/-- Pairs of a name and a value, in ascending order of their names. -/
abbrev Keyed (α : Type) := List (String × α)

namespace Keyed

variable {α β : Type}

def get? (m : Keyed α) (k : String) : Option α := (m.find? fun e => e.1 == k).map Prod.snd

/-- Binds a name, in place of an earlier binding. -/
def insert (k : String) (v : α) : Keyed α → Keyed α
  | [] => [(k, v)]
  | (j, w) :: m =>
    if k < j then (k, v) :: (j, w) :: m
    else if j = k then (k, v) :: m
    else (j, w) :: insert k v m

def erase (k : String) : Keyed α → Keyed α
  | [] => []
  | (j, w) :: m => if j = k then m else (j, w) :: erase k m

def set (k : String) : Option α → Keyed α → Keyed α
  | some v, m => insert k v m
  | none, m => erase k m

/-- Of several bindings of a name the last one counts. -/
def ofList (l : List (String × α)) : Keyed α := l.foldl (fun m e => insert e.1 e.2 m) []

def override (m top : Keyed α) : Keyed α := top.foldl (fun m e => insert e.1 e.2 m) m

def mapValues (f : α → β) (m : Keyed α) : Keyed β := m.map fun e => (e.1, f e.2)

def Ordered (m : Keyed α) : Prop := m.Pairwise fun a b => a.1 < b.1

@[simp] theorem get?_nil (k : String) : get? ([] : Keyed α) k = none := rfl

@[simp] theorem get?_cons (j k : String) (w : α) (m : Keyed α) :
    get? ((j, w) :: m) k = if j = k then some w else get? m k := by
  by_cases h : j = k <;> simp [get?, h]

theorem get?_insert (k j : String) (v : α) (m : Keyed α) :
    get? (insert k v m) j = if k = j then some v else get? m j := by
  induction m with
  | nil => simp [insert]
  | cons e m ih =>
    obtain ⟨i, w⟩ := e
    simp only [insert]
    split
    · simp
    · split
      · next h => subst h; by_cases hj : i = j <;> simp [hj]
      · next h =>
        simp only [get?_cons, ih]
        by_cases hi : i = j
        · subst hi; simp [Ne.symm h]
        · simp [hi]

theorem mem_insert_fst {k : String} {v : α} {m : Keyed α} {e : String × α}
    (h : e ∈ insert k v m) : e = (k, v) ∨ e ∈ m := by
  induction m with
  | nil => simpa [insert] using h
  | cons d m ih =>
    obtain ⟨i, w⟩ := d
    simp only [insert] at h
    split at h
    · simpa using h
    · split at h
      · rcases List.mem_cons.mp h with h | h
        · exact Or.inl h
        · exact Or.inr (List.mem_cons_of_mem _ h)
      · rcases List.mem_cons.mp h with h | h
        · exact Or.inr (h ▸ List.mem_cons_self)
        · exact (ih h).imp_right (List.mem_cons_of_mem _)

@[simp] theorem ordered_nil : Ordered ([] : Keyed α) := List.Pairwise.nil

theorem ordered_cons_iff {j : String} {w : α} {m : Keyed α} :
    Ordered ((j, w) :: m) ↔ (∀ e ∈ m, j < e.1) ∧ Ordered m := List.pairwise_cons

theorem ordered_insert (k : String) (v : α) {m : Keyed α} (h : m.Ordered) :
    (insert k v m).Ordered := by
  induction m with
  | nil => simp [insert, Ordered]
  | cons e m ih =>
    obtain ⟨j, w⟩ := e
    obtain ⟨hj, hm⟩ := ordered_cons_iff.mp h
    simp only [insert]
    split
    · next hkj =>
      refine ordered_cons_iff.mpr ⟨fun e he => ?_, h⟩
      rcases List.mem_cons.mp he with rfl | he
      · exact hkj
      · exact String.lt_trans hkj (hj e he)
    · next hkj =>
      split
      · next hjk => exact ordered_cons_iff.mpr ⟨hjk ▸ hj, hm⟩
      · next hjk =>
        refine ordered_cons_iff.mpr ⟨fun e he => ?_, ih hm⟩
        rcases mem_insert_fst he with rfl | he
        · exact Std.lt_of_le_of_ne (String.not_lt.mp hkj) hjk
        · exact hj e he

theorem mem_of_mem_erase {k : String} {m : Keyed α} {e : String × α} (h : e ∈ erase k m) : e ∈ m := by
  induction m with
  | nil => exact h
  | cons d m ih =>
    obtain ⟨j, w⟩ := d
    simp only [erase] at h
    split at h
    · exact List.mem_cons_of_mem _ h
    · rcases List.mem_cons.mp h with h | h
      · exact h ▸ List.mem_cons_self
      · exact List.mem_cons_of_mem _ (ih h)

theorem ordered_erase (k : String) {m : Keyed α} (h : m.Ordered) : (erase k m).Ordered := by
  induction m with
  | nil => exact h
  | cons e m ih =>
    obtain ⟨j, w⟩ := e
    obtain ⟨hj, hm⟩ := ordered_cons_iff.mp h
    simp only [erase]
    split
    · exact hm
    · exact ordered_cons_iff.mpr ⟨fun e he => hj e (mem_of_mem_erase he), ih hm⟩

theorem ordered_set (k : String) (v : Option α) {m : Keyed α} (h : m.Ordered) :
    (set k v m).Ordered := by
  cases v with
  | none => exact ordered_erase k h
  | some v => exact ordered_insert k v h

theorem ordered_override {m : Keyed α} (top : Keyed α) (h : m.Ordered) : (override m top).Ordered := by
  simp only [override]
  induction top generalizing m with
  | nil => exact h
  | cons e top ih => exact ih (ordered_insert e.1 e.2 h)

theorem ordered_ofList (l : List (String × α)) : (ofList l).Ordered :=
  ordered_override l ordered_nil

theorem get?_eq_none {k : String} {m : Keyed α} (h : ∀ e ∈ m, e.1 ≠ k) : get? m k = none := by
  induction m with
  | nil => rfl
  | cons e m ih =>
    obtain ⟨j, w⟩ := e
    rw [get?_cons, if_neg (h (j, w) List.mem_cons_self)]
    exact ih fun e he => h e (List.mem_cons_of_mem _ he)

theorem get?_erase {m : Keyed α} (h : m.Ordered) (k j : String) :
    get? (erase k m) j = if k = j then none else get? m j := by
  induction m with
  | nil => simp [erase]
  | cons e m ih =>
    obtain ⟨i, w⟩ := e
    obtain ⟨hi, hm⟩ := ordered_cons_iff.mp h
    simp only [erase, get?_cons]
    by_cases hik : i = k
    · subst hik
      by_cases hij : i = j
      · subst hij
        simpa using get?_eq_none fun e he => (String.ne_of_lt (hi e he)).symm
      · simp [hij]
    · rw [if_neg hik, get?_cons, ih hm]
      by_cases hkj : k = j
      · subst hkj; simp [hik]
      · simp [hkj]

theorem get?_set {m : Keyed α} (h : m.Ordered) (k : String) (v : Option α) (j : String) :
    get? (set k v m) j = if k = j then v else get? m j := by
  cases v with
  | none => exact get?_erase h k j
  | some v => exact get?_insert k j v m

theorem get?_eq_none_of_not_lt {j k : String} {m : Keyed α} (h : ∀ e ∈ m, j < e.1) (hjk : ¬ j < k) :
    get? m k = none :=
  get?_eq_none fun e he hek => hjk (hek ▸ h e he)

theorem get?_eq_some_iff {k : String} {v : α} {m : Keyed α} (h : m.Ordered) :
    get? m k = some v ↔ (k, v) ∈ m := by
  induction m with
  | nil => simp
  | cons e m ih =>
    obtain ⟨j, w⟩ := e
    obtain ⟨hj, hm⟩ := ordered_cons_iff.mp h
    rw [get?_cons, List.mem_cons]
    by_cases hjk : j = k
    · subst hjk
      have hlater : (j, v) ∉ m := fun hmem => String.lt_irrefl j (hj _ hmem)
      simp [hlater, eq_comm]
    · have hfirst : (k, v) ≠ (j, w) := fun he => hjk (congrArg Prod.fst he).symm
      simp [hjk, hfirst, ih hm]

theorem mem_map_fst_iff {k : String} {m : Keyed α} : k ∈ m.map Prod.fst ↔ ∃ v, get? m k = some v := by
  induction m with
  | nil => simp
  | cons e m ih =>
    obtain ⟨j, w⟩ := e
    rw [List.map_cons, List.mem_cons, ih, get?_cons]
    by_cases hjk : j = k
    · simp [hjk]
    · simp [hjk, Ne.symm hjk]

theorem eq_of_get?_eq {m n : Keyed α} (hm : m.Ordered) (hn : n.Ordered)
    (h : ∀ k, get? m k = get? n k) : m = n := by
  induction m generalizing n with
  | nil =>
    cases n with
    | nil => rfl
    | cons e n =>
      obtain ⟨k, v⟩ := e
      simpa using h k
  | cons d m ih =>
    obtain ⟨j, w⟩ := d
    obtain ⟨hj, hm'⟩ := ordered_cons_iff.mp hm
    cases n with
    | nil => simpa using h j
    | cons e n =>
      obtain ⟨k, v⟩ := e
      obtain ⟨hk, hn'⟩ := ordered_cons_iff.mp hn
      -- The smaller of two different first names would be bound in one map only.
      have hjk : j = k := by
        by_cases hjk : j = k
        · exact hjk
        rcases Std.le_total (a := j) (b := k) with hle | hle
        · have hnone := get?_eq_none_of_not_lt hk (String.not_lt.mpr hle)
          simpa [Ne.symm hjk, hnone] using h j
        · have hnone := get?_eq_none_of_not_lt hj (String.not_lt.mpr hle)
          simpa [hjk, hnone] using h k
      subst hjk
      have hwv : w = v := by simpa using h j
      refine congr (congrArg _ (by rw [hwv])) (ih hm' hn' fun i => ?_)
      by_cases hji : j = i
      · subst hji
        rw [get?_eq_none_of_not_lt hj (String.lt_irrefl j),
          get?_eq_none_of_not_lt hk (String.lt_irrefl j)]
      · simpa [hji] using h i

end Keyed
end TopicLoad
