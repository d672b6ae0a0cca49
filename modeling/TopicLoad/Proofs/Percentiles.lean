import Mathlib.Data.List.Sort
import Mathlib.Data.Rat.Floor
import Mathlib.Tactic.FieldSimp
import Mathlib.Tactic.Linarith
import TopicLoad.Metrics.Summary

/-! What a summary says of the samples it is made of. Samples are put in their total order, in which there
is only one way to put them; a percentile is the sample of nearest rank in it. -/
namespace TopicLoad

namespace Sample

variable {a b c : Sample}

theorem le_iff : Sample.le a b = true ↔ a.place ≤ b.place := by
  simp [Sample.le]

theorem le_refl (a : Sample) : Sample.le a a = true := le_iff.mpr (Nat.le_refl _)

theorem le_trans (h : Sample.le a b = true) (h' : Sample.le b c = true) : Sample.le a c = true :=
  le_iff.mpr (Nat.le_trans (le_iff.mp h) (le_iff.mp h'))

theorem le_total (a b : Sample) : (Sample.le a b || Sample.le b a) = true := by
  rcases Nat.le_total a.place b.place with h | h
  · simp [le_iff.mpr h]
  · simp [le_iff.mpr h]

theorem le_antisymm (h : Sample.le a b = true) (h' : Sample.le b a = true) : a = b :=
  place_injective (Nat.le_antisymm (le_iff.mp h) (le_iff.mp h'))

end Sample
namespace Summary

variable {samples samples' : List Sample} {p n : Nat} {v : Sample}

/-! ## Samples in order -/

theorem sorted_perm (samples : List Sample) : (sorted samples).Perm samples :=
  List.mergeSort_perm samples Sample.le

theorem length_sorted (samples : List Sample) : (sorted samples).length = samples.length :=
  (sorted_perm samples).length_eq

theorem sorted_ascends (samples : List Sample) :
    (sorted samples).Pairwise fun a b => Sample.le a b = true :=
  @List.pairwise_mergeSort _ Sample.le (fun _ _ _ => Sample.le_trans) Sample.le_total samples

theorem sorted_eq_of_perm (h : samples.Perm samples') : sorted samples = sorted samples' := by
  have hperm : (sorted samples).Perm (sorted samples') :=
    ((sorted_perm samples).trans h).trans (sorted_perm samples').symm
  exact hperm.eq_of_pairwise (fun a b _ _ => Sample.le_antisymm) (sorted_ascends samples)
    (sorted_ascends samples')

theorem le_of_getElem? {ordered : List Sample} (h : ordered.Pairwise fun a b => Sample.le a b = true)
    {i j : Nat} {a b : Sample} (hij : i ≤ j) (ha : ordered[i]? = some a) (hb : ordered[j]? = some b) :
    Sample.le a b = true := by
  obtain ⟨hi, rfl⟩ := List.getElem?_eq_some_iff.mp ha
  obtain ⟨hj, rfl⟩ := List.getElem?_eq_some_iff.mp hb
  rcases Nat.lt_or_eq_of_le hij with hlt | rfl
  · exact List.pairwise_iff_getElem.mp h i j hi hj hlt
  · exact Sample.le_refl _

/-! ## Ranks -/

theorem rank_spec (hp : 0 < p) (hp' : p ≤ 100) (hn : 0 < n) :
    1 ≤ rank p n ∧ rank p n ≤ n ∧ 100 * (rank p n - 1) < p * n ∧ p * n ≤ 100 * rank p n := by
  have hpos : 0 < p * n := Nat.mul_pos hp hn
  have hle : p * n ≤ 100 * n := Nat.mul_le_mul_right n hp'
  simp only [rank, Nat.max_def, Nat.min_def]
  generalize p * n = k at *
  split <;> split <;> omega

theorem rank_eq_ceil (hp : 0 < p) (hp' : p ≤ 100) (hn : 0 < n) :
    rank p n = ⌈(p / 100 : ℚ) * n⌉₊ := by
  obtain ⟨hlow, -, hfew, henough⟩ := rank_spec hp hp' hn
  have hfew' : (100 * (rank p n - 1 : ℕ) : ℚ) < p * n := by exact_mod_cast hfew
  have henough' : (p * n : ℚ) ≤ 100 * rank p n := by exact_mod_cast henough
  refine ((Nat.ceil_eq_iff (by omega)).mpr ⟨?_, ?_⟩).symm
  · linarith
  · linarith

theorem rank_mono {q : Nat} (h : p ≤ q) : rank p n ≤ rank q n := by
  have hmul : p * n ≤ q * n := Nat.mul_le_mul_right n h
  simp only [rank, Nat.max_def, Nat.min_def]
  generalize p * n = k at *
  generalize q * n = l at *
  split_ifs <;> omega

/-- The sample of nearest rank: it stands at the rank, which is one of those there are; at least the
fraction of the samples is not above it, and less than the fraction stands before it. -/
structure NearestRank (p : Nat) (samples : List Sample) (v : Sample) : Prop where
  rank_eq : rank p samples.length = ⌈(p / 100 : ℚ) * samples.length⌉₊
  one_le_rank : 1 ≤ rank p samples.length
  rank_le : rank p samples.length ≤ samples.length
  stands : (sorted samples)[rank p samples.length - 1]? = some v
  mem : v ∈ samples
  enough : p * samples.length ≤ 100 * samples.countP fun x => Sample.le x v
  few : 100 * ((sorted samples).take (rank p samples.length - 1)).length < p * samples.length

theorem exists_nearestRank (hp : 0 < p) (hp' : p ≤ 100) (h : samples ≠ []) :
    ∃ v, percentile p (sorted samples) = some v ∧ NearestRank p samples v := by
  have hn : 0 < samples.length := List.length_pos_iff.mpr h
  obtain ⟨hlow, hhigh, hfew, henough⟩ := rank_spec hp hp' hn
  have hlength := length_sorted samples
  have hindex : rank p samples.length - 1 < (sorted samples).length := by omega
  generalize hv : (sorted samples)[rank p samples.length - 1] = v
  have hstands : (sorted samples)[rank p samples.length - 1]? = some v :=
    hv ▸ List.getElem?_eq_getElem hindex
  -- All up to the rank are below or at the sample that stands there.
  have hfront : ∀ x ∈ (sorted samples).take (rank p samples.length), Sample.le x v = true := by
    intro x hx
    obtain ⟨i, hi, rfl⟩ := List.mem_take_iff_getElem.mp hx
    exact le_of_getElem? (sorted_ascends samples) (by omega)
      (List.getElem?_eq_getElem (by omega)) hstands
  have hcount : rank p samples.length ≤ samples.countP fun x => Sample.le x v := by
    have htake := List.countP_eq_length.mpr hfront
    have hsub : ((sorted samples).take (rank p samples.length)).countP (fun x => Sample.le x v)
        ≤ (sorted samples).countP fun x => Sample.le x v :=
      (List.take_sublist _ _).countP_le
    rw [htake, List.length_take, hlength, (sorted_perm samples).countP_eq] at hsub
    omega
  refine ⟨v, by rw [percentile, hlength]; exact hstands, ?_⟩
  exact {
    rank_eq := rank_eq_ceil hp hp' hn
    one_le_rank := hlow
    rank_le := hhigh
    stands := hstands
    mem := (sorted_perm samples).subset (List.mem_of_getElem? hstands)
    enough := by omega
    few := by rw [List.length_take]; omega }

theorem NearestRank.le {q : Nat} {w : Sample} (hv : NearestRank p samples v)
    (hw : NearestRank q samples w) (h : p ≤ q) : Sample.le v w = true :=
  le_of_getElem? (sorted_ascends samples) (Nat.sub_le_sub_right (rank_mono h) 1) hv.stands hw.stands

/-! ## Summaries -/

theorem least_of_head? (h : (sorted samples).head? = some v) :
    v ∈ samples ∧ ∀ x ∈ samples, Sample.le v x = true := by
  rw [List.head?_eq_getElem?] at h
  refine ⟨(sorted_perm samples).subset (List.mem_of_getElem? h), fun x hx => ?_⟩
  obtain ⟨i, hi⟩ := List.mem_iff_getElem?.mp ((sorted_perm samples).mem_iff.mpr hx)
  exact le_of_getElem? (sorted_ascends samples) (Nat.zero_le i) h hi

theorem greatest_of_getLast? (h : (sorted samples).getLast? = some v) :
    v ∈ samples ∧ ∀ x ∈ samples, Sample.le x v = true := by
  rw [List.getLast?_eq_getElem?] at h
  refine ⟨(sorted_perm samples).subset (List.mem_of_getElem? h), fun x hx => ?_⟩
  obtain ⟨i, hi⟩ := List.mem_iff_getElem?.mp ((sorted_perm samples).mem_iff.mpr hx)
  obtain ⟨hlt, -⟩ := List.getElem?_eq_some_iff.mp hi
  exact le_of_getElem? (sorted_ascends samples) (by omega) hi h

theorem ofSamples_eq_some (h : samples ≠ []) : ∃ s, ofSamples samples = some s ∧
    s.count = (sorted samples).length ∧ (sorted samples).head? = some s.min ∧
    (sorted samples).getLast? = some s.max ∧ percentile 50 (sorted samples) = some s.p50 ∧
    percentile 95 (sorted samples) = some s.p95 ∧ percentile 99 (sorted samples) = some s.p99 := by
  have hpos : 0 < samples.length := List.length_pos_iff.mpr h
  have hne : sorted samples ≠ [] := List.length_pos_iff.mp (length_sorted samples ▸ hpos)
  have hmin := List.head?_eq_some_head hne
  have hmax := List.getLast?_eq_some_getLast hne
  obtain ⟨p50, h50, -⟩ := exists_nearestRank (p := 50) (by decide) (by decide) h
  obtain ⟨p95, h95, -⟩ := exists_nearestRank (p := 95) (by decide) (by decide) h
  obtain ⟨p99, h99, -⟩ := exists_nearestRank (p := 99) (by decide) (by decide) h
  exact ⟨_, by simp [ofSamples, hmin, hmax, h50, h95, h99]; rfl, rfl, hmin, hmax, h50, h95, h99⟩

theorem nearestRank_of_percentile (hp : 0 < p) (hp' : p ≤ 100) (h : samples ≠ [])
    (hv : percentile p (sorted samples) = some v) : NearestRank p samples v := by
  obtain ⟨w, hw, hrank⟩ := exists_nearestRank hp hp' h
  have : w = v := Option.some.inj (hw.symm.trans hv)
  exact this ▸ hrank

/-- What a summary says of the samples, of which there must be some: how many they are, the least, the
greatest and three of nearest rank, each at or above the one before. -/
theorem summary_nearest_rank (h : samples ≠ []) : ∃ s, ofSamples samples = some s ∧
    s.count = samples.length ∧
    (s.min ∈ samples ∧ ∀ x ∈ samples, Sample.le s.min x = true) ∧
    (s.max ∈ samples ∧ ∀ x ∈ samples, Sample.le x s.max = true) ∧
    NearestRank 50 samples s.p50 ∧ NearestRank 95 samples s.p95 ∧ NearestRank 99 samples s.p99 ∧
    Sample.le s.min s.p50 = true ∧ Sample.le s.p50 s.p95 = true ∧ Sample.le s.p95 s.p99 = true ∧
    Sample.le s.p99 s.max = true := by
  obtain ⟨s, hs, hcount, hmin, hmax, hp50, hp95, hp99⟩ := ofSamples_eq_some h
  have hleast := least_of_head? hmin
  have hgreatest := greatest_of_getLast? hmax
  have h50 := nearestRank_of_percentile (by decide) (by decide) h hp50
  have h95 := nearestRank_of_percentile (by decide) (by decide) h hp95
  have h99 := nearestRank_of_percentile (by decide) (by decide) h hp99
  refine ⟨s, hs, hcount.trans (length_sorted samples), hleast, hgreatest, h50, h95, h99, ?_⟩
  have hlow := hleast.2 s.p50 h50.mem
  have hhigh := hgreatest.2 s.p99 h99.mem
  exact ⟨hlow, h50.le h95 (by decide), h95.le h99 (by decide), hhigh⟩

/-- Samples of which two are zeros, one an infinity and one no number. -/
def extremes : List Sample :=
  [⟨0x7ff8000000000000⟩, ⟨0⟩, ⟨0xfff0000000000000⟩, ⟨0x8000000000000000⟩]

theorem extremes_nearest_rank : extremes ≠ [] ∧ ∃ s, ofSamples extremes = some s ∧ s.count = 4 ∧
    s.min = ⟨0xfff0000000000000⟩ ∧ s.p50 = ⟨0x8000000000000000⟩ ∧ s.max = ⟨0x7ff8000000000000⟩ := by
  have hne : extremes ≠ [] := by decide
  refine ⟨hne, ?_⟩
  obtain ⟨s, hs, hcount, hmin, hmax, h50, -⟩ := summary_nearest_rank hne
  have hperm : (sorted extremes).Perm
      [⟨0xfff0000000000000⟩, ⟨0x8000000000000000⟩, ⟨0⟩, ⟨0x7ff8000000000000⟩] :=
    (sorted_perm extremes).trans (by decide)
  have hsorted := hperm.eq_of_pairwise (fun _ _ _ _ => Sample.le_antisymm) (sorted_ascends extremes)
    (by decide)
  have hmiddle : some ⟨0x8000000000000000⟩ = some s.p50 := by
    rw [← h50.stands, hsorted]
    decide
  have hbelow : ∀ x ∈ extremes, Sample.le ⟨0xfff0000000000000⟩ x = true := by decide
  have habove : ∀ x ∈ extremes, Sample.le x ⟨0x7ff8000000000000⟩ = true := by decide
  refine ⟨s, hs, hcount, ?_, (Option.some.inj hmiddle).symm, ?_⟩
  · exact Sample.le_antisymm (hmin.2 _ (by decide)) (hbelow _ hmin.1)
  · exact Sample.le_antisymm (habove _ hmax.1) (hmax.2 _ (by decide))

end Summary
end TopicLoad
