import TopicLoad.Proofs.ExactValues
import TopicLoad.Engine.Task

/-! How far jitter takes a think time from its duration. What is computed is written down once for any
numbers: with doubles it is what runs, and with rational numbers it is that without the rounding of single
operations. The bounds are those of the exact computation, in which only the nanoseconds are rounded. -/
namespace TopicLoad

namespace Engine

/-- Numbers that think times are spread with: how doubles and whole numbers are taken into them, and
how seconds in them become a duration. -/
structure Arithmetic (α : Type) where
  ofDouble : Float → α
  ofWhole : Nat → α
  duration? : α → Option Duration

namespace Arithmetic

/-! ## Think times in any arithmetic -/

section Any

variable {α : Type} [Add α] [Sub α] [Mul α] [Div α] (a : Arithmetic α) (p : Pause)

def seconds (d : Duration) : α :=
  a.ofWhole d.seconds + a.ofWhole d.beyondSeconds / a.ofDouble 1e9

def range? : Option (α × α) :=
  match p.jitter with
  | some j =>
    if 0.0 < j ∧ p.duration ≠ .zero then
      let spread := a.ofDouble (if j < 100.0 then j else 100.0) / a.ofDouble 100.0
      some (a.ofDouble 1.0 - spread, a.ofDouble 1.0 + spread)
    else none
  | none => none

def effective? (draw : α → α → α) : Option Duration :=
  match a.range? p with
  | some (low, high) => a.duration? (draw low high * a.seconds p.duration)
  | none => some p.duration

end Any

def doubles : Arithmetic Float where
  ofDouble x := x
  ofWhole n := n.toUInt64.toFloat
  duration? x := if x.isFinite then Duration.ofSeconds? x else none

def rationals : Arithmetic ℚ where
  ofDouble := Double.toRat
  ofWhole n := n
  duration? q :=
    let n := Double.rounded (q * Duration.perSecond)
    if 0 ≤ q ∧ n / Duration.perSecond < Duration.secondsLimit then some ⟨n⟩ else none

end Arithmetic

open Arithmetic

theorem Pause.range?_eq_doubles (p : Pause) : p.range? = doubles.range? p := rfl

theorem Pause.effective?_eq_doubles (p : Pause) (seed : Seed) :
    p.effective? seed = doubles.effective? p seed.between := by
  rw [effective?, Arithmetic.effective?, range?_eq_doubles]
  cases doubles.range? p <;> rfl

theorem Arithmetic.duration?_toRat {x : Float} (hx : x.isFinite = true) (hsign : ¬ x < 0.0) :
    rationals.duration? (Double.toRat x) = doubles.duration? x := by
  have hnot : 0 ≤ Double.toRat x := by
    rw [Double.lt_iff_toRat hx rfl, Double.toRat_zero] at hsign
    exact not_lt.mp hsign
  simp only [rationals, doubles, hx, hnot, true_and, if_true, Duration.ofSeconds?,
    Double.scaledMagnitude_eq_rounded hx hsign]

namespace Pause

variable {p : Pause} {j : Float}

/-! ## When the duration is kept -/

/-- The jitter is absent or no positive number, or there is nothing to spread. -/
def Kept (p : Pause) : Prop :=
  p.jitter = none ∨ (∃ j, p.jitter = some j ∧ (j.isNaN = true ∨ j ≤ 0.0)) ∨ p.duration = .zero

section Any

variable {α : Type} [Add α] [Sub α] [Div α] (a : Arithmetic α)

theorem Kept.range? (h : p.Kept) : a.range? p = none := by
  rcases h with hnone | ⟨j, hj, hbad⟩ | hzero
  · simp only [Arithmetic.range?, hnone]
  · have hnot : ¬ (0.0 < j ∧ p.duration ≠ .zero) :=
      fun hspread => (Double.zero_lt_iff j).mp hspread.1 hbad
    simp only [Arithmetic.range?, hj, if_neg hnot]
  · have hnot {j : Float} : ¬ (0.0 < j ∧ p.duration ≠ .zero) := fun hspread => hspread.2 hzero
    rw [Arithmetic.range?]
    split
    · rw [if_neg hnot]
    · rfl

theorem Kept.effective? [Mul α] (h : p.Kept) (draw : α → α → α) :
    a.effective? p draw = some p.duration := by
  rw [Arithmetic.effective?, h.range? a]

end Any

theorem exists_jitter (h : ¬ p.Kept) :
    ∃ j, p.jitter = some j ∧ 0.0 < j ∧ p.duration ≠ .zero := by
  obtain ⟨hsome, hspread⟩ := not_or.mp h
  obtain ⟨hnumber, hduration⟩ := not_or.mp hspread
  obtain ⟨j, hj⟩ := Option.ne_none_iff_exists'.mp hsome
  exact ⟨j, hj, (Double.zero_lt_iff j).mpr fun hbad => hnumber ⟨j, hj, hbad⟩, hduration⟩

/-! ## How far it is spread -/

/-- The part of the duration by which it is spread: as many hundredths as the jitter, but not more
than all of it. -/
def spread (p : Pause) : ℚ :=
  match p.jitter with
  | some j => if j.isFinite then min (Double.toRat j) 100 / 100 else 1
  | none => 0

theorem spread_of_jitter (hj : p.jitter = some j) (hpositive : 0.0 < j) :
    p.spread = Double.toRat (if j < 100.0 then j else 100.0) / 100 := by
  simp only [spread, hj]
  by_cases hfinite : j.isFinite = true
  · rw [if_pos hfinite, apply_ite Double.toRat, Double.toRat_hundred, min_def_lt]
    simp only [Double.lt_iff_toRat hfinite (show (100.0 : Float).isFinite = true from rfl),
      Double.toRat_hundred]
  · rw [if_neg hfinite, if_neg (Double.not_lt_of_not_isFinite hfinite hpositive _),
      Double.toRat_hundred]
    norm_num

theorem spread_le_one (hj : p.jitter = some j) : p.spread ≤ 1 := by
  simp only [spread, hj]
  split
  · rw [div_le_one (by norm_num)]
    exact min_le_right _ _
  · exact le_refl 1

theorem spread_pos (hj : p.jitter = some j) (hpositive : 0.0 < j) : 0 < p.spread := by
  simp only [spread, hj]
  split
  · next hfinite =>
    have hvalue : 0 < Double.toRat j := by
      rwa [Double.lt_iff_toRat rfl hfinite, Double.toRat_zero] at hpositive
    positivity
  · exact one_pos

theorem range?_rationals (hj : p.jitter = some j) (hpositive : 0.0 < j)
    (hduration : p.duration ≠ .zero) :
    rationals.range? p = some (1 - p.spread, 1 + p.spread) := by
  simp only [Arithmetic.range?, hj, if_pos (And.intro hpositive hduration), rationals,
    Double.toRat_one, Double.toRat_hundred, spread_of_jitter hj hpositive]

end Pause

namespace Arithmetic

theorem seconds_rationals (d : Duration) :
    rationals.seconds d = (d.nanoseconds : ℚ) / Duration.perSecond := by
  have hsplit : (d.nanoseconds : ℚ) = d.seconds * Duration.perSecond + d.beyondSeconds := by
    exact_mod_cast (Nat.div_add_mod' d.nanoseconds Duration.perSecond).symm
  simp only [seconds, rationals, Double.toRat_billion]
  rw [hsplit, Duration.perSecond]
  push_cast
  ring

/-- A duration of less than `2 ^ 63` seconds can be doubled, and any factor up to two is exact up to
half a nanosecond. -/
theorem duration?_scaled {d : Duration} {f : ℚ} (hf : 0 ≤ f) (hf' : f ≤ 2)
    (hd : d.seconds < Limits.bits63) :
    ∃ r, rationals.duration? (f * rationals.seconds d) = some r ∧
      |(r.nanoseconds : ℚ) - d.nanoseconds * f| ≤ 1 / 2 ∧ r.nanoseconds ≤ 2 * d.nanoseconds := by
  have hvalue : f * rationals.seconds d * Duration.perSecond = d.nanoseconds * f := by
    rw [seconds_rationals, Duration.perSecond]
    push_cast
    ring
  have hproduct : 0 ≤ (d.nanoseconds : ℚ) * f := by positivity
  have hround := Double.abs_rounded_sub_le hproduct
  have hdouble : Double.rounded (d.nanoseconds * f) ≤ 2 * d.nanoseconds := by
    have hbound : (d.nanoseconds : ℚ) * f ≤ d.nanoseconds * 2 := by gcongr
    have hbelow : (Double.rounded (d.nanoseconds * f) : ℚ) < (2 * d.nanoseconds + 1 : Nat) := by
      push_cast
      linarith [(abs_le.mp hround).2]
    exact Nat.lt_succ_iff.mp (by exact_mod_cast hbelow)
  have hlimit : Double.rounded (d.nanoseconds * f) / Duration.perSecond < Duration.secondsLimit := by
    rw [Duration.seconds, Nat.div_lt_iff_lt_mul (by decide)] at hd
    rw [Nat.div_lt_iff_lt_mul (by decide)]
    simp only [Duration.secondsLimit, Limits.bits63, Limits.bits64, Duration.perSecond] at hd ⊢
    omega
  have hseconds : 0 ≤ f * rationals.seconds d := by
    rw [seconds_rationals]
    positivity
  refine ⟨⟨Double.rounded (d.nanoseconds * f)⟩, ?_, hround, hdouble⟩
  have hresult : rationals.duration? (f * rationals.seconds d) =
    let n := Double.rounded (f * rationals.seconds d * Duration.perSecond)
    if 0 ≤ f * rationals.seconds d ∧ n / Duration.perSecond < Duration.secondsLimit then some ⟨n⟩
    else none := rfl
  rw [hresult, hvalue]
  exact if_pos ⟨hseconds, hlimit⟩

end Arithmetic

/-- What runs is the computation at doubles, and rational seconds are rounded as doubles are. A think
time is kept as it is, and nothing is drawn, without a positive jitter or a duration. Otherwise a factor
is drawn from a range about one that is not empty and has nothing negative in it, and any such factor
gives a duration within the bounds if only nanoseconds are rounded. -/
theorem Pause.jitter_stays_in_bounds (p : Pause) :
    (p.range? = doubles.range? p ∧
      (∀ seed : Seed, p.effective? seed = doubles.effective? p seed.between) ∧
      ∀ x : Float, x.isFinite = true → ¬ x < 0.0 →
        rationals.duration? (Double.toRat x) = doubles.duration? x) ∧
    (p.Kept →
      (p.range? = none ∧ ∀ seed, p.effective? seed = some p.duration) ∧
      rationals.range? p = none ∧ ∀ draw, rationals.effective? p draw = some p.duration) ∧
    (¬ p.Kept → p.duration.seconds < Limits.bits63 →
      rationals.range? p = some (1 - p.spread, 1 + p.spread) ∧
      0 ≤ 1 - p.spread ∧ 1 - p.spread ≤ 1 + p.spread ∧
      ∀ draw : ℚ → ℚ → ℚ,
        1 - p.spread ≤ draw (1 - p.spread) (1 + p.spread) →
        draw (1 - p.spread) (1 + p.spread) ≤ 1 + p.spread →
        ∃ r, rationals.effective? p draw = some r ∧
          p.duration.nanoseconds * (1 - p.spread) - 1 ≤ r.nanoseconds ∧
          r.nanoseconds ≤ p.duration.nanoseconds * (1 + p.spread) + 1 ∧
          r.nanoseconds ≤ 2 * p.duration.nanoseconds) := by
  refine ⟨⟨p.range?_eq_doubles, p.effective?_eq_doubles, fun _ => duration?_toRat⟩,
    fun hkept => ?_, fun hspread hlimit => ?_⟩
  · refine ⟨⟨hkept.range? doubles, fun seed => ?_⟩,
      hkept.range? rationals, hkept.effective? rationals⟩
    exact (p.effective?_eq_doubles seed).trans (hkept.effective? doubles _)
  · obtain ⟨j, hj, hpositive, hduration⟩ := exists_jitter hspread
    have hrange := range?_rationals hj hpositive hduration
    have hone := spread_le_one hj
    have hzero := spread_pos hj hpositive
    refine ⟨hrange, by linarith, by linarith, fun draw hlow hhigh => ?_⟩
    -- What is drawn scales the duration, which is then rounded by at most a nanosecond.
    obtain ⟨r, hr, hround, hdouble⟩ := duration?_scaled (f := draw (1 - p.spread) (1 + p.spread))
      (by linarith) (by linarith) hlimit
    obtain ⟨hbelow, habove⟩ := abs_le.mp hround
    refine ⟨r, by rw [Arithmetic.effective?, hrange]; exact hr, ?_, ?_, hdouble⟩
    · have hfloor : (p.duration.nanoseconds : ℚ) * (1 - p.spread) ≤
        p.duration.nanoseconds * draw (1 - p.spread) (1 + p.spread) := by gcongr
      linarith
    · have hceiling : (p.duration.nanoseconds : ℚ) * draw (1 - p.spread) (1 + p.spread) ≤
        p.duration.nanoseconds * (1 + p.spread) := by gcongr
      linarith

/-- Half a second without jitter, and a second with ten percent at the lower end of the range. -/
theorem Pause.kept_and_spread :
    Pause.effective? ⟨⟨500000000⟩, some 0.0⟩ ⟨7⟩ = some ⟨500000000⟩ ∧
    ∃ r, rationals.effective? ⟨⟨1000000000⟩, some 10.0⟩ (fun low _ => low) = some r ∧
      899999999 ≤ r.nanoseconds ∧ r.nanoseconds ≤ 1100000001 := by
  obtain ⟨-, hkept, -⟩ := jitter_stays_in_bounds ⟨⟨500000000⟩, some 0.0⟩
  obtain ⟨-, -, hspread⟩ := jitter_stays_in_bounds ⟨⟨1000000000⟩, some 10.0⟩
  refine ⟨(hkept (.inr (.inl ⟨0.0, rfl, .inr (by decide +kernel)⟩))).1.2 ⟨7⟩, ?_⟩
  have hten : Double.toRat 10.0 = 10 := by
    rw [Double.toRat, show (10.0 : Float).toModel.unpack =
      .finite .positive 5629499534213120 (-49) (by decide) from rfl]
    norm_num
  have htenth : (Pause.mk ⟨1000000000⟩ (some 10.0)).spread = 1 / 10 := by
    have hfinite : (10.0 : Float).isFinite = true := by decide +kernel
    simp only [Pause.spread, hfinite, if_true, hten]
    norm_num
  have hnot : ¬ (Pause.mk ⟨1000000000⟩ (some 10.0)).Kept := by
    rintro (hnone | ⟨j, hj, hbad⟩ | hzero)
    · cases hnone
    · obtain rfl := Option.some.inj hj
      exact absurd hbad (by decide +kernel)
    · exact absurd hzero (by decide)
  obtain ⟨-, -, -, hdraw⟩ := hspread hnot (by decide)
  rw [htenth] at hdraw
  obtain ⟨r, hr, hlow, hhigh, -⟩ := hdraw (fun low _ => low) (by norm_num) (by norm_num)
  norm_num at hlow hhigh
  exact ⟨r, hr, by exact_mod_cast hlow, by exact_mod_cast hhigh⟩

end Engine
end TopicLoad
