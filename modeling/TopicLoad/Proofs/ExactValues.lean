import TopicLoad.Proofs.Magnitude

/-! The rational numbers that doubles are. Doubles compare as these numbers do, and a duration is made of
a double by rounding its number to nanoseconds. -/
namespace TopicLoad

namespace Double

open Float.Model

/-! ## Exact values of doubles -/

def toRat (x : Float) : ℚ :=
  match x.toModel.unpack with
  | .finite .positive m e _ => m * 2 ^ e
  | .finite .negative m e _ => -(m * 2 ^ e)
  | _ => 0

/-- Mantissa and exponent of a double: the exponent is not below the least. -/
structure Representable (m : Nat) (e : Int) : Prop extends Canonical m e where
  least : -1074 ≤ e

theorem representable_ofBits (bits : UInt64) :
    Representable (Decimal.Binary.ofBits bits).mantissa (Decimal.Binary.ofBits bits).exponent := by
  refine ⟨canonical_ofBits bits, ?_⟩
  by_cases hfield : (bits.toNat >>> 52) % 2048 = 0
  · simp only [Decimal.Binary.ofBits, hfield, if_true, le_refl]
  · simp only [Decimal.Binary.ofBits, hfield, if_false]
    omega

theorem unpack_of_isFinite {x : Float} (hx : x.isFinite = true) :
    (∃ s, x.toModel.unpack = .zero s ∧ (Decimal.Binary.ofBits x.toBits).mantissa = 0) ∨
      ∃ s m e hm, x.toModel.unpack = .finite s m e hm ∧ Representable m e ∧
        m = (Decimal.Binary.ofBits x.toBits).mantissa ∧
        e = (Decimal.Binary.ofBits x.toBits).exponent := by
  have hmagnitude := @magnitude?_unpack x.toBits hx
  have hrepresentable := representable_ofBits x.toBits
  change magnitude? x.toModel.unpack = _ at hmagnitude
  cases hu : x.toModel.unpack with
  | infinity s => simp [hu, magnitude?] at hmagnitude
  | notANumber => simp [hu, magnitude?] at hmagnitude
  | zero s =>
    simp only [hu, magnitude?, Option.some.injEq, Prod.mk.injEq] at hmagnitude
    exact .inl ⟨s, rfl, hmagnitude.1.symm⟩
  | finite s m e hm =>
    simp only [hu, magnitude?, Option.some.injEq, Prod.mk.injEq] at hmagnitude
    obtain ⟨rfl, rfl⟩ := hmagnitude
    exact .inr ⟨s, _, _, hm, rfl, hrepresentable, rfl, rfl⟩

variable {m m' : Nat} {e e' : Int}

theorem Representable.lt_of_exponent_lt (h : Representable m e) (h' : Representable m' e') (hlt : e < e') :
    (m : ℚ) * 2 ^ e < m' * 2 ^ e' := by
  have hleast := h.least
  have hfull : 2 ^ 52 ≤ m' := h'.full.resolve_right (by omega)
  calc (m : ℚ) * 2 ^ e < 2 ^ 53 * 2 ^ e := by
        have hbelow : (m : ℚ) < 2 ^ 53 := by exact_mod_cast h.below
        gcongr
    _ = 2 ^ 52 * 2 ^ (e + 1) := by rw [zpow_add_one₀ two_ne_zero]; ring
    _ ≤ 2 ^ 52 * 2 ^ e' := by
        have hstep : e + 1 ≤ e' := hlt
        gcongr
        norm_num
    _ ≤ m' * 2 ^ e' := by
        have hfull : (2 : ℚ) ^ 52 ≤ m' := by exact_mod_cast hfull
        gcongr

theorem Representable.lt_iff (h : Representable m e) (h' : Representable m' e') :
    (m : ℚ) * 2 ^ e < m' * 2 ^ e' ↔ e < e' ∨ e = e' ∧ m < m' := by
  have hsame {m m' : Nat} {e : Int} : (m : ℚ) * 2 ^ e < m' * 2 ^ e ↔ m < m' := by
    rw [mul_lt_mul_iff_left₀ (zpow_pos two_pos e), Nat.cast_lt]
  rcases lt_trichotomy e e' with hlt | rfl | hgt
  · simp [h.lt_of_exponent_lt h' hlt, hlt]
  · simp [hsame]
  · have hnot := (h'.lt_of_exponent_lt h hgt).le.not_gt
    simp [hnot, hgt.not_gt, hgt.ne']

theorem Representable.compare_eq_lt (h : Representable m e) (h' : Representable m' e') :
    (compare e e').then (compare m m') = .lt ↔ (m : ℚ) * 2 ^ e < m' * 2 ^ e' := by
  rw [h.lt_iff h', Ordering.then_eq_lt, Int.compare_eq_lt, Int.compare_eq_eq, Nat.compare_eq_lt]

theorem Representable.compare_eq_gt (h : Representable m e) (h' : Representable m' e') :
    (compare e e').then (compare m m') = .gt ↔ (m' : ℚ) * 2 ^ e' < m * 2 ^ e := by
  rw [h'.lt_iff h, Ordering.then_eq_gt, Int.compare_eq_gt, Int.compare_eq_eq, Nat.compare_eq_gt,
    eq_comm]

theorem lt_iff_toRat {x y : Float} (hx : x.isFinite = true) (hy : y.isFinite = true) :
    x < y ↔ toRat x < toRat y := by
  have hpositive {m : Nat} {e : Int} (hm : 0 < m) : (0 : ℚ) < m * 2 ^ e := by positivity
  rw [lt_iff_unpack, toRat, toRat]
  rcases unpack_of_isFinite hx with ⟨s, hux, -⟩ | ⟨s, m, e, hm, hux, h, -⟩ <;>
    rcases unpack_of_isFinite hy with ⟨s', huy, -⟩ | ⟨s', m', e', hm', huy, h', -⟩ <;>
    simp only [hux, huy, UnpackedFloat.lt, UnpackedFloat.compare, beq_iff_eq]
  · simp
  · cases s' <;> simp [hpositive hm', (hpositive hm').le]
  · cases s <;> simp [hpositive hm, (hpositive hm).le]
  · have hvalue := hpositive (e := e) hm
    have hvalue' := hpositive (e := e') hm'
    cases s with
    | positive =>
      cases s' with
      | positive => simp [h.compare_eq_lt h']
      | negative => simp only [reduceCtorEq, Option.some.injEq, false_iff]; linarith
    | negative =>
      cases s' with
      | positive => simp only [true_iff]; linarith
      | negative => simp [h.compare_eq_gt h']

theorem zero_lt_iff (x : Float) : 0.0 < x ↔ ¬ (x.isNaN = true ∨ x ≤ 0.0) := by
  have hle : x ≤ 0.0 ↔ x.toModel.unpack.le (.zero .positive) = true := by
    change decide (x.toModel ≤ (0.0 : Float).toModel) = true ↔ _
    rw [decide_eq_true_iff]
    exact Iff.rfl
  rw [lt_iff_unpack, unpack_zero, hle]
  change _ ↔ ¬ (x.toModel.unpack.isNaN = true ∨ _)
  simp only [UnpackedFloat.lt, UnpackedFloat.le]
  cases x.toModel.unpack with
  | notANumber => simp [UnpackedFloat.compare, UnpackedFloat.isNaN]
  | zero s => simp [UnpackedFloat.compare, UnpackedFloat.isNaN]
  | infinity s => cases s <;> simp [UnpackedFloat.compare, UnpackedFloat.isNaN]
  | finite s m e => cases s <;> simp [UnpackedFloat.compare, UnpackedFloat.isNaN]

theorem not_lt_of_not_isFinite {x : Float} (hx : ¬ x.isFinite = true) (hpositive : 0.0 < x)
    (y : Float) : ¬ x < y := by
  change ¬ x.toModel.unpack.isFinite = true at hx
  rw [lt_iff_unpack, unpack_zero] at hpositive
  rw [lt_iff_unpack]
  cases hu : x.toModel.unpack with
  | zero s => simp [hu, UnpackedFloat.isFinite] at hx
  | finite s m e => simp [hu, UnpackedFloat.isFinite] at hx
  | notANumber => simp [hu, UnpackedFloat.lt, UnpackedFloat.compare] at hpositive
  | infinity s =>
    cases s with
    | negative => simp [hu, UnpackedFloat.lt, UnpackedFloat.compare] at hpositive
    | positive =>
      cases y.toModel.unpack with
      | infinity s => cases s <;> simp [UnpackedFloat.lt, UnpackedFloat.compare]
      | _ => simp [UnpackedFloat.lt, UnpackedFloat.compare]

theorem toRat_zero : toRat 0.0 = 0 := by rw [toRat, unpack_zero]

theorem toRat_one : toRat 1.0 = 1 := by
  rw [toRat, show (1.0 : Float).toModel.unpack =
    .finite .positive 4503599627370496 (-52) (by decide) from rfl]
  norm_num

theorem toRat_hundred : toRat 100.0 = 100 := by
  rw [toRat, show (100.0 : Float).toModel.unpack =
    .finite .positive 7036874417766400 (-46) (by decide) from rfl]
  norm_num

theorem toRat_billion : toRat 1e9 = 1000000000 := by
  rw [toRat, show (1e9 : Float).toModel.unpack =
    .finite .positive 8388608000000000 (-23) (by decide) from rfl]
  norm_num

/-! ## Rounding -/

/-- A number that is not negative, rounded to a whole number, a half to the even one. -/
def rounded (q : ℚ) : Nat := roundHalfEven q.num.toNat q.den

theorem abs_roundHalfEven_sub_le (num : Nat) {den : Nat} (hden : 0 < den) :
    |(roundHalfEven num den : ℚ) - num / den| ≤ 1 / 2 := by
  have hpositive : (0 : ℚ) < den := by exact_mod_cast hden
  have hsplit : (num : ℚ) / den = (num / den : Nat) + ((num % den : Nat) : ℚ) / den := by
    rw [eq_comm, eq_div_iff hpositive.ne', add_mul, div_mul_cancel₀ _ hpositive.ne']
    exact_mod_cast Nat.div_add_mod' num den
  have hrest : ((num % den : Nat) : ℚ) / den ≤ 1 :=
    (div_le_one hpositive).mpr (by exact_mod_cast (Nat.mod_lt num hden).le)
  have hrest₀ : (0 : ℚ) ≤ ((num % den : Nat) : ℚ) / den := by positivity
  have hlow (h : 2 * (num % den) ≤ den) : ((num % den : Nat) : ℚ) / den ≤ 1 / 2 := by
    rw [div_le_iff₀ hpositive]
    have hcast : (2 : ℚ) * (num % den : Nat) ≤ den := by exact_mod_cast h
    linarith
  have hhigh (h : den ≤ 2 * (num % den)) : 1 / 2 ≤ ((num % den : Nat) : ℚ) / den := by
    rw [le_div_iff₀ hpositive]
    have hcast : (den : ℚ) ≤ 2 * (num % den : Nat) := by exact_mod_cast h
    linarith
  rw [hsplit, abs_le]
  simp only [roundHalfEven]
  split
  · next h => exact ⟨by linarith [hlow h.le], by linarith⟩
  · split
    · next h => push_cast; exact ⟨by linarith, by linarith [hhigh h.le]⟩
    · next h h' =>
      have htie := hlow (not_lt.mp h')
      have htie' := hhigh (not_lt.mp h)
      split
      · exact ⟨by linarith, by linarith⟩
      · push_cast; exact ⟨by linarith, by linarith⟩

theorem roundHalfEven_mul_left {k : Nat} (hk : 0 < k) (num den : Nat) :
    roundHalfEven (k * num) (k * den) = roundHalfEven num den := by
  have hscale (a b : Nat) : 2 * (k * a) < k * b ↔ 2 * a < b := by
    rw [Nat.mul_left_comm, Nat.mul_lt_mul_left hk]
  have hscale' (a b : Nat) : k * b < 2 * (k * a) ↔ b < 2 * a := by
    rw [Nat.mul_left_comm, Nat.mul_lt_mul_left hk]
  simp only [roundHalfEven, Nat.mul_div_mul_left _ _ hk, Nat.mul_mod_mul_left, hscale, hscale']

theorem roundHalfEven_eq_rounded (num : Nat) {den : Nat} (hden : 0 < den) :
    roundHalfEven num den = rounded ((num : ℚ) / den) := by
  obtain ⟨c, hnum, hfrac⟩ := Rat.exists_eq_mul_div_num_and_eq_mul_div_den (num : ℤ)
    (d := den) (by exact_mod_cast hden.ne')
  simp only [Int.cast_natCast] at hnum hfrac
  set q : ℚ := (num : ℚ) / den
  have hq : 0 ≤ q.num := Rat.num_nonneg.mpr (by positivity)
  have hqden : (0 : ℤ) < q.den := by exact_mod_cast q.den_pos
  have hc : 0 < c := by
    have hproduct : 0 < c * q.den := by rw [← hfrac]; exact_mod_cast hden
    exact (pos_iff_pos_of_mul_pos hproduct).mpr hqden
  lift c to ℕ using hc.le
  have hnum' : num = c * q.num.toNat := by
    rw [← Int.toNat_of_nonneg hq] at hnum
    exact_mod_cast hnum
  have hden' : den = c * q.den := by exact_mod_cast hfrac
  rw [rounded, hnum', hden', roundHalfEven_mul_left (by exact_mod_cast hc)]

theorem abs_rounded_sub_le {q : ℚ} (hq : 0 ≤ q) : |(rounded q : ℚ) - q| ≤ 1 / 2 := by
  have hnum : ((q.num.toNat : Nat) : ℚ) = q.num := by
    exact_mod_cast Int.toNat_of_nonneg (Rat.num_nonneg.mpr hq)
  have hround := abs_roundHalfEven_sub_le q.num.toNat q.den_pos
  rwa [hnum, Rat.num_div_den] at hround

theorem toRat_eq_ofBits {x : Float} (hx : x.isFinite = true) (hsign : ¬ x < 0.0) :
    toRat x = (Decimal.Binary.ofBits x.toBits).mantissa *
      2 ^ (Decimal.Binary.ofBits x.toBits).exponent := by
  have hnot : ¬ toRat x < 0 := by rwa [lt_iff_toRat hx rfl, toRat_zero] at hsign
  rw [toRat] at hnot ⊢
  rcases unpack_of_isFinite hx with ⟨s, hu, hm⟩ | ⟨s, m, e, hm, hu, -, hmantissa, hexponent⟩
  · rw [hu, hm]
    simp
  · rw [hu] at hnot ⊢
    rw [← hmantissa, ← hexponent]
    cases s with
    | positive => rfl
    | negative =>
      have hpositive : (0 : ℚ) < m * 2 ^ e := by positivity
      exact absurd (neg_lt_zero.mpr hpositive) hnot

theorem scaledMagnitude_eq_rounded {x : Float} (hx : x.isFinite = true) (hsign : ¬ x < 0.0)
    (scale : Nat) : scaledMagnitude x scale = rounded (toRat x * scale) := by
  rw [toRat_eq_ofBits hx hsign, scaledMagnitude]
  generalize (Decimal.Binary.ofBits x.toBits).mantissa = m
  generalize (Decimal.Binary.ofBits x.toBits).exponent = e
  have hsplit : e = (e.toNat : Int) - ((-e).toNat : Int) := by omega
  have hpower : (2 : ℚ) ^ e = 2 ^ e.toNat / 2 ^ (-e).toNat := by
    conv_lhs => rw [hsplit]
    rw [zpow_sub₀ two_ne_zero, zpow_natCast, zpow_natCast]
  simp only [Nat.shiftLeft_eq, Nat.one_mul]
  rw [roundHalfEven_eq_rounded _ (Nat.two_pow_pos _), hpower]
  push_cast
  congr 1
  ring

end Double
end TopicLoad
