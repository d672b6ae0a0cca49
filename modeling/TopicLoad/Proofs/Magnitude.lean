import Mathlib
import TopicLoad.Think

/-! How large the doubles are that fit a duration. The magnitude of a double is read off its bits in
`Decimal.Binary.ofBits`; comparing doubles goes through the unpacked form of the same bits. The two agree
on finite doubles, so the seconds fit 64 bits exactly if the double compares as below `2 ^ 64`. -/
namespace TopicLoad
namespace Double

open Float.Model

def magnitude? : UnpackedFloat → Option (Nat × Int)
  | .zero _ => some (0, -1074)
  | .finite _ m e _ => some (m, e)
  | _ => none

/-- The mantissa of a double has at most 53 bits, and exactly 53 unless the exponent is the least. -/
structure Canonical (m : Nat) (e : Int) : Prop where
  below : m < 2 ^ 53
  full : 2 ^ 52 ≤ m ∨ e = -1074

theorem unpackExponent_toNat (bits : UInt64) :
    (@UnpackedFloat.unpackExponent Format.binary64 bits.toBitVec).toNat =
      (bits.toNat >>> 52) % 2048 := by
  simp [UnpackedFloat.unpackExponent, BitVec.extractLsb_toNat]

theorem unpackMantissa_toNat (bits : UInt64) :
    (@UnpackedFloat.unpackMantissa Format.binary64 bits.toBitVec).toNat =
      bits.toNat % 0x10000000000000 := by
  simp [UnpackedFloat.unpackMantissa, BitVec.extractLsb_toNat]

theorem canonical_ofBits (bits : UInt64) :
    Canonical (Decimal.Binary.ofBits bits).mantissa (Decimal.Binary.ofBits bits).exponent := by
  have hfraction : bits.toNat % 0x10000000000000 < 0x10000000000000 := Nat.mod_lt _ (by decide)
  by_cases hfield : (bits.toNat >>> 52) % 2048 = 0
  · simp only [Decimal.Binary.ofBits, hfield, if_true]
    exact ⟨by omega, .inr rfl⟩
  · simp only [Decimal.Binary.ofBits, hfield, if_false]
    exact ⟨by omega, .inl (by omega)⟩

theorem toNat_one_append (v : BitVec 52) : (1#1 ++ v).toNat = v.toNat + 2 ^ 52 := by
  rw [BitVec.toNat_append, ← Nat.shiftLeft_add_eq_or_of_lt v.isLt]
  simp [Nat.shiftLeft_eq, Nat.add_comm]

theorem magnitude?_unpack {bits : UInt64}
    (h : (UnpackedFloat.unpack Format.binary64 bits.toBitVec).isFinite = true) :
    magnitude? (UnpackedFloat.unpack Format.binary64 bits.toBitVec) =
      some ((Decimal.Binary.ofBits bits).mantissa, (Decimal.Binary.ofBits bits).exponent) := by
  have he := unpackExponent_toNat bits
  have hm := unpackMantissa_toNat bits
  obtain ⟨field, hfield⟩ : ∃ field : BitVec 11,
    @UnpackedFloat.unpackExponent Format.binary64 bits.toBitVec = field := ⟨_, rfl⟩
  obtain ⟨fraction, hfraction⟩ : ∃ fraction : BitVec 52,
    @UnpackedFloat.unpackMantissa Format.binary64 bits.toBitVec = fraction := ⟨_, rfl⟩
  simp only [UnpackedFloat.unpack, hfield, hfraction] at h he hm ⊢
  simp only [Decimal.Binary.ofBits, ← he, ← hm]
  by_cases hall : field = -1#11
  · by_cases hnone : fraction = 0#52 <;> simp [hall, hnone, UnpackedFloat.isFinite] at h
  · by_cases hzero : field = 0#11
    · subst hzero
      by_cases hnone : fraction = 0#52
      · simp [hnone, magnitude?]
      · simp [hnone, magnitude?, Format.exponentBias]
    · have hpositive : field.toNat ≠ 0 := fun h => hzero (BitVec.eq_of_toNat_eq h)
      simp only [hall, hzero, hpositive, if_false, magnitude?, toNat_one_append, Format.exponentBias]
      simp

def bits64 : Float := 18446744073709551616.0

theorem unpack_bits64 : bits64.toModel.unpack = .finite .positive (2 ^ 52) 12 (by decide) := rfl

theorem unpack_zero : (0.0 : Float).toModel.unpack = .zero .positive := rfl

theorem lt_iff_unpack (x y : Float) : x < y ↔ x.toModel.unpack.lt y.toModel.unpack = true := by
  change decide (x.toModel < y.toModel) = true ↔ _
  rw [decide_eq_true_iff]
  exact Iff.rfl

theorem lt_bits64_iff {x : Float} (hfinite : x.isFinite = true) (hsign : ¬ x < 0.0) :
    x < bits64 ↔ (Decimal.Binary.ofBits x.toBits).exponent < 12 := by
  have hmagnitude := @magnitude?_unpack x.toBits hfinite
  have hcanonical := canonical_ofBits x.toBits
  change magnitude? x.toModel.unpack = _ at hmagnitude
  rw [lt_iff_unpack, unpack_zero] at hsign
  rw [lt_iff_unpack, unpack_bits64]
  cases hx : x.toModel.unpack with
  | infinity s => simp [hx, magnitude?] at hmagnitude
  | notANumber => simp [hx, magnitude?] at hmagnitude
  | zero s =>
    simp only [hx, magnitude?, Option.some.injEq, Prod.mk.injEq] at hmagnitude
    rw [← hmagnitude.2]
    simp [UnpackedFloat.lt, UnpackedFloat.compare]
  | finite s m e hm =>
    simp only [hx, magnitude?, Option.some.injEq, Prod.mk.injEq] at hmagnitude
    rw [← hmagnitude.1, ← hmagnitude.2] at hcanonical
    rw [← hmagnitude.2]
    cases s with
    | negative => simp [hx, UnpackedFloat.lt, UnpackedFloat.compare] at hsign
    | positive =>
      have hfull := hcanonical.full
      simp only [UnpackedFloat.lt, UnpackedFloat.compare, beq_iff_eq, Option.some.injEq,
        Ordering.then_eq_lt, Int.compare_eq_lt, Int.compare_eq_eq, Nat.compare_eq_lt]
      omega

theorem roundHalfEven_one (n : Nat) : roundHalfEven n 1 = n := by
  simp [roundHalfEven, Nat.mod_one]

theorem roundHalfEven_le (num : Nat) {den : Nat} (hden : 0 < den) : roundHalfEven num den ≤ num := by
  have hsplit := Nat.div_add_mod num den
  have hlow : num / den ≤ den * (num / den) := Nat.le_mul_of_pos_left _ hden
  simp only [roundHalfEven]
  split
  · omega
  · split
    · omega
    · split <;> omega

end Double

namespace Duration

theorem ofSeconds?_isSome_iff (x : Float) :
    (ofSeconds? x).isSome = true ↔ (Decimal.Binary.ofBits x.toBits).exponent < 12 := by
  have hcanonical := Double.canonical_ofBits x.toBits
  have hbelow := hcanonical.below
  have hsome : (ofSeconds? x).isSome = true ↔
      Double.scaledMagnitude x perSecond / perSecond < secondsLimit := by
    simp only [ofSeconds?]
    split <;> simp_all
  rw [hsome]
  simp only [Double.scaledMagnitude]
  generalize (Decimal.Binary.ofBits x.toBits).mantissa = m at *
  generalize (Decimal.Binary.ofBits x.toBits).exponent = e at *
  by_cases he : e < 0
  · have hzero : e.toNat = 0 := by omega
    have hround := Double.roundHalfEven_le (m * perSecond) (Nat.two_pow_pos (-e).toNat)
    have hlimit : m * perSecond < 2 ^ 53 * perSecond := Nat.mul_lt_mul_of_pos_right hbelow (by decide)
    rw [hzero, Nat.shiftLeft_zero, Nat.shiftLeft_eq, Nat.one_mul,
      Nat.div_lt_iff_lt_mul (by decide)]
    simp only [perSecond, secondsLimit, Limits.bits64] at *
    omega
  · obtain ⟨k, rfl⟩ := Int.eq_ofNat_of_zero_le (Int.not_lt.mp he)
    have hzero : (-(k : Int)).toNat = 0 := by omega
    rw [hzero, Nat.shiftLeft_zero, Double.roundHalfEven_one, Int.toNat_natCast, Nat.shiftLeft_eq,
      Nat.mul_right_comm, Nat.mul_div_cancel _ (by decide)]
    by_cases hk : k < 12
    · have hpower : 2 ^ k ≤ 2 ^ 11 := Nat.pow_le_pow_right (by decide) (by omega)
      have hproduct : m * 2 ^ k ≤ m * 2 ^ 11 := Nat.mul_le_mul_left m hpower
      simp only [secondsLimit, Limits.bits64]
      omega
    · have hfull : 2 ^ 52 ≤ m := hcanonical.full.resolve_right (by omega)
      have hpower : 2 ^ 12 ≤ 2 ^ k := Nat.pow_le_pow_right (by decide) (by omega)
      have hproduct : 2 ^ 52 * 2 ^ 12 ≤ m * 2 ^ k := Nat.mul_le_mul hfull hpower
      simp only [secondsLimit, Limits.bits64]
      omega

end Duration

namespace Think

/-- The seconds that a think value tells. -/
def read? : Json → Option Float
  | .num n => some n.toFloat
  | .str s => seconds? (Text.trim s.toList)
  | _ => none

theorem ofSeconds_eq_tooLong_iff (x : Float) :
    ofSeconds x = .error .tooLong ↔ x.isFinite = true ∧ ¬ x < 0.0 ∧ ¬ x < Double.bits64 := by
  by_cases hfinite : x.isFinite = true
  · by_cases hsign : x < 0.0
    · simp [ofSeconds, hsign]
    · have hbound := (Duration.ofSeconds?_isSome_iff x).trans (Double.lt_bits64_iff hfinite hsign).symm
      rw [← hbound]
      cases hd : Duration.ofSeconds? x <;> simp [ofSeconds, hfinite, hsign, hd]
  · simp [ofSeconds, hfinite]

theorem ofJson_eq_tooLong_iff (v : Json) :
    ofJson v = .error .tooLong ↔
      ∃ x, read? v = some x ∧ x.isFinite = true ∧ ¬ x < 0.0 ∧ ¬ x < Double.bits64 := by
  cases v with
  | num n => simp [ofJson, read?, ofSeconds_eq_tooLong_iff]
  | str s =>
    simp only [ofJson, ofText, read?]
    cases hx : seconds? (Text.trim s.toList) with
    | none => simp
    | some x =>
      simp only [Option.some.injEq, exists_eq_left', ← ofSeconds_eq_tooLong_iff]
      cases ofSeconds x with
      | ok d => simp
      | error f => cases f <;> simp
  | _ => simp [ofJson, read?]

end Think
end TopicLoad
