import InSitu.Proofs.Number.Integers
import InSitu.Proofs.Number.Order

/-!
# Rounding keeps the order

A mantissa with too many bits is shifted right one place at a time; two more
bits remember what was dropped.  Read as one number the three parts never change
their order, so neither does the rounded mantissa.  Natural numbers therefore
stay in order when they become doubles, also above `2 ^ 53`, where several of
them share one double.
-/

namespace InSitu.Number

open Float.Model (Format totalExponent UnpackedFloat)
open Float.Model.UnpackedFloat

/-- The mantissa, the round bit and the sticky bit as the digits of one number. -/
def weight (extended : ExtendedMantissa) : Nat :=
  4 * extended.mantissa + 2 * extended.roundBit.toNat + extended.stickyBit.toNat

theorem weight_shiftRightOne (extended : ExtendedMantissa) :
    weight extended.shiftRightOne =
      weight extended / 8 * 4 + weight extended / 4 % 2 * 2 +
        min (weight extended % 4) 1 := by
  obtain ⟨mantissa, round, sticky⟩ := extended
  rcases Nat.mod_two_eq_zero_or_one mantissa with even | odd
  · cases round <;> cases sticky <;>
      simp [weight, ExtendedMantissa.shiftRightOne, even] <;> omega
  · cases round <;> cases sticky <;>
      simp [weight, ExtendedMantissa.shiftRightOne, odd] <;> omega

theorem weight_shiftRight_mono {first second : ExtendedMantissa}
    (below : weight first ≤ weight second) (places : Nat) :
    weight (first >>> places) ≤ weight (second >>> places) := by
  induction places with
  | zero =>
      exact below
  | succ places inductionHypothesis =>
      change weight (first >>> places).shiftRightOne ≤
        weight (second >>> places).shiftRightOne
      rw [weight_shiftRightOne, weight_shiftRightOne]
      omega

theorem roundedMantissa_eq (extended : ExtendedMantissa) :
    extended.roundedMantissa =
      (weight extended + 1 + weight extended / 4 % 2) / 4 := by
  obtain ⟨mantissa, round, sticky⟩ := extended
  obtain ⟨half, rfl | rfl⟩ := Nat.even_or_odd' mantissa <;> cases round <;> cases sticky <;>
    simp only [weight, ExtendedMantissa.roundedMantissa, ExtendedMantissa.accuracy,
      Accuracy.roundToNearestEven, Bool.toNat_false, Bool.toNat_true] <;>
    omega

theorem roundedMantissa_mono {first second : ExtendedMantissa}
    (below : weight first ≤ weight second) :
    first.roundedMantissa ≤ second.roundedMantissa := by
  rw [roundedMantissa_eq, roundedMantissa_eq]
  have firstParity := Nat.mod_two_eq_zero_or_one (weight first / 4)
  have secondParity := Nat.mod_two_eq_zero_or_one (weight second / 4)
  rcases firstParity with firstEven | firstOdd <;>
    rcases secondParity with secondEven | secondOdd <;> omega

/-- The mantissa without its last places, rounded to the nearest, and to the
even one of two that are equally near. -/
def nearest (mantissa places : Nat) : Nat :=
  (ExtendedMantissa.ofMantissaAndAccuracy mantissa .exact >>> places).roundedMantissa

theorem nearest_mono {first second : Nat} (below : first ≤ second) (places : Nat) :
    nearest first places ≤ nearest second places := by
  have start : weight (ExtendedMantissa.ofMantissaAndAccuracy first .exact) ≤
      weight (ExtendedMantissa.ofMantissaAndAccuracy second .exact) := by
    simp only [weight, ExtendedMantissa.ofMantissaAndAccuracy, Bool.toNat_false]
    omega
  exact roundedMantissa_mono (weight_shiftRight_mono start places)

theorem nearest_mul_two_pow (mantissa places : Nat) :
    nearest (mantissa * 2 ^ places) places = mantissa := by
  rw [nearest, shiftRight_exact]
  rfl

/-- A mantissa cut to 53 bits has 53 bits, or is the least number with 54. -/
theorem nearest_bounds {mantissa places : Nat} (log : mantissa.log2 = 52 + places) :
    2 ^ 52 ≤ nearest mantissa places ∧ nearest mantissa places ≤ 2 ^ 53 := by
  have nonzero : mantissa ≠ 0 := by
    rintro rfl
    rw [Nat.log2_zero] at log
    omega
  obtain ⟨atLeast, below⟩ := (Nat.log2_eq_iff nonzero).mp log
  rw [pow_add] at atLeast
  have upper : mantissa ≤ 2 ^ 53 * 2 ^ places := by
    rw [← pow_add]
    refine below.le.trans (le_of_eq ?_)
    ring
  have lowest := nearest_mono atLeast places
  have highest := nearest_mono upper places
  rw [nearest_mul_two_pow] at lowest highest
  exact ⟨lowest, highest⟩

/-- What a mantissa of more than 53 bits is rounded to. -/
structure RoundsTo (mantissa : Nat) (exponent : Int) (rounded : Nat) (raised : Int) : Prop where
  fits : FitsFormat rounded raised
  normal : 2 ^ 52 ≤ rounded
  /-- A mantissa that is rounded up to 54 bits loses the last one of them. -/
  parts : rounded = nearest mantissa (mantissa.log2 - 52) ∧
      raised = exponent + (mantissa.log2 - 52 : Nat) ∧ rounded < 2 ^ 53 ∨
    nearest mantissa (mantissa.log2 - 52) = 2 ^ 53 ∧ rounded = 2 ^ 52 ∧
      raised = exponent + (mantissa.log2 - 52 : Nat) + 1

theorem shiftToTargetExponent_normal {mantissa : Nat} {exponent : Int}
    (long : 52 ≤ mantissa.log2) (least : -1074 ≤ exponent) :
    shiftToTargetExponent Format.binary64 mantissa exponent .exact =
      (ExtendedMantissa.ofMantissaAndAccuracy mantissa .exact >>> (mantissa.log2 - 52),
        exponent + (mantissa.log2 - 52 : Nat)) := by
  have amount : (max (mantissa.log2 + exponent - 52) (-1074) - exponent).toNat =
      mantissa.log2 - 52 := by
    omega
  rw [shiftToTargetExponent, targetExponent_eq, shiftToExponent, amount]

/-- The second shift of a rounding takes back the bit that rounding up may have brought in. -/
theorem roundWithAccuracy_normal (sign : Sign) {mantissa rounded : Nat} {exponent raised : Int}
    (long : 52 ≤ mantissa.log2) (least : -1074 ≤ exponent) (positive : 0 < rounded)
    (second : shiftToTargetExponent Format.binary64 (nearest mantissa (mantissa.log2 - 52))
      (exponent + (mantissa.log2 - 52 : Nat)) .exact =
        (ExtendedMantissa.ofMantissaAndAccuracy rounded .exact, raised)) :
    roundWithAccuracy Format.binary64 sign mantissa exponent .exact =
      .finite sign rounded raised positive := by
  rw [nearest] at second
  rw [roundWithAccuracy, shiftToTargetExponent_normal long least]
  dsimp only
  rw [second]
  exact dif_neg positive.ne'

theorem exists_roundsTo {mantissa : Nat} {exponent : Int} (sign : Sign)
    (long : 52 ≤ mantissa.log2) (least : -1074 ≤ exponent)
    (inRange : exponent + mantissa.log2 ≤ 1022) :
    ∃ rounded raised, ∃ roundsTo : RoundsTo mantissa exponent rounded raised,
      roundWithAccuracy Format.binary64 sign mantissa exponent .exact =
        .finite sign rounded raised roundsTo.fits.positive := by
  have log : mantissa.log2 = 52 + (mantissa.log2 - 52) := by
    omega
  obtain ⟨lowest, highest⟩ := nearest_bounds log
  by_cases fitting : nearest mantissa (mantissa.log2 - 52) < 2 ^ 53
  · have rest : (nearest mantissa (mantissa.log2 - 52)).log2 = 52 :=
      (Nat.log2_eq_iff (by omega)).mpr ⟨lowest, fitting⟩
    have fits : FitsFormat (nearest mantissa (mantissa.log2 - 52))
        (exponent + (mantissa.log2 - 52 : Nat)) :=
      (fitsFormat_iff _ _).mpr ⟨by omega, by omega, .inl ⟨rest, by omega⟩⟩
    refine ⟨_, _, ⟨fits, lowest, .inl ⟨rfl, rfl, fitting⟩⟩, ?_⟩
    apply roundWithAccuracy_normal sign long least fits.positive
    rw [shiftToTargetExponent_normal rest.ge (by omega), rest]
    rw [Nat.sub_self, shiftRight_zero, Nat.cast_zero, Int.add_zero]
  · have full : nearest mantissa (mantissa.log2 - 52) = 2 ^ 53 := by
      omega
    have fits : FitsFormat (2 ^ 52) (exponent + (mantissa.log2 - 52 : Nat) + 1) :=
      (fitsFormat_iff _ _).mpr ⟨by decide, by omega, .inl ⟨Nat.log2_two_pow, by omega⟩⟩
    refine ⟨_, _, ⟨fits, le_refl _, .inr ⟨full, rfl, rfl⟩⟩, ?_⟩
    apply roundWithAccuracy_normal sign long least fits.positive
    have half : (2 ^ 53 : Nat) = 2 ^ 52 * 2 ^ 1 := by
      decide
    rw [full, shiftToTargetExponent_normal (by rw [Nat.log2_two_pow]; decide) (by omega)]
    rw [Nat.log2_two_pow, half, shiftRight_exact]
    rfl

/-- Of two mantissas with one exponent the larger is not rounded to less. -/
theorem RoundsTo.mono {first second firstRounded secondRounded : Nat}
    {exponent firstRaised secondRaised : Int}
    (firstRounds : RoundsTo first exponent firstRounded firstRaised)
    (secondRounds : RoundsTo second exponent secondRounded secondRaised)
    (long : 52 ≤ first.log2) (below : first ≤ second) :
    firstRaised < secondRaised ∨ firstRaised = secondRaised ∧ firstRounded ≤ secondRounded := by
  have logs : first.log2 ≤ second.log2 := by
    have nonzero : first ≠ 0 := by
      rintro rfl
      rw [Nat.log2_zero] at long
      omega
    rw [Nat.le_log2 (by omega)]
    exact (Nat.log2_self_le nonzero).trans below
  have firstNormal := firstRounds.normal
  have secondNormal := secondRounds.normal
  rcases logs.lt_or_eq with shorter | alike
  · rcases firstRounds.parts with ⟨_, firstRaises, _⟩ | ⟨_, firstRounds, firstRaises⟩ <;>
      rcases secondRounds.parts with ⟨_, secondRaises, _⟩ | ⟨_, _, secondRaises⟩ <;> omega
  · have ordered := nearest_mono below (second.log2 - 52)
    rw [← alike] at ordered
    rcases firstRounds.parts with ⟨firstNearest, firstRaises, _⟩ | ⟨firstFull, rfl, firstRaises⟩ <;>
      rcases secondRounds.parts with
        ⟨secondNearest, secondRaises, _⟩ | ⟨secondFull, rfl, secondRaises⟩ <;>
      rw [← alike] at * <;> omega

/-! ## Natural numbers as doubles -/

/-- A natural number becomes the double that it is rounded to. -/
theorem exists_ofNat_roundsTo {natural : Nat} (positive : 0 < natural)
    (inWord : natural < 2 ^ 64) :
    52 ≤ (natural * 2 ^ 53).log2 ∧
      ∃ rounded raised, ∃ roundsTo : RoundsTo (natural * 2 ^ 53) (-53) rounded raised,
        (Float.ofNat natural).toModel.unpack =
          .finite .positive rounded raised roundsTo.fits.positive := by
  have log := log2_mul_two_pow positive 53
  have short : natural.log2 < 64 := (Nat.log2_lt positive.ne').mpr inWord
  have long : 52 ≤ (natural * 2 ^ 53).log2 := by
    omega
  have least : -1074 ≤ (-53 : Int) := by
    decide
  obtain ⟨rounded, raised, roundsTo, rounds⟩ :=
    exists_roundsTo .positive long least (by omega)
  refine ⟨long, rounded, raised, roundsTo, ?_⟩
  by_cases small : natural < 2 ^ 53
  · -- Such a number is a mantissa once its bits are moved to the top.
    have within : natural.log2 ≤ 52 := by
      have below := (Nat.log2_lt positive.ne').mpr small
      omega
    generalize lift : 52 - natural.log2 = places at *
    have fits : FitsFormat (natural * 2 ^ places) (-places) := by
      apply (fitsFormat_iff _ _).mpr
      refine ⟨by positivity, by omega, .inl ⟨?_, by omega⟩⟩
      rw [log2_mul_two_pow positive]
      omega
    have shifted := roundWithAccuracy_shifted .positive fits (53 - places)
    have moved : natural * 2 ^ places * 2 ^ (53 - places) = natural * 2 ^ 53 := by
      rw [Nat.mul_assoc, ← pow_add]
      congr 2
      omega
    have lowered : -(places : Int) - (53 - places : Nat) = -53 := by
      omega
    rw [moved, lowered, rounds] at shifted
    rw [ofNat_of_shifts fits (.right places natural rfl), shifted]
  · have stored : (Float.Model.pack (.finite .positive rounded raised
        roundsTo.fits.positive)).unpack = _ := unpack_pack roundsTo.fits
    rw [unpack_ofNat_of_long (by omega), rounds, stored]

theorem unpack_ofNat_zero : (Float.ofNat 0).toModel.unpack = .zero .positive := by
  rfl

theorem ofNat_le_ofNat {first second : Nat} (below : first ≤ second) (inWord : second < 2 ^ 64) :
    Float.ofNat first ≤ Float.ofNat second := by
  rw [le_iff_comparison?, comparison?]
  rcases Nat.eq_zero_or_pos second with rfl | secondPositive
  · rw [Nat.le_zero.mp below]
    exact .inr rfl
  · obtain ⟨_, _, _, secondRounds, secondParts⟩ := exists_ofNat_roundsTo secondPositive inWord
    rcases Nat.eq_zero_or_pos first with rfl | firstPositive
    · rw [unpack_ofNat_zero, secondParts]
      exact .inl rfl
    · obtain ⟨long, _, _, firstRounds, firstParts⟩ :=
        exists_ofNat_roundsTo firstPositive (by omega)
      have scaled : first * 2 ^ 53 ≤ second * 2 ^ 53 := Nat.mul_le_mul_right _ below
      rw [firstParts, secondParts]
      rcases firstRounds.mono secondRounds long scaled with lower | ⟨rfl, less⟩
      · simp [UnpackedFloat.compare, Int.compare_eq_lt.mpr lower]
      · rcases less.lt_or_eq with strictly | rfl
        · simp [UnpackedFloat.compare, Nat.compare_eq_lt.mpr strictly]
        · simp [UnpackedFloat.compare]

theorem not_ofNat_lt_zero {natural : Nat} (inWord : natural < 2 ^ 64) :
    ¬ Float.ofNat natural < 0 := by
  rw [lt_zero_iff]
  rcases Nat.eq_zero_or_pos natural with rfl | positive
  · rw [unpack_ofNat_zero]
    exact Bool.false_ne_true
  · obtain ⟨_, _, _, _, parts⟩ := exists_ofNat_roundsTo positive inWord
    rw [parts]
    exact Bool.false_ne_true

theorem ofInt64_of_natural {integer : Int64} (natural : 0 ≤ integer.toInt) :
    ofInt64 integer = Float.ofNat integer.toInt.toNat := by
  rw [ofInt64]
  conv_lhs => rw [← Int.toNat_of_nonneg natural]
  rfl

theorem toNat_lt_two_pow (integer : Int64) : integer.toInt.toNat < 2 ^ 64 := by
  have bounded : integer.toInt ≤ Int64.maxValue.toInt := integer.toInt_le
  have limit : Int64.maxValue.toInt = 2 ^ 63 - 1 := rfl
  omega

theorem ofInt64_le_ofInt64 {first second : Int64} (natural : 0 ≤ first.toInt)
    (below : first.toInt ≤ second.toInt) : ofInt64 first ≤ ofInt64 second := by
  rw [ofInt64_of_natural natural, ofInt64_of_natural (natural.trans below)]
  exact ofNat_le_ofNat (Int.toNat_le_toNat below) (toNat_lt_two_pow second)

theorem not_ofInt64_lt_zero {integer : Int64} (natural : 0 ≤ integer.toInt) :
    ¬ ofInt64 integer < 0 := by
  rw [ofInt64_of_natural natural]
  exact not_ofNat_lt_zero (toNat_lt_two_pow integer)

end InSitu.Number
