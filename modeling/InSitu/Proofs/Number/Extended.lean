import InSitu.Proofs.Number.Order
import InSitu.Proofs.Number.Merging

/-!
# The exact values of doubles

The value of a double is an extended real number.  Doubles are in the order of
their values, and the whole part of a double is that of its value, as far as
words go.  So a bound on the exact value decides comparisons of doubles and the
steps that a number of entries stands for.
-/

namespace InSitu

noncomputable instance : Scalar EReal where
  decidableLT := inferInstance
  decidableLE := inferInstance
  ofNat := Nat.cast
  abs x := max x (-x)
  isNaN _ := false
  wholePart x := ⌊x.toReal⌋₊

namespace Number

open Float.Model (Format UnpackedFloat)
open Float.Model.UnpackedFloat

/-- The value of the parts of a double; what is no number lies below all numbers. -/
noncomputable def valueOf : UnpackedFloat → EReal
  | .notANumber | .infinity .negative => ⊥
  | .infinity .positive => ⊤
  | .zero _ => 0
  | .finite .positive mantissa exponent _ => (mantissa * 2 ^ exponent : ℝ)
  | .finite .negative mantissa exponent _ => (-(mantissa * 2 ^ exponent) : ℝ)

noncomputable def exact (x : Float) : EReal := valueOf x.toModel.unpack

theorem mantissa_lt_two_pow {mantissa : Nat} {exponent : Int}
    (fits : FitsFormat mantissa exponent) : mantissa < 2 ^ 53 := by
  have parts := (fitsFormat_iff mantissa exponent).mp fits
  exact (Nat.log2_lt fits.positive.ne').mp (by omega)

/-- Of two exponents the larger belongs to the larger number. -/
theorem value_lt_of_lexicographic {first second : Nat} {firstExponent secondExponent : Int}
    (firstFits : FitsFormat first firstExponent) (secondFits : FitsFormat second secondExponent)
    (below : firstExponent < secondExponent ∨ firstExponent = secondExponent ∧ first < second) :
    (first : ℝ) * 2 ^ firstExponent < second * 2 ^ secondExponent := by
  rcases below with lower | ⟨rfl, less⟩
  · have small : (first : ℝ) < 2 ^ 53 := by
      exact_mod_cast mantissa_lt_two_pow firstFits
    have full : (2 : ℝ) ^ 52 ≤ second := by
      have parts := (fitsFormat_iff second secondExponent).mp secondFits
      have firstParts := (fitsFormat_iff first firstExponent).mp firstFits
      exact_mod_cast (Nat.le_log2 secondFits.positive.ne').mp (by omega)
    calc
      (first : ℝ) * 2 ^ firstExponent < 2 ^ 53 * 2 ^ firstExponent := by
        gcongr
      _ = 2 ^ 52 * 2 ^ (firstExponent + 1) := by
        rw [zpow_add_one₀ two_ne_zero]
        ring
      _ ≤ second * 2 ^ secondExponent := by
        gcongr
        · norm_num
        · omega
  · gcongr

theorem valueOf_lt_of_rank_lt {x y : UnpackedFloat} (xCanonical : IsCanonical x)
    (yCanonical : IsCanonical y) (xIsNumber : x.isNaN = false) (yIsNumber : y.isNaN = false)
    (below : rank x < rank y) : valueOf x < valueOf y := by
  have above (mantissa : Nat) (exponent : Int) (positive : 0 < mantissa) :
      (0 : ℝ) < mantissa * 2 ^ exponent := by
    positivity
  cases x with
  | notANumber =>
      cases xIsNumber
  | infinity s =>
      cases s <;> cases y with
      | notANumber =>
          cases yIsNumber
      | infinity t =>
          cases t <;> simp [Prod.Lex.toLex_lt_toLex] at below ⊢ <;> simp [valueOf]
      | zero t =>
          simp [Prod.Lex.toLex_lt_toLex, valueOf] at below ⊢
      | finite t n e positive =>
          cases t <;> simp [Prod.Lex.toLex_lt_toLex] at below <;> exact EReal.bot_lt_coe _
  | zero s =>
      cases y with
      | notANumber =>
          cases yIsNumber
      | infinity t =>
          cases t <;> simp [Prod.Lex.toLex_lt_toLex, valueOf] at below ⊢
      | zero t =>
          simp at below
      | finite t n e positive =>
          cases t <;> simp [Prod.Lex.toLex_lt_toLex] at below
          exact EReal.coe_pos.mpr (above n e positive)
  | finite s m d positive =>
      cases y with
      | notANumber =>
          cases yIsNumber
      | infinity t =>
          cases s <;> cases t <;> simp [Prod.Lex.toLex_lt_toLex] at below <;>
            exact EReal.coe_lt_top _
      | zero t =>
          cases s <;> simp [Prod.Lex.toLex_lt_toLex] at below
          exact EReal.coe_neg'.mpr (neg_neg_of_pos (above m d positive))
      | finite t n e positive' =>
          cases s <;> cases t <;> simp [Prod.Lex.toLex_lt_toLex] at below
          · exact EReal.coe_lt_coe (neg_lt_neg (value_lt_of_lexicographic yCanonical xCanonical
              (by omega)))
          · have isBelow := above m d positive
            have isAbove := above n e positive'
            exact EReal.coe_lt_coe (by linarith)
          · exact EReal.coe_lt_coe (value_lt_of_lexicographic xCanonical yCanonical (by omega))

theorem valueOf_eq_of_rank_eq {x y : UnpackedFloat} (xIsNumber : x.isNaN = false)
    (yIsNumber : y.isNaN = false) (same : rank x = rank y) : valueOf x = valueOf y := by
  cases x with
  | notANumber =>
      cases xIsNumber
  | infinity s =>
      cases s <;> cases y with
      | notANumber =>
          cases yIsNumber
      | infinity t =>
          cases t <;> simp at same ⊢
      | finite t n e positive =>
          cases t <;> simp at same
      | zero t =>
          simp at same
  | zero s =>
      cases y with
      | notANumber =>
          cases yIsNumber
      | infinity t =>
          cases t <;> simp at same
      | finite t n e positive =>
          cases t <;> simp at same
      | zero t =>
          rfl
  | finite s m d positive =>
      cases y with
      | notANumber =>
          cases yIsNumber
      | infinity t =>
          cases s <;> cases t <;> simp at same
      | zero t =>
          cases s <;> simp at same
      | finite t n e positive' =>
          cases s <;> cases t <;> simp at same <;> simp [valueOf, same]

theorem le_iff_exact (x y : Float) :
    x ≤ y ↔ x.isNaN = false ∧ y.isNaN = false ∧ exact x ≤ exact y := by
  have ranked : x ≤ y ↔ x.isNaN = false ∧ y.isNaN = false ∧
      rank x.toModel.unpack ≤ rank y.toModel.unpack :=
    Iff.trans decide_eq_true_iff (le_iff_rank _ _)
  rw [ranked]
  refine and_congr_right fun xIsNumber => and_congr_right fun yIsNumber => ?_
  constructor
  · intro below
    rcases below.lt_or_eq with strictly | same
    · exact (valueOf_lt_of_rank_lt (isCanonical_unpack _) (isCanonical_unpack _) xIsNumber
        yIsNumber strictly).le
    · exact (valueOf_eq_of_rank_eq xIsNumber yIsNumber same).le
  · intro below
    by_contra above
    exact below.not_gt (valueOf_lt_of_rank_lt (isCanonical_unpack _) (isCanonical_unpack _)
      yIsNumber xIsNumber (not_le.mp above))

theorem lt_iff_exact (x y : Float) :
    x < y ↔ x.isNaN = false ∧ y.isNaN = false ∧ exact x < exact y := by
  constructor
  · intro below
    obtain ⟨xIsNumber, yIsNumber⟩ := isNaN_eq_false_of_lt below
    refine ⟨xIsNumber, yIsNumber, not_le.mp fun above => ?_⟩
    exact Number.not_le_of_lt below ((le_iff_exact y x).mpr ⟨yIsNumber, xIsNumber, above⟩)
  · rintro ⟨xIsNumber, yIsNumber, below⟩
    by_contra above
    exact below.not_ge ((le_iff_exact y x).mp ((not_lt_iff_le xIsNumber yIsNumber).mp above)).2.2

theorem isNaN_eq_false_of_exact {x : Float} (above : ⊥ < exact x) : x.isNaN = false := by
  by_contra isNaN
  rw [Bool.not_eq_false, ← unpack_eq_notANumber_iff] at isNaN
  rw [exact, isNaN] at above
  exact lt_irrefl _ above

/-! ## Integers -/

theorem exact_eq_natCast_iff {natural : Nat} (positive : 0 < natural) (x : Float) :
    exact x = natural ↔ IsInteger x natural := by
  have above : (0 : ℝ) < natural := Nat.cast_pos.mpr positive
  rw [exact, IsInteger]
  cases x.toModel.unpack with
  | notANumber =>
      exact iff_of_false (EReal.natCast_ne_bot natural).symm id
  | infinity sign =>
      cases sign with
      | positive =>
          exact iff_of_false (EReal.natCast_ne_top natural).symm id
      | negative =>
          exact iff_of_false (EReal.natCast_ne_bot natural).symm id
  | zero sign =>
      simp [valueOf, positive.ne', eq_comm]
  | finite sign mantissa exponent mantissaPositive =>
      rw [← EReal.coe_natCast]
      cases sign with
      | positive =>
          rw [valueOf, EReal.coe_eq_coe_iff]
          dsimp only [Sign.apply]
          rw [← Rat.cast_inj (α := ℝ)]
          push_cast
          rfl
      | negative =>
          have below : -((mantissa : ℝ) * 2 ^ exponent) < 0 := neg_neg_of_pos (by positivity)
          have belowAlso : ((-mantissa : Int) : ℚ) * 2 ^ exponent < 0 := by
            push_cast
            rw [neg_mul]
            exact neg_neg_of_pos (by positivity)
          rw [valueOf, EReal.coe_eq_coe_iff]
          have aboveAlso : (0 : ℚ) < (natural : Int) := by
            exact_mod_cast positive
          exact iff_of_false (below.trans above).ne (belowAlso.trans aboveAlso).ne

theorem exact_ofNat {natural : Nat} (small : natural ≤ 2 ^ 53) :
    exact (Float.ofNat natural) = natural := by
  rcases Nat.eq_zero_or_pos natural with rfl | positive
  · rw [exact, unpack_ofNat_zero, valueOf, Nat.cast_zero]
  · exact (exact_eq_natCast_iff positive _).mpr (isInteger_ofNat_of_le small)

theorem natCast_le_exact_iff {natural : Nat} (small : natural ≤ 2 ^ 53) (x : Float) :
    (natural : EReal) ≤ exact x ↔ Float.ofNat natural ≤ x := by
  have isNatural := exact_ofNat small
  have known : ⊥ < exact (Float.ofNat natural) := by
    rw [isNatural]
    exact EReal.bot_lt_coe natural
  rw [le_iff_exact, isNatural]
  constructor
  · intro below
    have above : ⊥ < exact x := (EReal.bot_lt_coe natural).trans_le below
    exact ⟨isNaN_eq_false_of_exact known, isNaN_eq_false_of_exact above, below⟩
  · exact fun ordered => ordered.2.2

theorem exact_zero : exact (Scalar.zero : Float) = 0 := by
  have isZero : (Scalar.zero : Float) = Float.ofNat 0 := rfl
  rw [isZero, exact_ofNat (Nat.zero_le _), Nat.cast_zero]

theorem exact_one : exact (Scalar.one : Float) = 1 := by
  have isOne : (Scalar.one : Float) = Float.ofNat 1 := rfl
  rw [isOne, exact_ofNat Nat.one_le_two_pow, Nat.cast_one]

theorem exact_ofNat_pos {natural : Nat} (positive : 0 < natural) (inWord : natural < 2 ^ 64) :
    0 < exact (Float.ofNat natural) := by
  obtain ⟨_, rounded, raised, roundsTo, parts⟩ := exists_ofNat_roundsTo positive inWord
  have roundedPositive := roundsTo.fits.positive
  rw [exact, parts, valueOf, EReal.coe_pos]
  positivity

theorem mantissa_shiftRight (extended : ExtendedMantissa) (places : Nat) :
    (extended >>> places).mantissa = extended.mantissa / 2 ^ places := by
  induction places with
  | zero =>
      rw [shiftRight_zero, pow_zero, Nat.div_one]
  | succ places inductionHypothesis =>
      change (extended >>> places).shiftRightOne.mantissa = _
      rw [ExtendedMantissa.shiftRightOne, inductionHypothesis, Nat.div_div_eq_div_mul, pow_succ]

/-- A positive number is cut to its whole part. -/
theorem roundToInt_positive (mantissa : Nat) (exponent : Int) :
    roundToInt .positive mantissa exponent = ⌊(mantissa * 2 ^ exponent : ℝ)⌋₊ := by
  obtain ⟨places, rfl | rfl⟩ := exponent.eq_nat_or_neg
  · have isNatural : (mantissa * 2 ^ (places : Int) : ℝ) = (mantissa * 2 ^ places : Nat) := by
      push_cast
      rfl
    rw [roundToInt_of_shifts .positive (.left places), isNatural, Nat.floor_natCast]
    rfl
  · have isQuotient : (mantissa * 2 ^ (-(places : Int)) : ℝ) = mantissa / (2 ^ places : Nat) := by
      push_cast
      rw [zpow_neg, zpow_natCast, div_eq_mul_inv]
    have up : (-(places : Int) - 0).toNat = 0 := by omega
    have down : (0 - (-(places : Int) - (0 : Nat))).toNat = places := by omega
    simp only [roundToInt, decreaseExponent, shiftToExponent, up, down, Nat.shiftLeft_zero,
      mantissa_shiftRight, isQuotient, Nat.floor_div_eq_div]
    rfl

theorem toNat_ofNatClamp (natural : Nat) :
    (UInt64.ofNatClamp natural).toNat = min natural (2 ^ 64 - 1) := by
  rcases Nat.lt_or_ge natural (2 ^ 64) with inWord | beyond
  · rw [UInt64.toNat_ofNatClamp_of_lt inWord]
    omega
  · have limit : UInt64.size = 2 ^ 64 := rfl
    rw [UInt64.toNat_ofNatClamp_of_le beyond]
    omega

/-- The whole part of a double reaches a word if its value does. -/
theorem le_toUInt64_iff {natural : Nat} (positive : 0 < natural) (inWord : natural < 2 ^ 64)
    (x : Float) : natural ≤ x.toUInt64.toNat ↔ (natural : EReal) ≤ exact x := by
  have above : (0 : ℝ) < natural := Nat.cast_pos.mpr positive
  have isCut : x.toUInt64 =
      UInt64.ofNatClamp (UnpackedFloat.toInt 0 (2 ^ 64 - 1) x.toModel.unpack).toNat := rfl
  rw [isCut, toNat_ofNatClamp, le_min_iff, and_iff_left (by omega), exact, ← EReal.coe_natCast]
  cases x.toModel.unpack with
  | notANumber =>
      exact iff_of_false (Nat.not_le_of_lt positive) (EReal.bot_lt_coe _).not_ge
  | infinity sign =>
      cases sign with
      | positive =>
          exact iff_of_true (Nat.le_sub_one_of_lt inWord) le_top
      | negative =>
          exact iff_of_false (Nat.not_le_of_lt positive) (EReal.bot_lt_coe _).not_ge
  | zero sign =>
      exact iff_of_false (Nat.not_le_of_lt positive) (EReal.coe_pos.mpr above).not_ge
  | finite sign mantissa exponent mantissaPositive =>
      rw [UnpackedFloat.toInt]
      cases sign with
      | positive =>
          rw [roundToInt_positive, Int.toNat_natCast, Nat.le_floor_iff (by positivity), valueOf,
            EReal.coe_le_coe_iff]
      | negative =>
          have below : -((mantissa : ℝ) * 2 ^ exponent) < 0 := neg_neg_of_pos (by positivity)
          have isNegative : (roundToInt .negative mantissa exponent).toNat = 0 :=
            Int.toNat_of_nonpos (Int.neg_nonpos_of_nonneg (Int.natCast_nonneg _))
          rw [isNegative, valueOf, EReal.coe_le_coe_iff]
          exact iff_of_false (Nat.not_le_of_lt positive) (below.trans above).not_ge

end Number

end InSitu
