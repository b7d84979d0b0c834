import InSitu.Proofs.Number.Digits
import InSitu.Proofs.Number.Nearest

/-!
# The arithmetic of doubles

Sums, differences, products and quotients of doubles have the values that the exact ones are rounded
to, as far as there are exact ones.
-/

namespace InSitu.Number

open Float.Model (Format totalExponent UnpackedFloat)
open Float.Model.UnpackedFloat

/-- A mantissa without an inaccuracy is a whole number. -/
theorem valueOf_roundWithAccuracy_exact (sign : Sign) {mantissa : ℕ} {exponent : ℤ} {x : ℝ}
    (positive : 0 < mantissa) (isProduct : x = mantissa * 2 ^ exponent)
    (enough : 52 ≤ mantissa.log2 ∨ exponent ≤ -1074) :
    valueOf (Float.Model.pack
        (roundWithAccuracy Format.binary64 sign mantissa exponent .exact)).unpack =
      rounded (signed sign x : ℝ) := by
  have above : 0 < x := by
    rw [isProduct]
    positivity
  refine valueOf_roundWithAccuracy_of_pos sign above ?_ enough
  rw [isProduct, mul_div_cancel_right₀ _ (by positivity), mark_natCast, weight,
    ExtendedMantissa.ofMantissaAndAccuracy]
  rfl

/-- The parts of a double are not rounded any more. -/
theorem rounded_valueOf {parts : UnpackedFloat} (canonical : IsCanonical parts) :
    rounded (valueOf parts) = valueOf parts := by
  cases parts with
  | notANumber =>
      rfl
  | infinity sign =>
      cases sign <;> rfl
  | zero sign =>
      exact rounded_zero
  | finite sign mantissa exponent positive =>
      have fits : FitsFormat mantissa exponent := canonical
      have parts := (fitsFormat_iff _ _).mp fits
      have kept := roundWithAccuracy_shifted sign fits 0
      rw [pow_zero, Nat.mul_one, Nat.cast_zero, sub_zero] at kept
      have stored : (Float.Model.pack (.finite sign mantissa exponent positive)).unpack =
          .finite sign mantissa exponent positive := unpack_pack canonical
      rw [valueOf_finite, ← valueOf_roundWithAccuracy_exact sign positive rfl (by omega), kept,
        stored, valueOf_finite]

/-- A mantissa with too few bits is filled up with zeros before it is rounded. -/
theorem valueOf_round (sign : Sign) {mantissa : ℕ} (exponent : ℤ) (positive : 0 < mantissa) :
    valueOf (Float.Model.pack (UnpackedFloat.round Format.binary64 sign mantissa exponent)).unpack =
      rounded (signed sign (mantissa * 2 ^ exponent : ℝ) : ℝ) := by
  rw [UnpackedFloat.round, targetExponent_eq, decreaseExponent, Nat.shiftLeft_eq]
  dsimp only
  generalize isPlaces : (exponent - max (mantissa.log2 + exponent - 52) (-1074)).toNat = places
  apply valueOf_roundWithAccuracy_exact sign (by positivity)
  · push_cast
    rw [mul_assoc, two_pow_mul_zpow, add_sub_cancel]
  · rw [log2_mul_two_pow positive]
    omega

theorem valueOf_normalize (mantissa exponent : ℤ) (sign : Sign) :
    valueOf (Float.Model.pack
        (UnpackedFloat.normalize Format.binary64 mantissa exponent sign)).unpack =
      rounded (mantissa * 2 ^ exponent : ℝ) := by
  rcases lt_trichotomy mantissa 0 with negative | rfl | positive
  · rw [UnpackedFloat.normalize, Int.compare_eq_lt.mpr negative]
    obtain ⟨natural, rfl⟩ := Int.exists_eq_neg_ofNat negative.le
    dsimp only
    rw [neg_neg, Int.toNat_natCast, valueOf_round .negative exponent (by omega), signed]
    push_cast
    rw [neg_mul]
  · rw [UnpackedFloat.normalize, Int.compare_eq_eq.mpr rfl]
    dsimp only
    rw [valueOf_zero, Int.cast_zero, zero_mul, EReal.coe_zero, rounded_zero]
  · rw [UnpackedFloat.normalize, Int.compare_eq_gt.mpr positive]
    obtain ⟨natural, rfl⟩ := Int.eq_ofNat_of_zero_le positive.le
    dsimp only
    rw [Int.toNat_natCast, valueOf_round .positive exponent (by omega), signed]
    push_cast
    rfl

/-- The double is a number with this value. -/
structure HasValue (x : Float) (value : EReal) : Prop where
  isNumber : x.isNaN = false
  exact_eq : exact x = value

namespace HasValue

variable {x y : Float} {a b : EReal}

theorem le_iff (xValue : HasValue x a) (yValue : HasValue y b) : x ≤ y ↔ a ≤ b := by
  rw [le_iff_exact, xValue.exact_eq, yValue.exact_eq]
  exact ⟨fun ordered => ordered.2.2, fun below => ⟨xValue.isNumber, yValue.isNumber, below⟩⟩

theorem lt_iff (xValue : HasValue x a) (yValue : HasValue y b) : x < y ↔ a < b := by
  rw [lt_iff_exact, xValue.exact_eq, yValue.exact_eq]
  exact ⟨fun ordered => ordered.2.2, fun below => ⟨xValue.isNumber, yValue.isNumber, below⟩⟩

theorem rounded_eq (xValue : HasValue x a) : rounded a = a := by
  rw [← xValue.exact_eq]
  exact rounded_valueOf (isCanonical_unpack x.toModel)

theorem neg (xValue : HasValue x a) : HasValue (-x) (-a) := by
  obtain ⟨isNumber, rfl⟩ := xValue
  change x.toModel.unpack.isNaN = false at isNumber
  have negated : (-x).isNaN = x.toModel.unpack.neg.isNaN := by
    rw [← unpack_neg]
    rfl
  rw [exact]
  constructor
  · rw [negated]
    cases parts : x.toModel.unpack <;> simp_all [UnpackedFloat.neg, UnpackedFloat.isNaN]
  · rw [exact, unpack_neg]
    cases parts : x.toModel.unpack with
    | notANumber =>
        rw [parts] at isNumber
        cases isNumber
    | infinity sign =>
        cases sign <;> simp [UnpackedFloat.neg, valueOf]
    | zero sign =>
        simp [UnpackedFloat.neg, valueOf]
    | finite sign mantissa exponent positive =>
        cases sign <;> simp [UnpackedFloat.neg, valueOf_finite, signed]

end HasValue

theorem le_self_of_le {x y : Float} (below : x ≤ y) : y ≤ y :=
  have isNumber := (isNaN_eq_false_of_le below).2
  (le_iff_exact y y).mpr ⟨isNumber, isNumber, le_rfl⟩

protected theorem lt_of_lt_of_le {x y z : Float} (lower : x < y) (upper : y ≤ z) : x < z := by
  obtain ⟨xIsNumber, _, below⟩ := (lt_iff_exact x y).mp lower
  obtain ⟨_, zIsNumber, above⟩ := (le_iff_exact y z).mp upper
  exact (lt_iff_exact x z).mpr ⟨xIsNumber, zIsNumber, below.trans_le above⟩

theorem valueOf_pack {parts : UnpackedFloat} (canonical : IsCanonical parts) :
    valueOf (Float.Model.pack parts).unpack = valueOf parts :=
  congrArg valueOf (unpack_pack canonical)

theorem isNaN_normalize (mantissa exponent : ℤ) (sign : Sign) :
    (UnpackedFloat.normalize Format.binary64 mantissa exponent sign).isNaN = false := by
  rw [UnpackedFloat.normalize]
  split
  · exact isNaN_roundWithAccuracy _ _ _ _
  · rfl
  · exact isNaN_roundWithAccuracy _ _ _ _

/-- A mantissa that is moved to a lower exponent stands for the same number. -/
theorem apply_decreaseExponent (sign : Sign) (mantissa : ℕ) {exponent target : ℤ}
    (lower : target ≤ exponent) :
    ((sign.apply (decreaseExponent mantissa exponent target).1 : ℤ) : ℝ) * 2 ^ target =
      signed sign (mantissa * 2 ^ exponent : ℝ) := by
  have places : ((exponent - target).toNat : ℤ) + target = exponent := by
    omega
  have moved : ((decreaseExponent mantissa exponent target).1 : ℝ) * 2 ^ target =
      mantissa * 2 ^ exponent := by
    rw [decreaseExponent, Nat.shiftLeft_eq]
    push_cast
    rw [mul_assoc, two_pow_mul_zpow, places]
  rw [← moved]
  cases sign <;> simp [signed, Sign.apply]

/-- What the sum of the parts of two doubles is, unless the two are opposite infinities. -/
theorem valueOf_add {first second : UnpackedFloat} (firstCanonical : IsCanonical first)
    (secondCanonical : IsCanonical second) (firstIsNumber : first.isNaN = false)
    (secondIsNumber : second.isNaN = false)
    (low : valueOf first ≠ ⊥ ∨ valueOf second ≠ ⊤)
    (high : valueOf first ≠ ⊤ ∨ valueOf second ≠ ⊥) :
    (first.add Format.binary64 second).isNaN = false ∧
      valueOf (Float.Model.pack (first.add Format.binary64 second)).unpack =
        rounded (valueOf first + valueOf second) := by
  have kept {parts : UnpackedFloat} (canonical : IsCanonical parts) :
      valueOf (Float.Model.pack parts).unpack = rounded (valueOf parts) :=
    (valueOf_pack canonical).trans (rounded_valueOf canonical).symm
  cases first with
  | notANumber =>
      cases firstIsNumber
  | infinity sign =>
      cases second with
      | notANumber =>
          cases secondIsNumber
      | infinity other =>
          cases sign <;> cases other <;> simp [valueOf] at low high <;>
            exact ⟨rfl, kept trivial⟩
      | zero other =>
          rw [valueOf, add_zero]
          exact ⟨rfl, kept trivial⟩
      | finite other mantissa exponent positive =>
          cases sign <;> rw [valueOf_finite] <;> exact ⟨rfl, kept trivial⟩
  | zero sign =>
      cases second with
      | notANumber =>
          cases secondIsNumber
      | zero other =>
          rw [valueOf, valueOf, zero_add, rounded_zero]
          cases sign <;> cases other <;> exact ⟨rfl, valueOf_zero _⟩
      | _ =>
          rw [valueOf, zero_add]
          exact ⟨rfl, kept secondCanonical⟩
  | finite sign mantissa exponent positive =>
      cases second with
      | notANumber =>
          cases secondIsNumber
      | infinity other =>
          cases other <;> rw [valueOf_finite] <;> exact ⟨rfl, kept trivial⟩
      | zero other =>
          rw [valueOf, add_zero]
          exact ⟨rfl, kept firstCanonical⟩
      | finite other mantissa' exponent' positive' =>
          rw [UnpackedFloat.add]
          refine ⟨isNaN_normalize _ _ _, ?_⟩
          rw [valueOf_normalize, valueOf_finite, valueOf_finite, ← EReal.coe_add, Int.cast_add,
            add_mul, apply_decreaseExponent sign mantissa (min_le_left _ _),
            apply_decreaseExponent other mantissa' (min_le_right _ _)]

theorem HasValue.add {x y : Float} {a b : EReal} (xValue : HasValue x a) (yValue : HasValue y b)
    (low : a ≠ ⊥ ∨ b ≠ ⊤) (high : a ≠ ⊤ ∨ b ≠ ⊥) : HasValue (x + y) (rounded (a + b)) := by
  obtain ⟨xIsNumber, rfl⟩ := xValue
  obtain ⟨yIsNumber, rfl⟩ := yValue
  obtain ⟨isNumber, value⟩ := valueOf_add (isCanonical_unpack x.toModel)
    (isCanonical_unpack y.toModel) xIsNumber yIsNumber low high
  exact ⟨isNaN_unpack_pack isNumber, value⟩

theorem sub_eq_add_opposite (x y : Float) : x - y = x + -y := by
  have parts : UnpackedFloat.sub Format.binary64 x.toModel.unpack y.toModel.unpack =
      UnpackedFloat.add Format.binary64 x.toModel.unpack y.toModel.unpack.neg := by
    cases x.toModel.unpack with
    | infinity sign =>
        cases y.toModel.unpack <;> rfl
    | finite sign mantissa exponent positive =>
        cases y.toModel.unpack with
        | finite other mantissa' exponent' positive' =>
            cases other with
            | positive =>
                rfl
            | negative =>
                simp only [UnpackedFloat.sub, UnpackedFloat.neg, UnpackedFloat.add, Sign.apply,
                  Int.sub_neg]
        | _ =>
            rfl
    | _ =>
        cases y.toModel.unpack <;> rfl
  change Float.ofModel (Float.Model.pack _) = Float.ofModel (Float.Model.pack _)
  rw [parts, ← unpack_neg]

theorem HasValue.sub {x y : Float} {a b : ℝ} (xValue : HasValue x a) (yValue : HasValue y b) :
    HasValue (x - y) (rounded (a - b : ℝ)) := by
  rw [sub_eq_add_opposite, EReal.coe_sub, sub_eq_add_neg]
  exact xValue.add yValue.neg (.inl (EReal.coe_ne_bot a)) (.inl (EReal.coe_ne_top a))

theorem signed_mul (first second : Sign) (x y : ℝ) :
    signed (first * second) (x * y) = signed first x * signed second y := by
  cases first <;> cases second
  · exact (neg_mul_neg x y).symm
  · exact (neg_mul x y).symm
  · exact (mul_neg x y).symm
  · rfl

theorem le_log2_mul {first second : ℕ} (firstPositive : 0 < first) (secondPositive : 0 < second) :
    first.log2 + second.log2 ≤ (first * second).log2 := by
  rw [Nat.le_log2 (by positivity), pow_add]
  exact Nat.mul_le_mul (Nat.log2_self_le firstPositive.ne') (Nat.log2_self_le secondPositive.ne')

/-- Parts with a real number as their value. -/
theorem exists_parts_of_valueOf {parts : UnpackedFloat} {a : ℝ} (value : valueOf parts = a) :
    (∃ sign, parts = .zero sign ∧ a = 0) ∨
      ∃ sign mantissa exponent, ∃ positive : 0 < mantissa,
        parts = .finite sign mantissa exponent positive ∧
          a = signed sign (mantissa * 2 ^ exponent : ℝ) := by
  cases parts with
  | notANumber =>
      exact absurd value.symm (EReal.coe_ne_bot a)
  | infinity sign =>
      cases sign with
      | positive =>
          exact absurd value.symm (EReal.coe_ne_top a)
      | negative =>
          exact absurd value.symm (EReal.coe_ne_bot a)
  | zero sign =>
      exact .inl ⟨sign, rfl, EReal.coe_eq_zero.mp value.symm⟩
  | finite sign mantissa exponent positive =>
      rw [valueOf_finite, EReal.coe_eq_coe_iff] at value
      exact .inr ⟨sign, mantissa, exponent, positive, rfl, value.symm⟩

theorem valueOf_mul {first second : UnpackedFloat} {a b : ℝ} (firstCanonical : IsCanonical first)
    (secondCanonical : IsCanonical second) (firstValue : valueOf first = a)
    (secondValue : valueOf second = b) :
    (first.mul Format.binary64 second).isNaN = false ∧
      valueOf (Float.Model.pack (first.mul Format.binary64 second)).unpack =
        rounded (a * b : ℝ) := by
  have none (sign : Sign) :
      valueOf (Float.Model.pack (.zero sign)).unpack = rounded (0 : ℝ) := by
    rw [valueOf_zero, EReal.coe_zero, rounded_zero]
  rcases exists_parts_of_valueOf firstValue with
    ⟨sign, rfl, rfl⟩ | ⟨sign, mantissa, exponent, positive, rfl, rfl⟩
  · rw [zero_mul]
    rcases exists_parts_of_valueOf secondValue with
      ⟨other, rfl, rfl⟩ | ⟨other, mantissa', exponent', positive', rfl, rfl⟩ <;>
      exact ⟨rfl, none _⟩
  · rcases exists_parts_of_valueOf secondValue with
      ⟨other, rfl, rfl⟩ | ⟨other, mantissa', exponent', positive', rfl, rfl⟩
    · rw [mul_zero]
      exact ⟨rfl, none _⟩
    · refine ⟨isNaN_roundWithAccuracy _ _ _ _, ?_⟩
      rw [← signed_mul]
      apply valueOf_roundWithAccuracy_exact _ (by positivity)
      · push_cast
        rw [zpow_add₀ two_ne_zero]
        ring
      · have parts := (fitsFormat_iff _ _).mp firstCanonical
        have parts' := (fitsFormat_iff _ _).mp secondCanonical
        have bits := le_log2_mul positive positive'
        omega

theorem HasValue.mul {x y : Float} {a b : ℝ} (xValue : HasValue x a) (yValue : HasValue y b) :
    HasValue (x * y) (rounded (a * b : ℝ)) := by
  obtain ⟨isNumber, value⟩ := valueOf_mul (isCanonical_unpack x.toModel)
    (isCanonical_unpack y.toModel) xValue.exact_eq yValue.exact_eq
  exact ⟨isNaN_unpack_pack isNumber, value⟩

/-- The remainder of a division tells how far the quotient is from the exact one. -/
theorem weight_accuracyOfFraction (dividend : ℕ) {divisor : ℕ} (positive : 0 < divisor) :
    weight (ExtendedMantissa.ofMantissaAndAccuracy (dividend / divisor)
      (accuracyOfFraction (dividend % divisor) divisor)) = mark (dividend / divisor : ℝ) := by
  have above : (0 : ℝ) < divisor := Nat.cast_pos.mpr positive
  have divided : (dividend / divisor : ℝ) =
      (dividend / divisor : ℕ) + (dividend % divisor : ℕ) / divisor := by
    have whole : (dividend : ℝ) =
        divisor * (dividend / divisor : ℕ) + (dividend % divisor : ℕ) := by
      exact_mod_cast (Nat.div_add_mod dividend divisor).symm
    conv_lhs => rw [whole]
    rw [add_div, mul_div_cancel_left₀ _ above.ne']
  have remaining := Nat.mod_lt dividend positive
  rw [divided, mark_natCast_add _ (by positivity), accuracyOfFraction]
  generalize dividend % divisor = rest at remaining ⊢
  generalize dividend / divisor = quotient
  have twice : 2 * (rest / divisor : ℝ) = (2 * rest : ℕ) / divisor := by
    push_cast
    rw [mul_div_assoc]
  split
  · rename_i isZero
    rw [isZero, Nat.cast_zero, zero_div, ← Nat.cast_zero, mark_natCast]
    rfl
  · rename_i nonzero
    rcases lt_trichotomy (2 * rest) divisor with less | half | more
    · have start : (0 : ℝ) < (2 * rest : ℕ) := Nat.cast_pos.mpr (by omega)
      have below := Nat.cast_lt (α := ℝ).mpr less
      rw [Nat.compare_eq_lt.mpr less, mark_of_lt_half, weight]
      · rfl
      · rw [twice]
        positivity
      · rwa [twice, div_lt_one above]
    · rw [Nat.compare_eq_eq.mpr half, mark_of_eq_half, weight]
      · rfl
      · rw [twice, half, div_self above.ne']
    · have start := Nat.cast_lt (α := ℝ).mpr more
      have below : ((2 * rest : ℕ) : ℝ) < 2 * divisor := by
        exact_mod_cast Nat.mul_lt_mul_of_pos_left remaining two_pos
      rw [Nat.compare_eq_gt.mpr more, mark_of_half_lt, weight]
      · rfl
      · rwa [twice, one_lt_div above]
      · rwa [twice, div_lt_iff₀ above]

theorem le_log2_div {dividend divisor places : ℕ} (positive : 0 < divisor)
    (enough : divisor.log2 + 1 + places ≤ dividend.log2) : places ≤ (dividend / divisor).log2 := by
  have nonzero : dividend ≠ 0 := by
    rintro rfl
    rw [Nat.log2_zero] at enough
    omega
  have below : divisor * 2 ^ places ≤ dividend := by
    have longer := (Nat.log2_lt positive.ne').mp (Nat.lt_succ_self divisor.log2)
    calc
      divisor * 2 ^ places ≤ 2 ^ (divisor.log2 + 1) * 2 ^ places := by
        gcongr
      _ = 2 ^ (divisor.log2 + 1 + places) := (pow_add _ _ _).symm
      _ ≤ dividend := (Nat.le_log2 nonzero).mp enough
  have least : 2 ^ places ≤ dividend / divisor := by
    rw [Nat.le_div_iff_mul_le positive, mul_comm]
    exact below
  exact (Nat.le_log2 (by have := Nat.two_pow_pos places; omega)).mpr least

theorem signed_div (first second : Sign) (x y : ℝ) :
    signed (first / second) (x / y) = signed first x / signed second y := by
  cases first <;> cases second
  · exact (neg_div_neg_eq x y).symm
  · exact (neg_div y x).symm
  · exact (div_neg x).symm
  · rfl

theorem valueOf_div {first second : UnpackedFloat} {a : ℝ} (firstValue : valueOf first = a)
    (secondIsNumber : second.isNaN = false) (nonzero : valueOf second ≠ 0) :
    (first.div Format.binary64 second).isNaN = false ∧
      valueOf (Float.Model.pack (first.div Format.binary64 second)).unpack =
        rounded (a / valueOf second) := by
  have none (sign : Sign) : valueOf (Float.Model.pack (.zero sign)).unpack = rounded 0 := by
    rw [valueOf_zero, rounded_zero]
  cases second with
  | notANumber =>
      cases secondIsNumber
  | infinity other =>
      have vanishing : (a : EReal) / valueOf (.infinity other) = 0 := by
        cases other
        · exact EReal.div_bot
        · exact EReal.div_top
      rw [vanishing]
      rcases exists_parts_of_valueOf firstValue with
        ⟨sign, rfl, rfl⟩ | ⟨sign, mantissa, exponent, positive, rfl, rfl⟩ <;>
        exact ⟨rfl, none _⟩
  | zero other =>
      exact absurd rfl nonzero
  | finite other divisor lowered divisorPositive =>
      rcases exists_parts_of_valueOf firstValue with
        ⟨sign, rfl, rfl⟩ | ⟨sign, mantissa, exponent, positive, rfl, rfl⟩
      · rw [EReal.coe_zero, EReal.zero_div]
        exact ⟨rfl, none _⟩
      · refine ⟨isNaN_roundWithAccuracy _ _ _ _, ?_⟩
        rw [valueOf_finite, ← EReal.coe_div, ← signed_div, UnpackedFloat.div, divCore]
        dsimp only
        generalize isTarget : min (exponent - lowered) (Format.binary64.targetExponent
          (totalExponent mantissa exponent - totalExponent divisor lowered)) = target
        have lowest : target ≤ exponent - lowered := isTarget ▸ min_le_left _ _
        obtain ⟨places, reaches⟩ := Int.eq_ofNat_of_zero_le (sub_nonneg.mpr lowest)
        rw [reaches, Int.toNat_natCast, Nat.shiftLeft_eq]
        apply valueOf_roundWithAccuracy_of_pos _ (by positivity)
        · rw [weight_accuracyOfFraction _ divisorPositive]
          congr 1
          have exponents : (2 : ℝ) ^ exponent = 2 ^ places * (2 ^ target * 2 ^ lowered) := by
            rw [← zpow_add₀ two_ne_zero, two_pow_mul_zpow]
            congr 1
            omega
          rw [exponents]
          push_cast
          field_simp
        · simp only [Format.targetExponent, totalExponent, Format.mantissaBits,
            Format.minExponent] at isTarget
          rcases le_or_gt target (-1074) with low | above
          · exact .inr low
          · refine .inl (le_log2_div divisorPositive ?_)
            rw [log2_mul_two_pow positive]
            omega

theorem HasValue.div {x y : Float} {a : ℝ} {b : EReal} (xValue : HasValue x a)
    (yValue : HasValue y b) (nonzero : b ≠ 0) : HasValue (x / y) (rounded (a / b)) := by
  obtain ⟨yIsNumber, rfl⟩ := yValue
  obtain ⟨isNumber, value⟩ := valueOf_div xValue.exact_eq yIsNumber nonzero
  exact ⟨isNaN_unpack_pack isNumber, value⟩

/-! ## Finite doubles -/

theorem hasValue_ofNat {natural : Nat} (small : natural ≤ 2 ^ 53) :
    HasValue (Float.ofNat natural) natural := by
  have value := exact_ofNat small
  refine ⟨isNaN_eq_false_of_exact ?_, value⟩
  rw [value]
  exact EReal.bot_lt_coe natural

theorem hasValue_zero : HasValue (Scalar.zero : Float) 0 := ⟨by decide +kernel, exact_zero⟩

theorem hasValue_one : HasValue (Scalar.one : Float) 1 := ⟨by decide +kernel, exact_one⟩

theorem exists_hasValue_of_isFinite {x : Float} (finite : x.isFinite = true) :
    ∃ value : ℝ, HasValue x value := by
  change x.toModel.unpack.isFinite = true at finite
  have isNumber : x.isNaN = x.toModel.unpack.isNaN := rfl
  cases parts : x.toModel.unpack with
  | zero sign =>
      exact ⟨0, by rw [isNumber, parts]; rfl, by rw [exact, parts]; rfl⟩
  | finite sign mantissa exponent positive =>
      exact ⟨_, by rw [isNumber, parts]; rfl, by rw [exact, parts, valueOf_finite]⟩
  | _ =>
      rw [parts] at finite
      cases finite

theorem isFinite_of_pack {parts : UnpackedFloat}
    (finite : (Float.Model.pack parts).unpack.isFinite = true) : parts.isFinite = true := by
  have stored (canonical : IsCanonical parts) : (Float.Model.pack parts).unpack = parts :=
    unpack_pack canonical
  cases parts with
  | notANumber =>
      rwa [stored trivial] at finite
  | infinity sign =>
      rwa [stored trivial] at finite
  | _ =>
      rfl

/-- Only the distance of finite doubles is finite. -/
theorem isFinite_of_sub {x y : Float} (finite : (x - y).isFinite = true) :
    x.isFinite = true ∧ y.isFinite = true := by
  change (Float.Model.pack (UnpackedFloat.sub Format.binary64 x.toModel.unpack
    y.toModel.unpack)).unpack.isFinite = true at finite
  change x.toModel.unpack.isFinite = true ∧ y.toModel.unpack.isFinite = true
  replace finite := isFinite_of_pack finite
  generalize x.toModel.unpack = first at finite ⊢
  generalize y.toModel.unpack = second at finite ⊢
  cases first with
  | notANumber =>
      cases second <;> cases finite
  | infinity sign =>
      cases sign <;> cases second with
      | infinity other =>
          cases other <;> cases finite
      | _ =>
          cases finite
  | _ =>
      cases second with
      | notANumber =>
          cases finite
      | infinity other =>
          cases other <;> cases finite
      | _ =>
          exact ⟨rfl, rfl⟩

theorem exists_hasValue_ofNat {natural : Nat} (inWord : natural < 2 ^ 64) :
    ∃ value : ℝ, HasValue (Float.ofNat natural) value ∧ (0 < natural → 1 ≤ value) := by
  obtain ⟨value, hasValue⟩ := exists_hasValue_of_isFinite (isFinite_ofNat inWord)
  refine ⟨value, hasValue, fun positive => ?_⟩
  have one : HasValue (Float.ofNat 1) (1 : Nat) := hasValue_ofNat Nat.one_le_two_pow
  have atLeast := (one.le_iff hasValue).mp (ofNat_le_ofNat positive inWord)
  exact_mod_cast atLeast

/-- Rounding does not leave the range from zero to a double. -/
theorem exists_rounded_mem_uIcc {part whole : ℝ} (inside : part ∈ Set.uIcc 0 whole)
    (kept : rounded whole = whole) :
    ∃ stored ∈ Set.uIcc 0 whole, rounded part = (stored : ℝ) := by
  have between : rounded part ∈ Set.uIcc (0 : EReal) whole := by
    have moved := rounded_mono.mapsTo_uIcc (EReal.coe_strictMono.monotone.mapsTo_uIcc inside)
    rwa [kept, EReal.coe_zero, rounded_zero] at moved
  rw [← EReal.coe_zero, Set.mem_uIcc] at between
  generalize rounded part = value at between ⊢
  cases value with
  | bot =>
      simp at between
  | top =>
      simp at between
  | coe stored =>
      simp only [EReal.coe_le_coe_iff] at between
      exact ⟨stored, Set.mem_uIcc.mpr between, rfl⟩

end InSitu.Number
