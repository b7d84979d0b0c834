import InSitu.Proofs.Number.Arithmetic

/-!
# Distances of doubles

The difference of two doubles is rounded, but never to zero unless they are equal: all doubles are
multiples of the least positive one, and so is what lies between them.  A difference therefore has
the sign of the exact one and says on which side of one double the other lies.
-/

namespace InSitu.Number

open Float.Model (Format UnpackedFloat)
open Float.Model.UnpackedFloat

/-- A finite double is a whole number of times the least one. -/
theorem exists_eq_mul_least {parts : UnpackedFloat} (canonical : IsCanonical parts) {a : ℝ}
    (value : valueOf parts = a) : ∃ times : ℤ, a = times * 2 ^ (-1074 : ℤ) := by
  cases parts with
  | notANumber =>
      exact absurd value (EReal.bot_lt_coe a).ne
  | infinity sign =>
      cases sign with
      | positive =>
          exact absurd value (EReal.coe_lt_top a).ne'
      | negative =>
          exact absurd value (EReal.bot_lt_coe a).ne
  | zero sign =>
      have isZero : a = 0 := (EReal.coe_eq_zero.mp value.symm)
      exact ⟨0, by simpa using isZero⟩
  | finite sign mantissa exponent positive =>
      have fits := (fitsFormat_iff mantissa exponent).mp canonical
      obtain ⟨places, isExponent⟩ := Int.eq_ofNat_of_zero_le (by omega : 0 ≤ exponent + 1074)
      have isShifted : (2 : ℝ) ^ exponent = 2 ^ places * 2 ^ (-1074 : ℤ) := by
        rw [two_pow_mul_zpow, ← isExponent]
        congr 1
        omega
      rw [valueOf_finite, EReal.coe_eq_coe_iff, isShifted] at value
      cases sign with
      | positive =>
          refine ⟨mantissa * 2 ^ places, ?_⟩
          rw [← value, signed]
          push_cast
          ring
      | negative =>
          refine ⟨-(mantissa * 2 ^ places), ?_⟩
          rw [← value, signed]
          push_cast
          ring

/-- What is not below the least double is not rounded to zero. -/
theorem limited_grained_pos {x : ℝ} (atLeast : 2 ^ (-1074 : ℤ) ≤ x) : 0 < limited (grained x) := by
  have least : (0 : ℝ) < 2 ^ (-1074 : ℤ) := by
    positivity
  have isLog : Int.log 2 (((2 : ℕ) : ℝ) ^ (-1074 : ℤ)) = -1074 := Int.log_zpow one_lt_two (-1074)
  rw [Nat.cast_ofNat] at isLog
  have whole : nearestWhole 1 = 1 := by
    simpa using nearestWhole_natCast 1
  have kept : grained (2 ^ (-1074 : ℤ)) = 2 ^ (-1074 : ℤ) := by
    rw [grained_eq, grain, isLog, max_eq_right (by norm_num), div_self least.ne', whole,
      Nat.cast_one, one_mul]
  have positive : 0 < grained x := least.trans_le (kept ▸ grained_mono least atLeast)
  rw [limited_eq]
  split
  · exact EReal.coe_pos.mpr positive
  · exact EReal.zero_lt_top

/-- Rounding keeps the sign of a multiple of the least double. -/
theorem rounded_pos_iff {x : ℝ} {times : ℤ} (multiple : x = times * 2 ^ (-1074 : ℤ)) :
    0 < rounded x ↔ 0 < x := by
  have least : (0 : ℝ) < 2 ^ (-1074 : ℤ) := by
    positivity
  constructor
  · intro positive
    by_contra notPositive
    have atMost := rounded_mono (EReal.coe_le_coe (not_lt.mp notPositive))
    rw [EReal.coe_zero, rounded_zero] at atMost
    exact positive.not_ge atMost
  · intro positive
    have some : (1 : ℝ) ≤ times := by
      rw [multiple] at positive
      exact_mod_cast (Int.cast_pos.mp (pos_of_mul_pos_left positive least.le) : 0 < times)
    rw [rounded_coe, if_neg positive.not_gt]
    refine limited_grained_pos ?_
    rw [multiple]
    exact le_mul_of_one_le_left least.le some

theorem isNaN_of_pack {parts : UnpackedFloat}
    (isNumber : (Float.Model.pack parts).unpack.isNaN = false) : parts.isNaN = false := by
  have stored (canonical : IsCanonical parts) : (Float.Model.pack parts).unpack = parts :=
    unpack_pack canonical
  cases parts with
  | notANumber =>
      rwa [stored trivial] at isNumber
  | _ =>
      rfl

/-- Only numbers have a distance, and not two infinities of one sign. -/
theorem isNumber_of_sub {x y : Float} (isNumber : (x - y).isNaN = false) :
    x.isNaN = false ∧ y.isNaN = false ∧ (exact x ≠ ⊥ ∨ exact y ≠ ⊥) ∧
      (exact x ≠ ⊤ ∨ exact y ≠ ⊤) := by
  change (Float.Model.pack (UnpackedFloat.sub Format.binary64 x.toModel.unpack
    y.toModel.unpack)).unpack.isNaN = false at isNumber
  change x.toModel.unpack.isNaN = false ∧ y.toModel.unpack.isNaN = false ∧
    (valueOf x.toModel.unpack ≠ ⊥ ∨ valueOf y.toModel.unpack ≠ ⊥) ∧
    (valueOf x.toModel.unpack ≠ ⊤ ∨ valueOf y.toModel.unpack ≠ ⊤)
  replace isNumber := isNaN_of_pack isNumber
  generalize x.toModel.unpack = first at isNumber ⊢
  generalize y.toModel.unpack = second at isNumber ⊢
  cases first with
  | notANumber =>
      cases second <;> cases isNumber
  | infinity sign =>
      cases second with
      | notANumber =>
          cases isNumber
      | infinity other =>
          cases sign with
          | positive =>
              cases other with
              | positive =>
                  cases isNumber
              | negative =>
                  simp [valueOf, UnpackedFloat.isNaN]
          | negative =>
              cases other with
              | positive =>
                  simp [valueOf, UnpackedFloat.isNaN]
              | negative =>
                  cases isNumber
      | zero other =>
          simp [valueOf, UnpackedFloat.isNaN]
      | finite other mantissa exponent positive =>
          simp [valueOf_finite, UnpackedFloat.isNaN]
  | zero sign =>
      cases second with
      | notANumber =>
          cases isNumber
      | _ =>
          simp [valueOf, UnpackedFloat.isNaN]
  | finite sign mantissa exponent positive =>
      cases second with
      | notANumber =>
          cases isNumber
      | _ =>
          simp [valueOf_finite, UnpackedFloat.isNaN]

theorem hasValue_sub {x y : Float} (isNumber : (x - y).isNaN = false) :
    HasValue (x - y) (rounded (exact x - exact y)) := by
  obtain ⟨xIsNumber, yIsNumber, low, high⟩ := isNumber_of_sub isNumber
  have opposite := HasValue.neg ⟨yIsNumber, rfl⟩
  rw [sub_eq_add_opposite, sub_eq_add_neg]
  exact HasValue.add ⟨xIsNumber, rfl⟩ opposite (low.imp_right EReal.neg_eq_top_iff.not.mpr)
    (high.imp_right EReal.neg_eq_bot_iff.not.mpr)

theorem rounded_sub_pos_iff {x y : Float} (low : exact x ≠ ⊥ ∨ exact y ≠ ⊥)
    (high : exact x ≠ ⊤ ∨ exact y ≠ ⊤) :
    0 < rounded (exact x - exact y) ↔ exact y < exact x := by
  have xMultiple {a : ℝ} : exact x = a → ∃ times : ℤ, a = times * 2 ^ (-1074 : ℤ) :=
    exists_eq_mul_least (isCanonical_unpack x.toModel)
  have yMultiple {b : ℝ} : exact y = b → ∃ times : ℤ, b = times * 2 ^ (-1074 : ℤ) :=
    exists_eq_mul_least (isCanonical_unpack y.toModel)
  generalize exact x = v at low high xMultiple ⊢
  generalize exact y = w at low high yMultiple ⊢
  cases v with
  | bot =>
      simp
  | top =>
      have below : w ≠ ⊤ := high.resolve_left (not_not_intro rfl)
      simp [EReal.top_sub below, below.lt_top]
  | coe a =>
      cases w with
      | bot =>
          simp
      | top =>
          simp
      | coe b =>
          obtain ⟨times, isMultiple⟩ := xMultiple rfl
          obtain ⟨otherTimes, isOtherMultiple⟩ := yMultiple rfl
          have multiple : a - b = ((times - otherTimes : ℤ) : ℝ) * 2 ^ (-1074 : ℤ) := by
            rw [isMultiple, isOtherMultiple, Int.cast_sub, sub_mul]
          rw [← EReal.coe_sub, rounded_pos_iff multiple, sub_pos, EReal.coe_lt_coe_iff]

theorem rounded_neg (v : EReal) : rounded (-v) = -rounded v := by
  cases v with
  | bot =>
      simp
  | top =>
      simp
  | coe a =>
      rw [← EReal.coe_neg, rounded_coe, rounded_coe]
      rcases lt_trichotomy a 0 with negative | rfl | positive
      · simp [negative, negative.le]
      · simp [grained_zero]
      · simp [positive, positive.le]

section Sides

variable {x y : Float} (isNumber : (x - y).isNaN = false)

include isNumber

/-- A difference is positive exactly if the subtrahend is the smaller one. -/
theorem zero_lt_sub_iff : Scalar.zero < x - y ↔ y < x := by
  obtain ⟨xIsNumber, yIsNumber, low, high⟩ := isNumber_of_sub isNumber
  rw [hasValue_zero.lt_iff (hasValue_sub isNumber), rounded_sub_pos_iff low high]
  exact (HasValue.lt_iff ⟨yIsNumber, rfl⟩ ⟨xIsNumber, rfl⟩).symm

/-- It is negative exactly if the subtrahend is the larger one. -/
theorem sub_lt_zero_iff : x - y < Scalar.zero ↔ x < y := by
  obtain ⟨xIsNumber, yIsNumber, low, high⟩ := isNumber_of_sub isNumber
  have opposite : -(exact x - exact y) = exact y - exact x := by
    rw [EReal.neg_sub low high, add_comm, sub_eq_add_neg]
  rw [(hasValue_sub isNumber).lt_iff hasValue_zero, ← EReal.neg_lt_neg_iff, neg_zero, ← rounded_neg,
    opposite, rounded_sub_pos_iff low.symm high.symm]
  exact (HasValue.lt_iff ⟨xIsNumber, rfl⟩ ⟨yIsNumber, rfl⟩).symm

end Sides

theorem isNaN_abs (x : Float) : x.abs.isNaN = x.isNaN := by
  have canonical : IsCanonical x.toModel.unpack.abs := by
    have parts := isCanonical_unpack x.toModel
    cases unpacked : x.toModel.unpack with
    | finite sign mantissa exponent positive =>
        rw [unpacked] at parts
        exact parts
    | _ =>
        trivial
  have stored : x.abs.isNaN = x.toModel.unpack.abs.isNaN :=
    congrArg UnpackedFloat.isNaN (unpack_pack canonical)
  have isNaN : x.isNaN = x.toModel.unpack.isNaN := rfl
  rw [stored, isNaN]
  cases x.toModel.unpack <;> rfl

theorem HasValue.abs {x : Float} (isNumber : x.isNaN = false) : HasValue x.abs (exact x.abs) :=
  ⟨(isNaN_abs x).trans isNumber, rfl⟩

theorem beq_iff_le_and_le {x y : Float} : (x == y) = true ↔ x ≤ y ∧ y ≤ x := by
  constructor
  · intro equal
    have compared : comparison? x y = some .eq := beq_iff_eq.mp equal
    have swapped : comparison? y x = (comparison? x y).map Ordering.swap := compare_swap _ _
    rw [compared] at swapped
    exact ⟨(le_iff_comparison? x y).mpr (.inr compared), (le_iff_comparison? y x).mpr (.inr swapped)⟩
  · rintro ⟨below, above⟩
    exact beq_of_le_of_le below above

theorem isNaN_eq_false_of_beq {x y : Float} (equal : (x == y) = true) :
    x.isNaN = false ∧ y.isNaN = false :=
  isNaN_eq_false_of_le (beq_iff_le_and_le.mp equal).1

theorem HasValue.beq_iff {x y : Float} {a b : EReal} (xValue : HasValue x a)
    (yValue : HasValue y b) : (x == y) = true ↔ a = b := by
  rw [beq_iff_le_and_le, xValue.le_iff yValue, yValue.le_iff xValue, le_antisymm_iff]

end InSitu.Number
