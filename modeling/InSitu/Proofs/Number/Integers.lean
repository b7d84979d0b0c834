import InSitu.Proofs.Number.Unpacked

/-!
# Integers among the doubles

A double that is an integer of 64 bits is cut to that integer, and the integer is rounded back to
the double.  Neither direction rounds: the mantissa is shifted by its exponent one way and back.
-/

namespace InSitu.Number

open Float.Model (Format totalExponent UnpackedFloat)
open Float.Model.UnpackedFloat

/-- The double is exactly an integer, and it is not minus zero. -/
def IsInteger (x : Float) (integer : Int) : Prop :=
  match x.toModel.unpack with
  | .zero sign => sign = .positive ∧ integer = 0
  | .finite sign mantissa exponent _ => (sign.apply mantissa : ℚ) * 2 ^ exponent = integer
  | _ => False

/-- A mantissa that an exponent makes a natural number, by a shift to one side or the other. -/
inductive Shifts (mantissa : Nat) : (exponent : Int) → (natural : Nat) → Prop where
  | left (places : Nat) : Shifts mantissa places (mantissa * 2 ^ places)
  | right (places natural : Nat) (dropped : mantissa = natural * 2 ^ places) :
      Shifts mantissa (-places) natural

theorem shifts_of_eq {mantissa natural : Nat} {exponent : Int}
    (exact : (mantissa : ℚ) * 2 ^ exponent = natural) : Shifts mantissa exponent natural := by
  obtain ⟨places, rfl | rfl⟩ := exponent.eq_nat_or_neg
  · have isLeft : mantissa * 2 ^ places = natural := by
      rw [zpow_natCast] at exact
      exact_mod_cast exact
    rw [← isLeft]
    exact .left places
  · have isRight : mantissa = natural * 2 ^ places := by
      rw [zpow_neg, zpow_natCast, ← div_eq_mul_inv, div_eq_iff (by positivity)] at exact
      exact_mod_cast exact
    exact .right places natural isRight

theorem shiftRight_exact (mantissa places : Nat) :
    ExtendedMantissa.ofMantissaAndAccuracy (mantissa * 2 ^ places) .exact >>> places =
      ExtendedMantissa.ofMantissaAndAccuracy mantissa .exact := by
  induction places generalizing mantissa with
  | zero =>
      rw [pow_zero, Nat.mul_one]
      rfl
  | succ places inductionHypothesis =>
      have once : mantissa * 2 ^ (places + 1) = mantissa * 2 * 2 ^ places := by
        ring
      have twice : ExtendedMantissa.ofMantissaAndAccuracy (mantissa * 2) .exact =
          ⟨mantissa * 2, false, false⟩ := rfl
      change ExtendedMantissa.shiftRightOne
        (ExtendedMantissa.ofMantissaAndAccuracy (mantissa * 2 ^ (places + 1)) .exact >>> places) = _
      rw [once, inductionHypothesis, twice]
      simp [ExtendedMantissa.shiftRightOne, ExtendedMantissa.ofMantissaAndAccuracy]

theorem shiftRight_zero (extended : ExtendedMantissa) : extended >>> 0 = extended := rfl

theorem roundToInt_of_shifts (sign : Sign) {mantissa natural : Nat} {exponent : Int}
    (shifts : Shifts mantissa exponent natural) :
    roundToInt sign mantissa exponent = sign.apply natural := by
  cases shifts with
  | left places =>
      have up : ((places : Int) - 0).toNat = places := by omega
      have down : (0 - ((places : Int) - (places : Int))).toNat = 0 := by omega
      simp only [roundToInt, decreaseExponent, shiftToExponent, up, down, shiftRight_zero,
        Nat.shiftLeft_eq]
      rfl
  | right places natural dropped =>
      have up : (-(places : Int) - 0).toNat = 0 := by omega
      have down : (0 - (-(places : Int) - (0 : Nat))).toNat = places := by omega
      simp only [roundToInt, decreaseExponent, shiftToExponent, up, down, Nat.shiftLeft_zero,
        dropped, shiftRight_exact]
      rfl

theorem log2_mul_two_pow {mantissa : Nat} (positive : 0 < mantissa) (places : Nat) :
    (mantissa * 2 ^ places).log2 = mantissa.log2 + places := by
  induction places with
  | zero =>
      rw [pow_zero, Nat.mul_one, Nat.add_zero]
  | succ places inductionHypothesis =>
      have once : mantissa * 2 ^ (places + 1) = 2 * (mantissa * 2 ^ places) := by
        ring
      rw [once, Nat.log2_two_mul (by positivity), inductionHypothesis, Nat.add_assoc]

/-- Rounding drops the zeros that a shift has brought in, and nothing else. -/
theorem roundWithAccuracy_shifted (sign : Sign) {mantissa : Nat} {exponent : Int}
    (fits : FitsFormat mantissa exponent) (places : Nat) :
    roundWithAccuracy Format.binary64 sign (mantissa * 2 ^ places) (exponent - places) .exact =
      .finite sign mantissa exponent fits.positive := by
  have log := log2_mul_two_pow fits.positive places
  have target : Format.binary64.targetExponent
      (totalExponent (mantissa * 2 ^ places) (exponent - places)) = exponent := by
    rw [targetExponent_eq, log]
    have canonical := fits.canonical
    rw [targetExponent_eq] at canonical
    push_cast
    omega
  have first : shiftToTargetExponent Format.binary64 (mantissa * 2 ^ places) (exponent - places)
      .exact = (ExtendedMantissa.ofMantissaAndAccuracy mantissa .exact, exponent) := by
    have amount : (exponent - (exponent - places)).toNat = places := by omega
    have reached : exponent - places + places = exponent := by omega
    simp only [shiftToTargetExponent, target, shiftToExponent, amount, shiftRight_exact, reached]
  have second : shiftToTargetExponent Format.binary64 mantissa exponent .exact =
      (ExtendedMantissa.ofMantissaAndAccuracy mantissa .exact, exponent) := by
    simp [shiftToTargetExponent, fits.canonical, shiftToExponent, shiftRight_zero]
  have kept : (ExtendedMantissa.ofMantissaAndAccuracy mantissa .exact).roundedMantissa =
      mantissa := rfl
  rw [roundWithAccuracy, first]
  dsimp only
  rw [kept, second]
  exact dif_neg fits.positive.ne'

theorem Shifts.natural_pos {mantissa natural : Nat} {exponent : Int}
    (shifts : Shifts mantissa exponent natural) (positive : 0 < mantissa) : 0 < natural := by
  cases shifts with
  | left places =>
      positivity
  | right places natural dropped =>
      rw [dropped] at positive
      exact Nat.pos_of_mul_pos_right positive

theorem round_of_shifts (sign : Sign) {mantissa natural : Nat} {exponent : Int}
    (fits : FitsFormat mantissa exponent) (shifts : Shifts mantissa exponent natural) :
    UnpackedFloat.round Format.binary64 sign natural 0 =
      .finite sign mantissa exponent fits.positive := by
  have canonical := fits.canonical
  rw [targetExponent_eq] at canonical
  have positive := shifts.natural_pos fits.positive
  cases shifts with
  | left places =>
      have target : Format.binary64.targetExponent
          (totalExponent (mantissa * 2 ^ places) 0) = places := by
        rw [targetExponent_eq, log2_mul_two_pow fits.positive]
        push_cast
        omega
      have amount : (0 - (places : Int)).toNat = 0 := by omega
      have exact := roundWithAccuracy_shifted sign fits places
      rw [sub_self] at exact
      simpa only [UnpackedFloat.round, target, decreaseExponent, amount, Nat.shiftLeft_zero,
        Nat.cast_zero, sub_zero] using exact
  | right places natural dropped =>
      have log := log2_mul_two_pow positive places
      rw [← dropped] at log
      have target : Format.binary64.targetExponent (totalExponent natural 0) = -places := by
        rw [targetExponent_eq]
        omega
      have amount : (0 - -(places : Int)).toNat = places := by omega
      have exact := roundWithAccuracy_shifted sign fits 0
      rw [pow_zero, Nat.mul_one, Nat.cast_zero, sub_zero] at exact
      simp only [UnpackedFloat.round, target, decreaseExponent, amount, Nat.shiftLeft_eq, ← dropped]
      rwa [zero_sub]

theorem ofNat_unpacked_of_shifts {mantissa natural : Nat} {exponent : Int}
    (fits : FitsFormat mantissa exponent) (shifts : Shifts mantissa exponent natural) :
    UnpackedFloat.ofNat Format.binary64 natural =
      .finite .positive mantissa exponent fits.positive := by
  have positive := shifts.natural_pos fits.positive
  have above : compare (natural : Int) 0 = .gt := Int.compare_eq_gt.mpr (by omega)
  simp only [UnpackedFloat.ofNat, UnpackedFloat.ofInt, UnpackedFloat.normalize, above,
    Int.toNat_natCast]
  exact round_of_shifts .positive fits shifts

/-- With more than 53 bits a number is rounded after a shift by 53 places. -/
theorem unpack_ofNat_of_long {natural : Nat} (long : 2 ^ 53 ≤ natural) :
    (Float.ofNat natural).toModel.unpack =
      (Float.Model.pack (roundWithAccuracy Format.binary64 .positive (natural * 2 ^ 53) (-53)
        .exact)).unpack := by
  have converted : Float.ofNat natural = Float.ofScientific natural false 0 := rfl
  have nonzero : natural ≠ 0 := by omega
  have inReach : ¬ (0 : Int) < -((2 ^ Format.binary64.exponentBits : Int) + natural.log2) := by
    have nonnegative : (0 : Int) ≤ 2 ^ Format.binary64.exponentBits := by positivity
    omega
  rw [converted, Float.ofScientific, dif_neg (by omega)]
  change (Float.Model.pack (UnpackedFloat.ofScientific Format.binary64 natural 0)).unpack = _
  rw [UnpackedFloat.ofScientific, dif_neg nonzero, if_neg (by decide), if_neg inReach,
    if_pos (by decide)]
  change (Float.Model.pack (roundWithAccuracy Format.binary64 .positive
    (natural <<< 53 * 1) (-(53 : Nat) + 0) .exact)).unpack = _
  rw [Nat.shiftLeft_eq, Nat.mul_one]
  rfl

/-- A natural number that a double holds is converted to that double. -/
theorem ofNat_of_shifts {mantissa natural : Nat} {exponent : Int}
    (fits : FitsFormat mantissa exponent) (shifts : Shifts mantissa exponent natural) :
    (Float.ofNat natural).toModel.unpack =
      .finite .positive mantissa exponent fits.positive := by
  have converted : Float.ofNat natural = Float.ofScientific natural false 0 := rfl
  have stored : (Float.Model.pack (.finite .positive mantissa exponent fits.positive)).unpack =
      .finite .positive mantissa exponent fits.positive := unpack_pack fits
  by_cases small : natural < 2 ^ 53
  · -- Up to 53 bits the number is rounded as a word and multiplied by one.
    have inWord : natural.toUInt64.toNat = natural := by
      change natural % 2 ^ 64 = natural
      omega
    have word : natural.toUInt64.toFloat.toModel.unpack =
        .finite .positive mantissa exponent fits.positive := by
      change (Float.Model.pack (UnpackedFloat.ofNat Format.binary64
        natural.toUInt64.toNat)).unpack = _
      rw [inWord, ofNat_unpacked_of_shifts fits shifts, stored]
    have one : (Float.ofBits 0x3FF0000000000000).toModel.unpack =
        .finite .positive (2 ^ 52) (-(52 : Nat)) (by decide) := rfl
    rw [converted, Float.ofScientific, dif_pos ⟨small, by decide⟩]
    change (Float.Model.pack (UnpackedFloat.mul Format.binary64
      natural.toUInt64.toFloat.toModel.unpack
      (Float.ofBits 0x3FF0000000000000).toModel.unpack)).unpack = _
    rw [word, one]
    change (Float.Model.pack (roundWithAccuracy Format.binary64 .positive (mantissa * 2 ^ 52)
      (exponent - (52 : Nat)) .exact)).unpack = _
    rw [roundWithAccuracy_shifted .positive fits, stored]
  · rw [unpack_ofNat_of_long (by omega)]
    cases shifts with
    | left places =>
        have shifted : mantissa * 2 ^ places * 2 ^ 53 = mantissa * 2 ^ (places + 53) := by
          rw [Nat.mul_assoc, ← pow_add]
        have lowered : (-53 : Int) = places - (places + 53 : Nat) := by
          push_cast
          ring
        rw [shifted, lowered, roundWithAccuracy_shifted .positive fits, stored]
    | right places natural dropped =>
        have mantissaSmall : mantissa < 2 ^ 53 := by
          have log : mantissa.log2 < 53 := by
            have parts := (fitsFormat_iff _ _).mp fits
            omega
          exact (Nat.log2_lt fits.positive.ne').mp log
        have atMost : natural ≤ mantissa := by
          rw [dropped]
          exact Nat.le_mul_of_pos_right natural (by positivity)
        omega

theorem toUInt64_of_shifts {x : Float} {mantissa natural : Nat} {exponent : Int}
    {positive : 0 < mantissa}
    (parts : x.toModel.unpack = .finite .positive mantissa exponent positive)
    (shifts : Shifts mantissa exponent natural) (inWord : natural < 2 ^ 64) :
    x.toUInt64.toNat = natural := by
  change (UInt64.ofNatClamp (UnpackedFloat.toInt 0 _ x.toModel.unpack).toNat).toNat = natural
  rw [parts, UnpackedFloat.toInt, roundToInt_of_shifts .positive shifts]
  exact UInt64.toNat_ofNatClamp_of_lt inWord

theorem unpack_neg (x : Float) : (-x).toModel.unpack = x.toModel.unpack.neg := by
  have canonical : IsCanonical x.toModel.unpack.neg := by
    have parts := isCanonical_unpack x.toModel
    cases unpacked : x.toModel.unpack with
    | finite sign mantissa exponent positive =>
        rw [unpacked] at parts
        exact parts
    | _ =>
        trivial
  exact unpack_pack canonical

theorem lt_zero_iff (x : Float) :
    x < 0 ↔ UnpackedFloat.lt x.toModel.unpack (.zero .positive) = true :=
  decide_eq_true_iff

theorem toInt64_and_ofInt_of_positive {x : Float} {integer : Int64} {mantissa natural : Nat}
    {exponent : Int} {positive : 0 < mantissa}
    (parts : x.toModel.unpack = .finite .positive mantissa exponent positive)
    (shifts : Shifts mantissa exponent natural) (isNatural : integer.toInt = natural) :
    toInt64 x = integer ∧ Float.ofInt integer.toInt = x := by
  have fits : FitsFormat mantissa exponent := by
    have canonical := isCanonical_unpack x.toModel
    rwa [parts] at canonical
  have notBelow : ¬ x < 0 := by
    rw [lt_zero_iff, parts]
    exact Bool.false_ne_true
  have bounded : integer.toInt ≤ Int64.maxValue.toInt := integer.toInt_le
  have limit : Int64.maxValue.toInt = 2 ^ 63 - 1 := rfl
  constructor
  · rw [toInt64, if_neg notBelow, toUInt64_of_shifts parts shifts (by omega), ← isNatural,
      min_eq_right bounded, Int64.ofInt_toInt]
  · rw [isNatural]
    exact eq_of_unpack_eq ((ofNat_of_shifts fits shifts).trans parts.symm)

theorem toInt64_and_ofInt_of_negative {x : Float} {integer : Int64} {mantissa natural : Nat}
    {exponent : Int} {positive : 0 < mantissa}
    (parts : x.toModel.unpack = .finite .negative mantissa exponent positive)
    (shifts : Shifts mantissa exponent natural) (isNegative : integer.toInt = -natural) :
    toInt64 x = integer ∧ Float.ofInt integer.toInt = x := by
  have fits : FitsFormat mantissa exponent := by
    have canonical := isCanonical_unpack x.toModel
    rwa [parts] at canonical
  have isBelow : x < 0 := by
    rw [lt_zero_iff, parts]
    rfl
  have opposite : (-x).toModel.unpack = .finite .positive mantissa exponent positive := by
    rw [unpack_neg, parts]
    rfl
  have bounded : Int64.minValue.toInt ≤ integer.toInt := integer.le_toInt
  have limit : Int64.minValue.toInt = -2 ^ 63 := rfl
  constructor
  · rw [toInt64, if_pos isBelow, toUInt64_of_shifts opposite shifts (by omega), ← isNegative,
      max_eq_right bounded, Int64.ofInt_toInt]
  · obtain ⟨previous, rfl⟩ :=
      Nat.exists_eq_succ_of_ne_zero (shifts.natural_pos positive).ne'
    rw [isNegative]
    change -Float.ofNat (previous + 1) = x
    refine eq_of_unpack_eq ?_
    rw [unpack_neg, ofNat_of_shifts fits shifts, parts]
    rfl

/-! ## Integers and their parts -/

theorem IsInteger.isNaN_eq_false {x : Float} {integer : Int} (isInteger : IsInteger x integer) :
    x.isNaN = false := by
  by_contra isNaN
  rw [Bool.not_eq_false, ← unpack_eq_notANumber_iff] at isNaN
  rw [IsInteger, isNaN] at isInteger
  cases isInteger

theorem IsInteger.eq_zero {x : Float} (isInteger : IsInteger x 0) : x = 0 := by
  rw [IsInteger] at isInteger
  cases parts : x.toModel.unpack with
  | zero sign =>
      rw [parts] at isInteger
      obtain ⟨rfl, _⟩ := isInteger
      exact eq_of_unpack_eq (parts.trans unpack_zero.symm)
  | finite sign mantissa exponent positive =>
      rw [parts] at isInteger
      have value : (sign.apply mantissa : ℚ) * 2 ^ exponent = 0 := by
        simpa using isInteger
      have nonzero : sign.apply mantissa ≠ 0 := by
        cases sign <;> simp only [Sign.apply] <;> omega
      exact absurd value (mul_ne_zero (Int.cast_ne_zero.mpr nonzero) (by positivity))
  | _ =>
      rw [parts] at isInteger
      cases isInteger

/-- The parts of an integer other than zero: its sign, and a mantissa and an exponent for its
distance to zero. -/
theorem IsInteger.exists_parts {x : Float} {integer : Int} (isInteger : IsInteger x integer)
    (nonzero : integer ≠ 0) :
    ∃ mantissa exponent, ∃ positive : 0 < mantissa,
      x.toModel.unpack = .finite (if integer < 0 then .negative else .positive) mantissa exponent
          positive ∧
        (mantissa : ℚ) * 2 ^ exponent = integer.natAbs := by
  rw [IsInteger] at isInteger
  cases parts : x.toModel.unpack with
  | finite sign mantissa exponent positive =>
      rw [parts] at isInteger
      have distance : (0 : ℚ) < mantissa * 2 ^ exponent := by
        positivity
      refine ⟨mantissa, exponent, positive, ?_⟩
      cases sign with
      | positive =>
          have value : (mantissa : ℚ) * 2 ^ exponent = integer := isInteger
          rw [value] at distance ⊢
          have above : 0 < integer := by
            exact_mod_cast distance
          rw [if_neg (by omega), ← Int.cast_natCast, Int.natAbs_of_nonneg above.le]
          exact ⟨rfl, rfl⟩
      | negative =>
          have value : (mantissa : ℚ) * 2 ^ exponent = (-integer : Int) := by
            rw [Int.cast_neg, ← isInteger]
            simp [Sign.apply]
          rw [value] at distance ⊢
          have below : 0 < -integer := by
            exact_mod_cast distance
          rw [if_pos (by omega), ← Int.cast_natCast, ← Int.natAbs_neg,
            Int.natAbs_of_nonneg below.le]
          exact ⟨rfl, rfl⟩
  | zero sign =>
      rw [parts] at isInteger
      exact absurd isInteger.2 nonzero
  | _ =>
      rw [parts] at isInteger
      cases isInteger

theorem IsInteger.neg {x : Float} {integer : Int} (isInteger : IsInteger x integer)
    (nonzero : integer ≠ 0) : IsInteger (-x) (-integer) := by
  obtain ⟨mantissa, exponent, positive, parts, _⟩ := isInteger.exists_parts nonzero
  rw [IsInteger, parts] at isInteger
  rw [IsInteger, unpack_neg, parts]
  dsimp only [UnpackedFloat.neg] at isInteger ⊢
  push_cast
  rw [← isInteger]
  split <;> simp [Sign.apply]

theorem IsInteger.lt_zero {x : Float} {integer : Int} (isInteger : IsInteger x integer)
    (negative : integer < 0) : x < 0 := by
  obtain ⟨_, _, _, parts, _⟩ := isInteger.exists_parts negative.ne
  rw [lt_zero_iff, parts, if_pos negative]
  rfl

theorem IsInteger.eq_ofNat {x : Float} {natural : Nat} (isInteger : IsInteger x natural)
    (positive : 0 < natural) : x = Float.ofNat natural := by
  obtain ⟨mantissa, exponent, _, parts, distance⟩ := isInteger.exists_parts (by omega)
  rw [if_neg (by omega)] at parts
  have fits : FitsFormat mantissa exponent := by
    have canonical := isCanonical_unpack x.toModel
    rwa [parts] at canonical
  have converted := ofNat_of_shifts fits (shifts_of_eq distance)
  exact eq_of_unpack_eq (parts.trans converted.symm)

/-- An integer of 64 bits goes through a double without loss. -/
theorem toInt64_and_ofInt_of_isInteger {x : Float} {integer : Int64}
    (isInteger : IsInteger x integer.toInt) :
    toInt64 x = integer ∧ Float.ofInt integer.toInt = x := by
  by_cases isZero : integer.toInt = 0
  · rw [isZero] at isInteger
    have integerZero : integer = 0 := Int64.toInt_inj.mp isZero
    rw [isInteger.eq_zero, integerZero]
    decide +kernel
  · obtain ⟨mantissa, exponent, positive, parts, distance⟩ := isInteger.exists_parts isZero
    have shifts := shifts_of_eq distance
    by_cases negative : integer.toInt < 0
    · rw [if_pos negative] at parts
      exact toInt64_and_ofInt_of_negative parts shifts (by omega)
    · rw [if_neg negative] at parts
      exact toInt64_and_ofInt_of_positive parts shifts (by omega)

end InSitu.Number
