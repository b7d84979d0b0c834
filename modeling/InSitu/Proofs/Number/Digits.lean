import InSitu.Proofs.Number.Merging

/-!
# Doubles that are read from digits

Rounding keeps to the numbers, and so do multiplication and division by a power
of ten.  The digits of a text therefore become a number or an infinity, and an
integer of a machine word, signed or not, becomes a finite double.  Cut to a
signed word that double is kept unless it lies above `2 ^ 63`.
-/

namespace InSitu.Number

open Float.Model (Format UnpackedFloat)
open Float.Model.UnpackedFloat

theorem isNaN_roundWithAccuracy (sign : Sign) (mantissa : Nat) (exponent : Int)
    (accuracy : Accuracy) :
    (roundWithAccuracy Format.binary64 sign mantissa exponent accuracy).isNaN = false := by
  rw [roundWithAccuracy]
  dsimp only
  split <;> rfl

theorem isNaN_unpack_packComponents (sign : Sign) {exponent : BitVec 11} (mantissa : BitVec 52)
    (notTop : exponent ≠ -1#11) :
    (unpack Format.binary64 (packComponents Format.binary64 sign exponent mantissa)).isNaN =
      false := by
  rw [unpack]
  simp only [unpackExponent_packComponents, unpackMantissa_packComponents, unpack_packComponents]
  rw [if_neg notTop]
  split
  · split <;> rfl
  · rfl

/-- The highest exponent is left to the infinities. -/
theorem isNaN_unpack_pack {parts : UnpackedFloat} (isNumber : parts.isNaN = false) :
    (Float.Model.pack parts).unpack.isNaN = false := by
  change (unpack Format.binary64 (pack Format.binary64 parts)).isNaN = false
  cases parts with
  | notANumber =>
      cases isNumber
  | infinity sign =>
      cases sign <;> rfl
  | zero sign =>
      cases sign <;> rfl
  | finite sign mantissa exponent positive =>
      rw [pack]
      dsimp only
      generalize (exponent + Format.binary64.exponentBias +
        Format.binary64.mantissaBitsWithoutImplicit).toNat = biased
      split
      · cases sign <;> rfl
      · rename_i inRange
        change ¬ 2048 ≤ biased + 1 at inRange
        split
        · refine isNaN_unpack_packComponents sign _ fun isTop => ?_
          have value : biased % 2048 = 2047 := by
            rw [← BitVec.toNat_ofNat biased 11]
            exact congrArg BitVec.toNat isTop
          omega
        · exact isNaN_unpack_packComponents sign _ (by decide)

section Arithmetic

variable {x : UnpackedFloat} (sign : Sign) {mantissa : Nat} (exponent : Int)

theorem isNaN_mul_finite (isNumber : x.isNaN = false) (positive : 0 < mantissa) :
    (UnpackedFloat.mul Format.binary64 x (.finite sign mantissa exponent positive)).isNaN =
      false := by
  cases x with
  | notANumber =>
      cases isNumber
  | finite =>
      exact isNaN_roundWithAccuracy _ _ _ _
  | _ =>
      rfl

theorem isNaN_div_finite (isNumber : x.isNaN = false) (positive : 0 < mantissa) :
    (UnpackedFloat.div Format.binary64 x (.finite sign mantissa exponent positive)).isNaN =
      false := by
  cases x with
  | notANumber =>
      cases isNumber
  | finite =>
      exact isNaN_roundWithAccuracy _ _ _ _
  | _ =>
      rfl

end Arithmetic

theorem zero_lt_iff (x : Float) :
    0 < x ↔ UnpackedFloat.lt (.zero .positive) x.toModel.unpack = true :=
  decide_eq_true_iff

theorem exists_unpack_power {places : Nat} (inTable : places < 23) :
    ∃ sign mantissa exponent, ∃ positive : 0 < mantissa,
      (Float.exactlyRepresentablePowersOfTen[places]).toModel.unpack =
        .finite sign mantissa exponent positive := by
  have listed : ∀ place : Fin 23,
      (Float.exactlyRepresentablePowersOfTen[place]).isFinite = true ∧
        0 < Float.exactlyRepresentablePowersOfTen[place] := by
    decide +kernel
  obtain ⟨finite, above⟩ := listed ⟨places, inTable⟩
  change (Float.exactlyRepresentablePowersOfTen[places]).toModel.unpack.isFinite = true at finite
  rw [zero_lt_iff] at above
  change UnpackedFloat.lt _ (Float.exactlyRepresentablePowersOfTen[places]).toModel.unpack =
    true at above
  cases parts : (Float.exactlyRepresentablePowersOfTen[places]).toModel.unpack with
  | finite sign mantissa exponent positive =>
      exact ⟨sign, mantissa, exponent, positive, rfl⟩
  | zero sign =>
      rw [parts] at above
      cases above
  | _ =>
      rw [parts] at finite
      cases finite

theorem isNaN_ofNat_unpacked (natural : Nat) :
    (UnpackedFloat.ofNat Format.binary64 natural).isNaN = false := by
  rw [UnpackedFloat.ofNat, UnpackedFloat.ofInt, UnpackedFloat.normalize]
  split
  · exact isNaN_roundWithAccuracy _ _ _ _
  · rfl
  · exact isNaN_roundWithAccuracy _ _ _ _

theorem isNaN_ofScientific_unpacked (digits : Nat) (exponent : Int) :
    (UnpackedFloat.ofScientific Format.binary64 digits exponent).isNaN = false := by
  rw [UnpackedFloat.ofScientific]
  split
  · rfl
  · split
    · rfl
    · split
      · rfl
      · split
        · exact isNaN_mul_finite _ _ rfl _
        · exact isNaN_div_finite _ _ rfl _

/-- Digits with a decimal exponent are a number, or too large for one. -/
theorem isNaN_ofScientific (digits : Nat) (negative : Bool) (places : Nat) :
    (Float.ofScientific digits negative places).isNaN = false := by
  rw [Float.ofScientific]
  split
  · rename_i short
    obtain ⟨sign, mantissa, exponent, positive, parts⟩ :=
      exists_unpack_power (Nat.lt_succ_of_le short.2)
    have word : digits.toUInt64.toFloat.toModel.unpack.isNaN = false :=
      isNaN_unpack_pack (isNaN_ofNat_unpacked _)
    dsimp only
    split
    · have quotient := isNaN_div_finite sign exponent word positive
      rw [← parts] at quotient
      exact isNaN_unpack_pack quotient
    · have product := isNaN_mul_finite sign exponent word positive
      rw [← parts] at product
      exact isNaN_unpack_pack product
  · exact isNaN_unpack_pack (isNaN_ofScientific_unpacked _ _)

theorem isFinite_of_isNaN_of_isInf {x : Float} (isNumber : x.isNaN = false)
    (bounded : x.isInf = false) : x.isFinite = true := by
  change x.toModel.unpack.isNaN = false at isNumber
  change x.toModel.unpack.isInf = false at bounded
  change x.toModel.unpack.isFinite = true
  cases parts : x.toModel.unpack with
  | notANumber =>
      rw [parts] at isNumber
      cases isNumber
  | infinity sign =>
      rw [parts] at bounded
      cases bounded
  | _ =>
      rfl

theorem isFinite_neg (x : Float) : (-x).isFinite = x.isFinite := by
  change (-x).toModel.unpack.isFinite = x.toModel.unpack.isFinite
  rw [unpack_neg]
  cases x.toModel.unpack <;> rfl

/-! ## Integers of a machine word -/

theorem isFinite_ofNat {natural : Nat} (inWord : natural < 2 ^ 64) :
    (Float.ofNat natural).isFinite = true := by
  change (Float.ofNat natural).toModel.unpack.isFinite = true
  rcases Nat.eq_zero_or_pos natural with rfl | positive
  · rw [unpack_ofNat_zero]
    rfl
  · obtain ⟨_, _, _, _, parts⟩ := exists_ofNat_roundsTo positive inWord
    rw [parts]
    rfl

theorem isFinite_ofInt {integer : Int} (least : -2 ^ 63 ≤ integer) (limit : integer < 2 ^ 64) :
    (Float.ofInt integer).isFinite = true := by
  cases integer with
  | ofNat natural =>
      exact isFinite_ofNat (Int.ofNat_lt.mp limit)
  | negSucc previous =>
      change (-Float.ofNat (previous + 1)).isFinite = true
      rw [isFinite_neg]
      exact isFinite_ofNat (by omega)

/-- No word becomes more than `2 ^ 63`, to which the largest are rounded. -/
theorem ofInt64_le_limit (word : Int64) : ofInt64 word ≤ Float.ofNat (2 ^ 63) := by
  rcases Int.lt_or_le word.toInt 0 with negative | natural
  · have below := (ofInt64_lt_zero_iff word).mpr negative
    have above : (0 : Float) ≤ Float.ofNat (2 ^ 63) := by
      decide +kernel
    exact Number.le_trans (Number.le_of_lt below) above
  · rw [ofInt64_of_natural natural]
    have below := word.toInt_lt
    exact ofNat_le_ofNat (by omega) (by decide)

/-- Between the signed words and the integers that are rounded to the next double
above them there is one double only. -/
theorem limit_lt_ofInt_iff {integer : Int} (least : -2 ^ 63 ≤ integer)
    (limit : integer < 2 ^ 64) :
    Float.ofNat (2 ^ 63) < Float.ofInt integer ↔ 2 ^ 63 + 1024 < integer := by
  constructor
  · intro above
    by_contra within
    refine Number.not_le_of_lt above ?_
    by_cases inWord : integer < 2 ^ 63
    · have held : (Int64.ofInt integer).toInt = integer := Int64.toInt_ofInt_of_le least inWord
      rw [← held]
      exact ofInt64_le_limit (Int64.ofInt integer)
    · obtain ⟨natural, rfl⟩ := Int.eq_ofNat_of_zero_le (by omega : 0 ≤ integer)
      have rounded : Float.ofNat (2 ^ 63 + 1024) = Float.ofNat (2 ^ 63) := by
        decide +kernel
      rw [← rounded]
      exact ofNat_le_ofNat (by omega) (by decide)
  · intro beyond
    obtain ⟨natural, rfl⟩ := Int.eq_ofNat_of_zero_le (by omega : 0 ≤ integer)
    have above : Float.ofNat (2 ^ 63 + 1025) ≤ Float.ofNat natural :=
      ofNat_le_ofNat (by omega) (by omega)
    have next : Float.ofNat (2 ^ 63) < Float.ofNat (2 ^ 63 + 1025) := by
      decide +kernel
    by_contra within
    have below := (not_lt_iff_le (isNaN_eq_false_of_lt next).1
      (isNaN_eq_false_of_le above).2).mp within
    exact Number.not_le_of_lt next (Number.le_trans above below)

theorem cut_cut (x : Float) : cut (cut x) = cut x := cut_ofInt64 (toInt64 x)

/-- The double of an integer survives being cut unless it lies above the words. -/
theorem cut_ofInt_eq_self_iff {integer : Int} (least : -2 ^ 63 ≤ integer)
    (limit : integer < 2 ^ 64) :
    cut (Float.ofInt integer) = Float.ofInt integer ↔
      ¬ Float.ofNat (2 ^ 63) < Float.ofInt integer := by
  constructor
  · intro same above
    rw [← same] at above
    exact Number.not_le_of_lt above (ofInt64_le_limit _)
  · intro within
    by_cases inWord : integer < 2 ^ 63
    · have held : (Int64.ofInt integer).toInt = integer := Int64.toInt_ofInt_of_le least inWord
      have same := cut_ofInt64 (Int64.ofInt integer)
      rwa [ofInt64, held] at same
    · obtain ⟨natural, rfl⟩ := Int.eq_ofNat_of_zero_le (by omega : 0 ≤ integer)
      have above : Float.ofNat (2 ^ 63) ≤ Float.ofNat natural :=
        ofNat_le_ofNat (by omega) (by omega)
      obtain ⟨limitIsNumber, isNumber⟩ := isNaN_eq_false_of_le above
      have below : Float.ofNat natural ≤ Float.ofNat (2 ^ 63) :=
        (not_lt_iff_le limitIsNumber isNumber).mp within
      change cut (Float.ofNat natural) = Float.ofNat natural
      obtain ⟨_, _, same | ⟨_, isZero⟩ | ⟨_, isZero⟩⟩ :=
        Float.beq_iff_ne_nan_and_eq.mp (beq_of_le_of_le below above)
      · rw [same]
        decide +kernel
      · exact absurd isZero (by decide +kernel)
      · exact absurd isZero (by decide +kernel)

end InSitu.Number
