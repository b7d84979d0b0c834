import Mathlib
import InSitu.Number.Scalar

/-!
# Doubles and their parts

A double is determined by its sign, mantissa and exponent, and every mantissa and exponent that the
format can hold is that of a double.  So a double that is no number is `Number.notANumber`, and
there is one infinity of each sign.
-/

namespace InSitu.Number

open Float.Model (Format totalExponent UnpackedFloat)
open Float.Model.UnpackedFloat

/-- A mantissa and an exponent as the format holds them. -/
structure FitsFormat (mantissa : Nat) (exponent : Int) : Prop where
  positive : 0 < mantissa
  canonical : Format.binary64.targetExponent (totalExponent mantissa exponent) = exponent
  bounded : exponent ≤ 971

def IsCanonical : UnpackedFloat → Prop
  | .finite _ mantissa exponent _ => FitsFormat mantissa exponent
  | _ => True

theorem targetExponent_eq (mantissa : Nat) (exponent : Int) :
    Format.binary64.targetExponent (totalExponent mantissa exponent) =
      max (mantissa.log2 + exponent - 52) (-1074) := by
  simp only [Format.targetExponent, totalExponent, Format.mantissaBits, Format.minExponent]
  omega

/-- Either all 53 bits are used or the exponent is the least one. -/
theorem fitsFormat_iff (mantissa : Nat) (exponent : Int) :
    FitsFormat mantissa exponent ↔
      0 < mantissa ∧ exponent ≤ 971 ∧
        (mantissa.log2 = 52 ∧ -1074 ≤ exponent ∨ mantissa.log2 < 52 ∧ exponent = -1074) := by
  constructor
  · rintro ⟨positive, canonical, bounded⟩
    rw [targetExponent_eq] at canonical
    omega
  · rintro ⟨positive, bounded, parts⟩
    refine ⟨positive, ?_, bounded⟩
    rw [targetExponent_eq]
    omega

theorem packComponents_unpack (bits : BitVec Format.binary64.numBits) :
    packComponents Format.binary64 (Sign.ofBitVec (unpackSign bits)) (unpackExponent bits)
      (unpackMantissa bits) = bits := by
  have sign : (Sign.ofBitVec (unpackSign bits)).toBitVec = unpackSign bits := by
    rcases BitVec.eq_zero_or_eq_one (unpackSign bits) with isZero | isOne
    · rw [isZero]
      rfl
    · rw [isOne]
      rfl
  rw [packComponents, sign]
  change BitVec 64 at bits
  refine BitVec.eq_of_getLsbD_eq fun i inBits => ?_
  have inWord : i < 64 := inBits
  simp only [BitVec.getLsbD_append]
  simp only [unpackSign, unpackExponent, unpackMantissa, BitVec.getLsbD_cast,
    BitVec.getLsbD_extract]
  by_cases inMantissa : i < 52
  · have within : i ≤ 51 := by omega
    simp [inMantissa, within]
  · by_cases inExponent : i - 52 < 11
    · have place : 52 + (i - 52) = i := by omega
      have within : i ≤ 62 := by omega
      simp [inMantissa, inExponent, place, within]
    · have place : i = 63 := by omega
      simp only [place]
      simp
      rfl

theorem unpack_packComponents (sign : Sign) (exponent : BitVec 11) (mantissa : BitVec 52) :
    Sign.ofBitVec (unpackSign (packComponents Format.binary64 sign exponent mantissa)) = sign := by
  have bit : unpackSign (packComponents Format.binary64 sign exponent mantissa) =
      sign.toBitVec := by
    change (sign.toBitVec ++ exponent ++ mantissa).extractLsb' 63 1 = sign.toBitVec
    rw [BitVec.extractLsb'_append_eq_of_le (by decide),
      BitVec.extractLsb'_append_eq_of_le (by decide)]
    cases sign <;> rfl
  rw [bit]
  cases sign <;> rfl

theorem toNat_one_append (mantissa : BitVec 52) :
    (1#1 ++ mantissa).toNat = 2 ^ 52 + mantissa.toNat := by
  rw [BitVec.toNat_append, BitVec.toNat_one (by decide)]
  exact (Nat.two_pow_add_eq_or_of_lt mantissa.isLt 1).symm

theorem log2_lt_of_lt {mantissa : Nat} (small : mantissa < 2 ^ 52) : mantissa.log2 < 52 := by
  by_cases isZero : mantissa = 0
  · subst isZero
    decide
  · exact (Nat.log2_lt isZero).mpr small

theorem log2_add_two_pow {mantissa : Nat} (small : mantissa < 2 ^ 52) :
    (2 ^ 52 + mantissa).log2 = 52 := by
  have bounds : 2 ^ 52 ≤ 2 ^ 52 + mantissa ∧ 2 ^ 52 + mantissa < 2 ^ 53 := by omega
  exact (Nat.log2_eq_iff (by omega)).mpr bounds

theorem pack_subnormal (sign : Sign) (mantissa : Nat) (positive : 0 < mantissa)
    (small : mantissa < 2 ^ 52) :
    pack Format.binary64 (.finite sign mantissa (-1074) positive) =
      packComponents Format.binary64 sign 0#11 (BitVec.ofNat 52 mantissa) := by
  have log : mantissa.log2 < 52 := log2_lt_of_lt small
  have notTop : ¬ 2 ^ Format.binary64.exponentBits ≤
      ((-1074 : Int) + Format.binary64.exponentBias +
        Format.binary64.mantissaBitsWithoutImplicit).toNat + 1 := by
    decide
  have notNormal : ¬ mantissa.log2 + 1 = Format.binary64.mantissaBits := by
    change ¬ mantissa.log2 + 1 = 53
    omega
  rw [pack]
  dsimp only
  rw [if_neg notTop, if_neg notNormal]

theorem pack_normal (sign : Sign) (mantissa : Nat) (exponent : Int) (positive : 0 < mantissa)
    (log : mantissa.log2 = 52) (least : -1074 ≤ exponent) (bounded : exponent ≤ 971) :
    pack Format.binary64 (.finite sign mantissa exponent positive) =
      packComponents Format.binary64 sign (BitVec.ofNat 11 (exponent + 1075).toNat)
        (BitVec.ofNat 52 mantissa) := by
  have biased : exponent + Format.binary64.exponentBias +
      Format.binary64.mantissaBitsWithoutImplicit = exponent + 1075 := by
    change exponent + 1023 + 52 = _
    omega
  have notTop : ¬ 2 ^ Format.binary64.exponentBits ≤ (exponent + 1075).toNat + 1 := by
    change ¬ 2048 ≤ _
    omega
  have isNormal : mantissa.log2 + 1 = Format.binary64.mantissaBits := by
    rw [log]
    rfl
  rw [pack]
  dsimp only
  rw [biased, if_neg notTop, if_pos isNormal]

/-- The parts of a double fit the format, and packing them gives back its bits. -/
theorem unpack_spec (bits : BitVec Format.binary64.numBits) :
    IsCanonical (unpack Format.binary64 bits) ∧
      (Format.binary64.Valid bits →
        pack Format.binary64 (unpack Format.binary64 bits) = bits) := by
  have parts := packComponents_unpack bits
  rw [unpack]
  dsimp only
  generalize Sign.ofBitVec (unpackSign bits) = sign at parts ⊢
  have unbiased : ((unpackExponent bits).toNat : Int) - (Format.binary64.exponentBias +
      Format.binary64.mantissaBitsWithoutImplicit) = (unpackExponent bits).toNat - 1075 := rfl
  rw [unbiased]
  by_cases isTop : unpackExponent bits = -1#11
  · rw [if_pos isTop]
    by_cases noMantissa : unpackMantissa bits = 0#52
    · rw [if_pos noMantissa]
      refine ⟨trivial, fun _ => ?_⟩
      rw [← parts, isTop, noMantissa]
      rfl
    · rw [if_neg noMantissa]
      exact ⟨trivial, fun valid => (valid.eq_packedNaN isTop noMantissa).symm⟩
  · rw [if_neg isTop]
    have mantissaSmall : (unpackMantissa bits).toNat < 2 ^ 52 := (unpackMantissa bits).isLt
    by_cases isLeast : unpackExponent bits = 0#11
    · rw [if_pos isLeast]
      by_cases noMantissa : unpackMantissa bits = 0#52
      · rw [dif_pos noMantissa]
        refine ⟨trivial, fun _ => ?_⟩
        rw [← parts, isLeast, noMantissa]
        rfl
      · rw [dif_neg noMantissa]
        have positive : 0 < (unpackMantissa bits).toNat := by
          have nonzero : (unpackMantissa bits).toNat ≠ 0 := fun isZero =>
            noMantissa (BitVec.eq_of_toNat_eq isZero)
          omega
        have exponent : ((unpackExponent bits).toNat : Int) - 1075 + 1 = -1074 := by
          rw [isLeast]
          rfl
        simp only [exponent]
        refine ⟨(fitsFormat_iff _ _).mpr
          ⟨positive, by omega, .inr ⟨log2_lt_of_lt mantissaSmall, rfl⟩⟩, fun _ => ?_⟩
        rw [pack_subnormal sign _ positive mantissaSmall, ← isLeast, BitVec.ofNat_toNat,
          BitVec.setWidth_eq, parts]
    · rw [if_neg isLeast]
      have notTop : (unpackExponent bits).toNat ≠ 2047 := fun isMax =>
        isTop (BitVec.eq_of_toNat_eq isMax)
      have notLeast : (unpackExponent bits).toNat ≠ 0 := fun isZero =>
        isLeast (BitVec.eq_of_toNat_eq isZero)
      have inWord : (unpackExponent bits).toNat < 2048 := (unpackExponent bits).isLt
      have value : (1#1 ++ unpackMantissa bits).toNat = 2 ^ 52 + (unpackMantissa bits).toNat :=
        toNat_one_append _
      have log : (1#1 ++ unpackMantissa bits).toNat.log2 = 52 := by
        rw [value, log2_add_two_pow mantissaSmall]
      refine ⟨(fitsFormat_iff _ _).mpr ⟨by omega, by omega, .inl ⟨log, by omega⟩⟩, fun _ => ?_⟩
      rw [pack_normal sign _ _ _ log (by omega) (by omega)]
      have exponent : ((unpackExponent bits).toNat - 1075 + 1075 : Int).toNat =
          (unpackExponent bits).toNat := by omega
      have mantissa : BitVec.ofNat 52 (1#1 ++ unpackMantissa bits).toNat = unpackMantissa bits := by
        refine BitVec.eq_of_toNat_eq ?_
        rw [BitVec.toNat_ofNat, value]
        omega
      rw [exponent, mantissa, BitVec.ofNat_toNat, BitVec.setWidth_eq, parts]

theorem isCanonical_unpack (model : Float.Model) : IsCanonical model.unpack :=
  (unpack_spec model.toBits.toBitVec).1

theorem pack_unpack (model : Float.Model) : Float.Model.pack model.unpack = model := by
  obtain ⟨word, valid⟩ := model
  have bits := (unpack_spec word.toBitVec).2 valid
  simp [Float.Model.pack, Float.Model.unpack, bits]

/-- Two doubles with the same parts are equal. -/
theorem eq_of_unpack_eq {x y : Float} (same : x.toModel.unpack = y.toModel.unpack) : x = y := by
  obtain ⟨xModel⟩ := x
  obtain ⟨yModel⟩ := y
  rw [← pack_unpack xModel, ← pack_unpack yModel]
  exact congrArg (fun parts => Float.ofModel (Float.Model.pack parts)) same

/-- Parts that fit the format are those of a double. -/
theorem unpack_pack {parts : UnpackedFloat} (canonical : IsCanonical parts) :
    (Float.Model.pack parts).unpack = parts := by
  change unpack Format.binary64 (pack Format.binary64 parts) = parts
  cases parts with
  | notANumber =>
      rfl
  | infinity sign =>
      cases sign <;> rfl
  | zero sign =>
      cases sign <;> rfl
  | finite sign mantissa exponent positive =>
      obtain ⟨_, bounded, ⟨log, least⟩ | ⟨log, rfl⟩⟩ := (fitsFormat_iff _ _).mp canonical
      · obtain ⟨atLeast, below⟩ := (Nat.log2_eq_iff (by omega)).mp log
        rw [pack_normal sign mantissa exponent positive log least bounded]
        generalize isBiased : (exponent + 1075).toNat = biased
        have value : (BitVec.ofNat 11 biased).toNat = biased := by
          rw [BitVec.toNat_ofNat]
          omega
        have notTop : ¬ BitVec.ofNat 11 biased = -1#11 := by
          intro isTop
          have isMax : biased = 2047 := value.symm.trans (congrArg BitVec.toNat isTop)
          omega
        have notLeast : ¬ BitVec.ofNat 11 biased = 0#11 := by
          intro isLeast
          have isZero : biased = 0 := value.symm.trans (congrArg BitVec.toNat isLeast)
          omega
        have fraction : (1#1 ++ BitVec.ofNat 52 mantissa).toNat = mantissa := by
          rw [toNat_one_append, BitVec.toNat_ofNat]
          omega
        rw [unpack]
        simp only [unpackExponent_packComponents, unpackMantissa_packComponents,
          unpack_packComponents]
        rw [if_neg notTop, if_neg notLeast]
        simp only [fraction, value, UnpackedFloat.finite.injEq, true_and]
        change (biased : Int) - (1023 + 52) = exponent
        omega
      · have small : mantissa < 2 ^ 52 := (Nat.log2_lt (by omega)).mp log
        have value : (BitVec.ofNat 52 mantissa).toNat = mantissa := by
          rw [BitVec.toNat_ofNat, Nat.mod_eq_of_lt small]
        have nonzero : ¬ BitVec.ofNat 52 mantissa = 0#52 := by
          intro isZero
          have none : mantissa = 0 := value.symm.trans (congrArg BitVec.toNat isZero)
          omega
        rw [pack_subnormal sign mantissa positive small, unpack]
        simp only [unpackExponent_packComponents, unpackMantissa_packComponents,
          unpack_packComponents]
        rw [if_neg (by decide), if_pos trivial, dif_neg nonzero]
        simp only [value, UnpackedFloat.finite.injEq, true_and]
        rfl

theorem unpack_eq_notANumber_iff (x : Float) :
    x.toModel.unpack = .notANumber ↔ x.isNaN = true := by
  change _ ↔ x.toModel.unpack.isNaN = true
  cases x.toModel.unpack <;> simp [UnpackedFloat.isNaN]

theorem eq_notANumber_of_isNaN {x : Float} (isNaN : x.isNaN = true) : x = notANumber := by
  have nan : notANumber.isNaN = true := by
    decide +kernel
  exact eq_of_unpack_eq (((unpack_eq_notANumber_iff x).mpr isNaN).trans
    ((unpack_eq_notANumber_iff notANumber).mpr nan).symm)

theorem unpack_zero : (0 : Float).toModel.unpack = .zero .positive := rfl

theorem unpack_eq_infinity_iff (x : Float) :
    x.toModel.unpack = .infinity (if 0 < x then .positive else .negative) ↔ x.isInf = true := by
  change _ ↔ x.toModel.unpack.isInf = true
  have above : 0 < x ↔ UnpackedFloat.lt (.zero .positive) x.toModel.unpack = true := by
    rw [← unpack_zero]
    exact decide_eq_true_iff
  simp only [above]
  cases x.toModel.unpack with
  | infinity sign =>
      cases sign <;> simp [UnpackedFloat.isInf, UnpackedFloat.lt, UnpackedFloat.compare]
  | _ =>
      simp [UnpackedFloat.isInf]

theorem eq_infinity_of_isInf {x : Float} (isInf : x.isInf = true) :
    x = if 0 < x then infinity else negativeInfinity := by
  have unpacked := (unpack_eq_infinity_iff x).mpr isInf
  by_cases above : 0 < x
  · rw [if_pos above] at unpacked ⊢
    have limit := (unpack_eq_infinity_iff infinity).mpr (by decide +kernel)
    rw [if_pos (by decide +kernel)] at limit
    exact eq_of_unpack_eq (unpacked.trans limit.symm)
  · rw [if_neg above] at unpacked ⊢
    have limit := (unpack_eq_infinity_iff negativeInfinity).mpr (by decide +kernel)
    rw [if_neg (by decide +kernel)] at limit
    exact eq_of_unpack_eq (unpacked.trans limit.symm)

end InSitu.Number
