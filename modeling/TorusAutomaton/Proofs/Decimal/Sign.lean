import Mathlib
import TorusAutomaton.Proofs.Decimal.Positional

/-!
# Signs of written decimals

A number that is not below zero is written without a sign, unless it is the negative zero: that one
is equal to zero, but keeps its sign bit, and the sign is written.
-/

namespace TorusAutomaton.Decimal

open TorusAutomaton.Text
open Float.Model (UnpackedFloat Format)
open Float.Model.UnpackedFloat (Sign unpackSign unpackExponent unpackMantissa)

/-! ## Bits -/

/-- The sign of a number; what is not a number has none. -/
def signOf : UnpackedFloat → Option Sign
  | .infinity s | .zero s | .finite s _ _ _ => some s
  | .notANumber => none

theorem signOf_unpack {b : BitVec 64} (h : b.toNat / signBit = 1) :
    signOf (UnpackedFloat.unpack Format.binary64 b) = some .negative ∨
      UnpackedFloat.unpack Format.binary64 b = .notANumber := by
  have hsign : @unpackSign Format.binary64 b = 1#1 := by
    apply BitVec.eq_of_toNat_eq
    change ((b.extractLsb 63 63).cast _).toNat = _
    rw [BitVec.toNat_cast, BitVec.extractLsb_toNat, Nat.shiftRight_eq_div_pow]
    change b.toNat / signBit % 2 = 1
    rw [h]
  have hnegative : Sign.ofBitVec (@unpackSign Format.binary64 b) = .negative := by
    rw [hsign]
    rfl
  have hsome : some (Sign.ofBitVec (@unpackSign Format.binary64 b)) = some .negative :=
    congrArg some hnegative
  unfold UnpackedFloat.unpack
  dsimp only
  by_cases hlast : @unpackExponent Format.binary64 b = -1#_
  · rw [if_pos hlast]
    by_cases hmantissa : @unpackMantissa Format.binary64 b = 0#_
    · rw [if_pos hmantissa]
      exact .inl hsome
    · rw [if_neg hmantissa]
      exact .inr rfl
  · rw [if_neg hlast]
    by_cases hfirst : @unpackExponent Format.binary64 b = 0#_
    · rw [if_pos hfirst]
      by_cases hmantissa : @unpackMantissa Format.binary64 b = 0#_
      · rw [dif_pos hmantissa]
        exact .inl hsome
      · rw [dif_neg hmantissa]
        exact .inl hsome
    · rw [if_neg hfirst]
      exact .inl hsome

/-- Among the bit patterns with the sign bit only one is a zero. -/
theorem toNat_of_unpack_zero {b : BitVec 64} {s : Sign} (h : b.toNat / signBit = 1)
    (hzero : UnpackedFloat.unpack Format.binary64 b = .zero s) : b.toNat = signBit := by
  unfold UnpackedFloat.unpack at hzero
  dsimp only at hzero
  by_cases hlast : @unpackExponent Format.binary64 b = -1#_
  · rw [if_pos hlast] at hzero
    by_cases hmantissa : @unpackMantissa Format.binary64 b = 0#_
    · rw [if_pos hmantissa] at hzero
      cases hzero
    · rw [if_neg hmantissa] at hzero
      cases hzero
  · rw [if_neg hlast] at hzero
    by_cases hfirst : @unpackExponent Format.binary64 b = 0#_
    · rw [if_pos hfirst] at hzero
      by_cases hmantissa : @unpackMantissa Format.binary64 b = 0#_
      · -- No bit but the sign bit is left.
        have hexponent := congrArg BitVec.toNat hfirst
        have hmantissa := congrArg BitVec.toNat hmantissa
        simp only [unpackExponent, unpackMantissa, BitVec.toNat_cast, BitVec.extractLsb_toNat,
          BitVec.toNat_ofNat, Nat.shiftRight_eq_div_pow] at hexponent hmantissa
        unfold signBit at h ⊢
        omega
      · rw [dif_neg hmantissa] at hzero
        cases hzero
    · rw [if_neg hfirst] at hzero
      cases hzero

/-- What is not below zero is a zero of either sign or has the positive sign. -/
theorem zero_or_positive_of_nonneg {x : Float} (h : 0 ≤ x) :
    x.toModel.unpack = .zero .negative ∨ signOf x.toModel.unpack = some .positive := by
  have hzero : (0 : Float).toModel.unpack = .zero .positive := rfl
  have hle : Float.le 0 x = true := h
  have hle : (0 : Float).toModel.unpack.le x.toModel.unpack = true :=
    of_decide_eq_true (p := (0 : Float).toModel ≤ x.toModel) hle
  rw [hzero] at hle
  -- Zero is below no negative number, and nothing compares with what is not a number.
  cases hx : x.toModel.unpack with
  | infinity s =>
      rw [hx] at hle
      cases s with
      | positive => exact .inr rfl
      | negative => cases hle
  | notANumber =>
      rw [hx] at hle
      cases hle
  | zero s =>
      cases s with
      | positive => exact .inr rfl
      | negative => exact .inl rfl
  | finite s =>
      rw [hx] at hle
      cases s with
      | positive => exact .inr rfl
      | negative => cases hle

theorem sign_bit_of_nonneg {x : Float} (h : 0 ≤ x) (hx : x ≠ -0.0) :
    x.toBits.toNat / signBit ≠ 1 := by
  intro hbit
  have hunpack : x.toModel.unpack = UnpackedFloat.unpack Format.binary64 x.toBits.toBitVec := rfl
  rcases zero_or_positive_of_nonneg h with hzero | hpositive
  · apply hx
    apply Float.toBits_inj.mp
    apply UInt64.toNat_inj.mp
    rw [hunpack] at hzero
    have hbits : x.toBits.toNat = signBit := toNat_of_unpack_zero hbit hzero
    rw [hbits]
    decide +kernel
  · rw [hunpack] at hpositive
    rcases signOf_unpack (b := x.toBits.toBitVec) hbit with hnegative | hnan
    · rw [hnegative] at hpositive
      cases hpositive
    · rw [hnan] at hpositive
      cases hpositive

/-! ## Text -/

/-- A number that is not below zero is written without a sign, unless it is the negative zero. -/
theorem head?_render_of_nonneg {x : Float} (h : 0 ≤ x) (hx : x ≠ -0.0) :
    (render x).head? ≠ some '-' := by
  have hsign := sign_bit_of_nonneg h hx
  intro hhead
  simp only [render, if_neg hsign, List.nil_append] at hhead
  split at hhead
  · cases hhead
  · split at hhead
    · cases hhead
    · split at hhead
      · cases hhead
      · obtain ⟨c, rest, htext, hc⟩ :=
          head_positional (Basin.ofBits (x.toBits.toNat % signBit)).shortest.1
            (Basin.ofBits (x.toBits.toNat % signBit)).shortest.2
        rw [htext] at hhead
        cases hhead
        cases hc

end TorusAutomaton.Decimal
