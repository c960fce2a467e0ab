import Mathlib
import TorusAutomaton.Proofs.Decimal.Basins
import TorusAutomaton.Proofs.Decimal.Positional

/-!
# Decimals read back

The text that a number is written as is read as that number. Its digits and its point are those of
the shortest decimal, which lies in the basin of the number, so it is rounded to the number again;
sign, zero, infinity and what is not a number are told by the text itself.
-/

namespace TorusAutomaton.Decimal

open TorusAutomaton.Text
open Float.Model (UnpackedFloat Format)
open Float.Model.UnpackedFloat (unpackExponent unpackMantissa)

/-! ## Scientific notation -/

/-- The length of a number tells between which powers of ten it lies. -/
theorem length_ofNat_bounds {n : ℕ} (hn : 0 < n) :
    10 ^ ((Numeral.ofNat n).length - 1) ≤ n ∧ n < 10 ^ (Numeral.ofNat n).length := by
  have hlength : 0 < (Numeral.ofNat n).length := Nat.length_toDigits_pos
  constructor
  · by_contra hlt
    rw [not_le] at hlt
    rcases Nat.eq_zero_or_pos ((Numeral.ofNat n).length - 1) with hone | hmore
    · rw [hone] at hlt
      omega
    · have := (Nat.length_toDigits_le_iff (by decide) hmore).mpr hlt
      have : (Numeral.ofNat n).length ≤ (Numeral.ofNat n).length - 1 := this
      omega
  · exact (Nat.length_toDigits_le_iff (by decide) hlength).mp (Nat.le_refl _)

/-- A decimal in the basin of a number is read as that number. -/
theorem bitsOfScientific_of_holds {bits digits : ℕ} {exponent : ℤ} (hpos : 0 < bits)
    (hfinite : bits < infinityBits)
    (hv : (Basin.ofBits bits).Holds (digits * 10 ^ exponent)) :
    bitsOfScientific digits exponent = bits := by
  obtain ⟨n, q, h⟩ := exists_units hpos hfinite
  obtain ⟨hlow, hhigh⟩ := h.range hv
  have hdigits : 0 < digits := by
    rcases Nat.eq_zero_or_pos digits with rfl | hdigits
    · have : (0 : ℚ) < 2 ^ (-1075 : ℤ) := by positivity
      rw [Nat.cast_zero, zero_mul] at hlow
      linarith
    · exact hdigits
  obtain ⟨hten, hten'⟩ := length_ofNat_bounds hdigits
  have hlength : 0 < (Numeral.ofNat digits).length := Nat.length_toDigits_pos
  generalize hl : (Numeral.ofNat digits).length = l at hten hten' hlength
  -- So many places before the point, or zeros after it, are never reached.
  have hsmall : ¬ (l + exponent : ℤ) < -330 := by
    intro hplaces
    have : (digits * 10 ^ exponent : ℚ) < 2 ^ (-1075 : ℤ) := by
      calc (digits * 10 ^ exponent : ℚ) < 10 ^ l * 10 ^ exponent := by
            gcongr
            exact_mod_cast hten'
        _ = 10 ^ (l + exponent) := by rw [← zpow_natCast, ← zpow_add₀ (by norm_num)]
        _ ≤ 10 ^ (-((331 : ℕ) : ℤ)) := zpow_le_zpow_right₀ (by norm_num) (by omega)
        _ ≤ 2 ^ (-((1075 : ℕ) : ℤ)) := ten_zpow_neg_le (by decide)
    linarith
  have hlarge : ¬ 310 < (l + exponent : ℤ) := by
    intro hplaces
    have : (2 ^ (1024 : ℤ) : ℚ) ≤ digits * 10 ^ exponent := by
      calc (2 ^ (1024 : ℤ) : ℚ) = 2 ^ 1024 := zpow_ofNat 2 1024
        _ ≤ 10 ^ 310 := two_pow_le_ten_pow (by decide)
        _ = 10 ^ (310 : ℤ) := (zpow_ofNat 10 310).symm
        _ ≤ 10 ^ ((l - 1 : ℕ) + exponent) := zpow_le_zpow_right₀ (by norm_num) (by omega)
        _ = 10 ^ (l - 1) * 10 ^ exponent := by rw [← zpow_natCast, ← zpow_add₀ (by norm_num)]
        _ ≤ digits * 10 ^ exponent := by
            gcongr
            exact_mod_cast hten
    linarith
  have hpow : (0 : ℕ) < 10 ^ (-exponent).toNat := by positivity
  have hquot : (digits * 10 ^ exponent : ℚ) =
      (digits * 10 ^ exponent.toNat : ℕ) / (10 ^ (-exponent).toNat : ℕ) := by
    push_cast
    rw [pow_toNat (by norm_num : (10 : ℚ) ≠ 0) exponent]
    field_simp
  unfold bitsOfScientific
  simp only [hl, hdigits.ne', hsmall, hlarge, decide_false, Bool.or_self, Bool.false_eq_true,
    if_false, Nat.pow_eq]
  rw [hquot] at hv
  exact nearestBits_of_holds hpos hfinite (by positivity) hpow hv

/-! ## Digits and points -/

theorem readUnsigned_whole {t : Text} (h : Numeral.IsDigits t) :
    readUnsigned t = some (bitsOfScientific (digitsValue t) 0) := by
  have htake : t.takeWhile Char.isDigit = t := List.takeWhile_eq_self_iff.mpr h.2
  have hdrop : t.dropWhile Char.isDigit = [] := List.dropWhile_eq_nil_iff.mpr h.2
  simp [readUnsigned, htake, hdrop, h.1, readExponent]

theorem readUnsigned_point {whole fraction : Text} (hwhole : Numeral.IsDigits whole)
    (hfraction : ∀ c ∈ fraction, c.isDigit = true) :
    readUnsigned (whole ++ '.' :: fraction) =
      some (bitsOfScientific (digitsValue (whole ++ fraction)) (-fraction.length)) := by
  have htake : (whole ++ '.' :: fraction).takeWhile Char.isDigit = whole := by
    rw [List.takeWhile_append_of_pos hwhole.2]
    simp
  have hdrop : (whole ++ '.' :: fraction).dropWhile Char.isDigit = '.' :: fraction := by
    rw [List.dropWhile_append_of_pos hwhole.2]
    simp
  have htake' : fraction.takeWhile Char.isDigit = fraction := List.takeWhile_eq_self_iff.mpr hfraction
  have hdrop' : fraction.dropWhile Char.isDigit = [] := List.dropWhile_eq_nil_iff.mpr hfraction
  simp [readUnsigned, htake, hdrop, htake', hdrop', hwhole.1, readExponent]

/-- Digits in positional notation are read as the number they write. -/
theorem readUnsigned_positional {bits digits : ℕ} {place : ℤ} (hpos : 0 < bits)
    (hfinite : bits < infinityBits)
    (hv : (Basin.ofBits bits).Holds (digits * 10 ^ place)) :
    readUnsigned (positional digits place) = some bits := by
  by_cases hplace : 0 ≤ place
  · obtain ⟨hall, hvalue⟩ := positional_whole digits hplace
    rw [readUnsigned_whole hall, hvalue]
    congr 1
    apply bitsOfScientific_of_holds hpos hfinite
    push_cast
    rwa [mul_one, ← zpow_natCast, Int.toNat_of_nonneg hplace]
  · obtain ⟨whole, fraction, ht, hwhole, hfraction, hvalue, hlength⟩ :=
      positional_point digits hplace
    rw [ht, readUnsigned_point hwhole hfraction, hvalue, hlength, neg_neg]
    exact congrArg some (bitsOfScientific_of_holds hpos hfinite hv)

/-! ## Signs and words -/

/-- The bits of a text without a sign. -/
def readMagnitude (t : Text) : Option ℕ :=
  let word := t.map Char.toLower
  if word = "inf".toList || word = "infinity".toList then some infinityBits
  else if word = "nan".toList then some (infinityBits + leadingBit / 2)
  else readUnsigned t

theorem map_readMagnitude (negative : Bool) (t : Text) :
    (readMagnitude t).map (ofBits negative) =
      if t.map Char.toLower = "inf".toList || t.map Char.toLower = "infinity".toList then
        some (ofBits negative infinityBits)
      else if t.map Char.toLower = "nan".toList then
        some (ofBits negative (infinityBits + leadingBit / 2))
      else (readUnsigned t).map (ofBits negative) := by
  unfold readMagnitude
  dsimp only
  split
  · rfl
  · split <;> rfl

/-- A sign is written for negative numbers only, and what follows it is read without it. -/
theorem read_sign (negative : Bool) {t : Text} (hminus : t.head? ≠ some '-')
    (hplus : t.head? ≠ some '+') :
    read ((if negative then ['-'] else []) ++ t) = (readMagnitude t).map (ofBits negative) := by
  rw [map_readMagnitude]
  cases negative with
  | true => rfl
  | false =>
      show read t = _
      unfold read
      split
      rename_i negative body hsplit
      split at hsplit
      · exact absurd rfl hminus
      · exact absurd rfl hplus
      · cases hsplit
        rfl

theorem readMagnitude_digit {c : Char} (hc : c.isDigit = true) (rest : Text) :
    readMagnitude (c :: rest) = readUnsigned (c :: rest) := by
  have hletters : ∀ d : Fin 10, (Nat.digitChar d).toLower ≠ 'i' ∧ (Nat.digitChar d).toLower ≠ 'n' := by
    decide
  obtain ⟨d, rfl⟩ := Numeral.isDigit_iff.mp hc
  obtain ⟨hi, hn⟩ := hletters d
  simp [readMagnitude, hi, hn]

/-! ## Whole texts -/

/-- A number is told by its sign bit and the bits below it. -/
theorem ofBits_parts (x : Float) :
    ofBits (decide (x.toBits.toNat / signBit = 1)) (x.toBits.toNat % signBit) = x := by
  have hparts := Nat.div_add_mod x.toBits.toNat signBit
  have hdiv : x.toBits.toNat / signBit < 2 := by
    rw [Nat.div_lt_iff_lt_mul (by decide)]
    exact x.toBits.toNat_lt
  have hbits : (if decide (x.toBits.toNat / signBit = 1) then
      signBit + x.toBits.toNat % signBit else x.toBits.toNat % signBit) = x.toBits.toNat := by
    by_cases hone : x.toBits.toNat / signBit = 1
    · simpa [hone] using hparts
    · have hzero : x.toBits.toNat / signBit = 0 :=
        Nat.lt_one_iff.mp (Nat.lt_of_le_of_ne (Nat.le_of_lt_succ hdiv) hone)
      simpa [hzero] using hparts
  rw [ofBits, hbits, UInt64.ofNat_toNat, Float.ofBits_toBits]

/-- What is not a number has one pattern of bits. -/
theorem toNat_toBits_of_nan {x : Float} (h : infinityBits < x.toBits.toNat % signBit) :
    x.toBits.toNat = infinityBits + leadingBit / 2 := by
  obtain ⟨⟨bits, hvalid⟩⟩ := x
  have hbits : infinityBits < bits.toNat % signBit := h
  have hlt : bits.toNat < 2 ^ 64 := bits.toNat_lt
  have hexponent : @unpackExponent Format.binary64 bits.toBitVec = -1#_ := by
    apply BitVec.eq_of_toNat_eq
    simp only [unpackExponent, BitVec.toNat_cast, BitVec.extractLsb_toNat,
      Nat.shiftRight_eq_div_pow, UInt64.toNat_toBitVec]
    show bits.toNat / 2 ^ 52 % 2 ^ 11 = 2047
    unfold infinityBits signBit at hbits
    omega
  have hmantissa : @unpackMantissa Format.binary64 bits.toBitVec ≠ 0#_ := by
    intro hzero
    have hzero := congrArg BitVec.toNat hzero
    simp only [unpackMantissa, BitVec.toNat_cast, BitVec.extractLsb_toNat,
      Nat.shiftRight_eq_div_pow, UInt64.toNat_toBitVec, Nat.pow_zero, Nat.div_one] at hzero
    have hzero : bits.toNat % 2 ^ 52 = 0 := hzero
    unfold infinityBits signBit at hbits
    omega
  have hnan := congrArg BitVec.toNat (hvalid.eq_packedNaN hexponent hmantissa)
  exact hnan

/-- **Whatever a number is written as is read as that number**, with its sign also if it is zero. -/
theorem read_render (x : Float) : read (render x) = some x := by
  have hparts := ofBits_parts x
  unfold render
  dsimp only
  have hsign : (if x.toBits.toNat / signBit = 1 then ['-'] else [] : Text) =
      if decide (x.toBits.toNat / signBit = 1) then ['-'] else [] := by
    simp only [decide_eq_true_eq]
  rw [hsign]
  generalize decide (x.toBits.toNat / signBit = 1) = negative at hparts
  by_cases hnan : infinityBits < x.toBits.toNat % signBit
  · rw [if_pos hnan]
    have hbits := toNat_toBits_of_nan hnan
    show some (Float.ofBits (UInt64.ofNat (infinityBits + leadingBit / 2))) = some x
    rw [← hbits, UInt64.ofNat_toNat, Float.ofBits_toBits]
  · rw [if_neg hnan]
    generalize x.toBits.toNat % signBit = magnitude at hparts hnan
    by_cases hinf : magnitude = infinityBits
    · rw [if_pos hinf, read_sign _ (by decide) (by decide), ← hparts, hinf]
      rfl
    · rw [if_neg hinf]
      by_cases hzero : magnitude = 0
      · rw [if_pos hzero, read_sign _ (by decide) (by decide), ← hparts, hzero]
        rfl
      · rw [if_neg hzero]
        have hpos := Nat.pos_of_ne_zero hzero
        have hfinite : magnitude < infinityBits := by omega
        obtain ⟨c, place, hshortest, hholds⟩ := shortest_spec hpos hfinite
        obtain ⟨d, rest, htext, hd⟩ := head_positional c place
        have hminus : d ≠ '-' := by
          rintro rfl
          cases hd
        have hplus : d ≠ '+' := by
          rintro rfl
          cases hd
        have hread := readUnsigned_positional hpos hfinite hholds
        rw [hshortest]
        dsimp only
        rw [htext] at hread ⊢
        rw [read_sign _ (by simpa using hminus) (by simpa using hplus), readMagnitude_digit hd, hread,
          ← hparts]
        rfl

end TorusAutomaton.Decimal
