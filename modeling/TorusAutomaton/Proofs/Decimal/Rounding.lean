import Mathlib.Algebra.Order.Field.Power
import Mathlib.Data.Int.Log
import Mathlib.Data.Rat.Floor
import Mathlib.Tactic.FieldSimp
import Mathlib.Tactic.GCongr
import Mathlib.Tactic.Linarith
import Mathlib.Tactic.NormNum
import Mathlib.Tactic.Positivity
import Mathlib.Tactic.Ring
import TorusAutomaton.Decimal.Shortest

/-!
# Rounding to the nearest double

A fraction is divided by the unit of its last place and the quotient is rounded to a whole number.
Every fraction in the basin of a number is rounded to that number: in the same place, or, just below
a power of two, in the place below it, where the rounding carries over.
-/

namespace TorusAutomaton.Decimal

variable {num den n : ℕ} {q : ℤ}

/-! ## Whole numbers -/

/-- A quotient is rounded to a number that it is at most a half away from, and to an even one if it
is just a half away. -/
theorem roundHalfEven_eq (hden : 0 < den) (hlow : 2 * n * den ≤ 2 * num + den)
    (hhigh : 2 * num ≤ 2 * n * den + den)
    (hends : n % 2 = 0 ∨ 2 * n * den < 2 * num + den ∧ 2 * num < 2 * n * den + den) :
    roundHalfEven num den = n := by
  have hdiv := Nat.div_add_mod num den
  have hmod := Nat.mod_lt num hden
  unfold roundHalfEven
  generalize num / den = k at hdiv ⊢
  generalize num % den = r at hdiv hmod ⊢
  obtain rfl : num = den * k + r := hdiv.symm
  have hle : k ≤ n := by
    by_contra hlt
    have hstep : den * (n + 1) ≤ den * k := Nat.mul_le_mul_left den (by omega)
    nlinarith
  have hge : n ≤ k + 1 := by
    by_contra hlt
    have hstep : den * (k + 2) ≤ den * n := Nat.mul_le_mul_left den (by omega)
    nlinarith
  rcases Nat.lt_or_ge k n with hlt | hge'
  · -- The quotient is the next number below, so the rest is a half or more.
    obtain rfl : n = k + 1 := by omega
    have hrest : den ≤ 2 * r := by nlinarith
    rw [if_neg]
    intro h
    simp only [Bool.or_eq_true, decide_eq_true_eq, Bool.and_eq_true, beq_iff_eq] at h
    rcases h with hless | ⟨hhalf, heven⟩
    · omega
    · rcases hends with hends | ⟨hends, _⟩
      · omega
      · nlinarith
  · obtain rfl : n = k := by omega
    have hrest : 2 * r ≤ den := by nlinarith
    rw [if_pos]
    simp only [Bool.or_eq_true, decide_eq_true_eq, Bool.and_eq_true, beq_iff_eq]
    rcases Nat.lt_or_eq_of_le hrest with hless | hhalf
    · exact .inl hless
    · refine .inr ⟨hhalf, ?_⟩
      rcases hends with hends | ⟨_, hends⟩
      · exact hends
      · nlinarith

/-! ## Fractions in units of a power of two -/

/-- A power with an integer exponent, told by two with natural ones. -/
theorem pow_toNat {base : ℚ} (hbase : base ≠ 0) (i : ℤ) :
    base ^ i.toNat = base ^ i * base ^ (-i).toNat := by
  rw [← zpow_natCast, ← zpow_natCast, ← zpow_add₀ hbase]
  congr 1
  omega

/-- Ten to the 28 exceeds two to the 93, which is close enough to compare other powers by it. -/
theorem two_pow_le_ten_pow {m k : ℕ} (h : 28 * m ≤ 93 * k) : (2 : ℚ) ^ m ≤ 10 ^ k := by
  apply le_of_pow_le_pow_left₀ (n := 93) (by decide) (by positivity)
  calc ((2 : ℚ) ^ m) ^ 93 = (2 ^ 93) ^ m := by rw [← pow_mul, ← pow_mul, mul_comm]
    _ ≤ (10 ^ 28) ^ m := by
        gcongr
        norm_num
    _ = 10 ^ (28 * m) := (pow_mul _ _ _).symm
    _ ≤ 10 ^ (93 * k) := pow_le_pow_right₀ (by norm_num) h
    _ = (10 ^ k) ^ 93 := by rw [← pow_mul, mul_comm]

theorem ten_zpow_neg_le {m k : ℕ} (h : 28 * m ≤ 93 * k) :
    (10 : ℚ) ^ (-(k : ℤ)) ≤ 2 ^ (-(m : ℤ)) := by
  rw [zpow_neg, zpow_neg, zpow_natCast, zpow_natCast]
  exact inv_anti₀ (by positivity) (two_pow_le_ten_pow h)

theorem shiftLeft_pos {a : ℕ} (ha : 0 < a) (k : ℕ) : 0 < a <<< k := by
  rw [Nat.shiftLeft_eq]
  exact Nat.mul_pos ha (Nat.pow_pos (by decide))

/-- Numerator and denominator are shifted against each other to divide by a power of two. -/
theorem cast_shift (num : ℕ) (hden : 0 < den) (q : ℤ) :
    ((num <<< (-q).toNat : ℕ) : ℚ) = num / den / 2 ^ q * (den <<< q.toNat : ℕ) := by
  have hden' : (den : ℚ) ≠ 0 := by exact_mod_cast hden.ne'
  have hpow := pow_toNat (two_ne_zero (α := ℚ)) q
  rw [Nat.shiftLeft_eq, Nat.shiftLeft_eq]
  push_cast
  rw [hpow]
  field_simp

theorem shift_lt_iff (hden : 0 < den) (bound : ℕ) :
    num <<< (-q).toNat < bound * (den <<< q.toNat) ↔ (num / den : ℚ) < bound * 2 ^ q := by
  have hshift : (0 : ℚ) < (den <<< q.toNat : ℕ) := by exact_mod_cast shiftLeft_pos hden _
  have hpow : (0 : ℚ) < 2 ^ q := by positivity
  rw [← Nat.cast_lt (α := ℚ), Nat.cast_mul, cast_shift num hden q, mul_lt_mul_iff_left₀ hshift,
    div_lt_iff₀ hpow]

/-- The quotient in units of the last place decides what it is rounded to. -/
theorem roundHalfEven_shift (hden : 0 < den) (hlow : (n - 1 / 2) * 2 ^ q ≤ (num / den : ℚ))
    (hhigh : (num / den : ℚ) ≤ (n + 1 / 2) * 2 ^ q)
    (hends : n % 2 = 0 ∨
      (n - 1 / 2) * 2 ^ q < (num / den : ℚ) ∧ (num / den : ℚ) < (n + 1 / 2) * 2 ^ q) :
    roundHalfEven (num <<< (-q).toNat) (den <<< q.toNat) = n := by
  have hshift : (0 : ℚ) < (den <<< q.toNat : ℕ) := by exact_mod_cast shiftLeft_pos hden _
  have hpow : (0 : ℚ) < 2 ^ q := by positivity
  have hnum := cast_shift num hden q
  generalize (num / den : ℚ) = v at hlow hhigh hends hnum
  generalize hw : v / 2 ^ q = w at hnum
  obtain rfl : v = w * 2 ^ q := by rw [← hw, div_mul_cancel₀ _ hpow.ne']
  simp only [mul_le_mul_iff_left₀ hpow, mul_lt_mul_iff_left₀ hpow] at hlow hhigh hends
  generalize num <<< (-q).toNat = a at hnum ⊢
  generalize den <<< q.toNat = b at hshift hnum ⊢
  apply roundHalfEven_eq (by exact_mod_cast hshift)
  · have : (2 * n * b : ℚ) ≤ 2 * a + b := by rw [hnum]; nlinarith
    exact_mod_cast this
  · have : (2 * a : ℚ) ≤ 2 * n * b + b := by rw [hnum]; nlinarith
    exact_mod_cast this
  · rcases hends with heven | ⟨hlow, hhigh⟩
    · exact .inl heven
    · refine .inr ⟨?_, ?_⟩
      · have : (2 * n * b : ℚ) < 2 * a + b := by rw [hnum]; nlinarith
        exact_mod_cast this
      · have : (2 * a : ℚ) < 2 * n * b + b := by rw [hnum]; nlinarith
        exact_mod_cast this

/-! ## The place of the last bit -/

theorem cast_leadingBit : (leadingBit : ℚ) = 2 ^ (52 : ℤ) := by norm_num [leadingBit]

theorem two_zpow_le_iff {v : ℚ} (hv : 0 < v) {k : ℤ} : 2 ^ k ≤ v ↔ k ≤ Int.log 2 v := by
  rw [← Int.zpow_le_iff_le_log (b := 2) (by decide) hv, Nat.cast_ofNat]

theorem lt_two_zpow_iff {v : ℚ} (hv : 0 < v) {k : ℤ} : v < 2 ^ k ↔ Int.log 2 v < k := by
  rw [← Int.lt_zpow_iff_log_lt (b := 2) (by decide) hv, Nat.cast_ofNat]

/-- A quotient lies between the powers of two that the lengths of its parts tell. -/
theorem div_bounds (hnum : 0 < num) (hden : 0 < den) :
    (2 : ℚ) ^ ((num.log2 : ℤ) - den.log2 - 1) ≤ num / den ∧
      (num / den : ℚ) < 2 ^ ((num.log2 : ℤ) - den.log2 + 1) := by
  have hden' : (0 : ℚ) < den := by exact_mod_cast hden
  have hnumLow : (2 : ℚ) ^ num.log2 ≤ num := by exact_mod_cast Nat.log2_self_le hnum.ne'
  have hnumHigh : (num : ℚ) < 2 ^ (num.log2 + 1) := by exact_mod_cast Nat.lt_log2_self
  have hdenLow : (2 : ℚ) ^ den.log2 ≤ den := by exact_mod_cast Nat.log2_self_le hden.ne'
  have hdenHigh : (den : ℚ) < 2 ^ (den.log2 + 1) := by exact_mod_cast Nat.lt_log2_self
  constructor
  · rw [le_div_iff₀ hden']
    calc (2 : ℚ) ^ ((num.log2 : ℤ) - den.log2 - 1) * den
        ≤ 2 ^ ((num.log2 : ℤ) - den.log2 - 1) * 2 ^ (den.log2 + 1) := by gcongr
      _ = 2 ^ num.log2 := by
          rw [← zpow_natCast, ← zpow_natCast, ← zpow_add₀ two_ne_zero]
          congr 1
          push_cast
          ring
      _ ≤ num := hnumLow
  · rw [div_lt_iff₀ hden']
    calc (num : ℚ) < 2 ^ (num.log2 + 1) := hnumHigh
      _ = 2 ^ ((num.log2 : ℤ) - den.log2 + 1) * 2 ^ den.log2 := by
          rw [← zpow_natCast, ← zpow_natCast, ← zpow_add₀ two_ne_zero]
          congr 1
          push_cast
          ring
      _ ≤ 2 ^ ((num.log2 : ℤ) - den.log2 + 1) * den := by gcongr

/-- **The last place** of a quotient leaves 53 bits for it, unless that is below the format. -/
theorem lastPlace_eq (hnum : 0 < num) (hden : 0 < den) :
    lastPlace num den = max (Int.log 2 (num / den : ℚ) - 52) (-1074) := by
  have hpos : (0 : ℚ) < num / den := by positivity
  obtain ⟨hlow, hhigh⟩ := div_bounds hnum hden
  rw [two_zpow_le_iff hpos] at hlow
  rw [lt_two_zpow_iff hpos] at hhigh
  have hshort : num <<< (-((num.log2 : ℤ) - den.log2 - 52)).toNat <
      leadingBit * (den <<< ((num.log2 : ℤ) - den.log2 - 52).toNat) ↔
      Int.log 2 (num / den : ℚ) < (num.log2 : ℤ) - den.log2 := by
    rw [shift_lt_iff hden, cast_leadingBit, ← zpow_add₀ two_ne_zero, add_sub_cancel,
      lt_two_zpow_iff hpos]
  unfold lastPlace
  dsimp only
  split
  · rename_i h
    rw [hshort] at h
    omega
  · rename_i h
    rw [hshort] at h
    omega

end TorusAutomaton.Decimal
