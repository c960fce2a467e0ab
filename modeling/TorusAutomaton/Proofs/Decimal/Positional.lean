import Mathlib.Algebra.Group.Nat.Defs
import TorusAutomaton.Decimal.Shortest
import TorusAutomaton.Proofs.Text.Numerals

/-!
# Positional notation

Digits and a place are written as digits only, with zeros behind them, or as digits with a point
among them and zeros in front. There is always a digit before the point, and without the point the
digits are those that were to be written.
-/

namespace TorusAutomaton.Decimal

open TorusAutomaton.Text

variable {place : Int}

theorem digitsValue_append_zeros (n k : Nat) :
    digitsValue (Numeral.ofNat n ++ List.replicate k '0') = n * 10 ^ k := by
  show Nat.ofDigitChars 10 (Numeral.ofNat n ++ List.replicate k '0') 0 = n * 10 ^ k
  rw [Nat.ofDigitChars_append, Nat.ofDigitChars_replicate_zero, Nat.mul_comm]
  congr 1
  exact Numeral.value_ofNat n

theorem digitsValue_zeros_append (n k : Nat) :
    digitsValue (List.replicate k '0' ++ Numeral.ofNat n) = n := by
  show Nat.ofDigitChars 10 (List.replicate k '0' ++ Numeral.ofNat n) 0 = n
  rw [Nat.ofDigitChars_append, Nat.ofDigitChars_replicate_zero, Nat.mul_zero]
  exact Numeral.value_ofNat n

theorem isDigit_zeros (k : Nat) : ∀ c ∈ List.replicate k '0', c.isDigit = true := by
  intro c hc
  rw [List.eq_of_mem_replicate hc]
  rfl

/-- At or above the place of ones no point is written. -/
theorem positional_whole (digits : Nat) (hplace : 0 ≤ place) :
    Numeral.IsDigits (positional digits place) ∧
      digitsValue (positional digits place) = digits * 10 ^ place.toNat := by
  have hdigits := Numeral.isDigits_ofNat digits
  rw [positional, if_pos hplace]
  refine ⟨⟨List.append_ne_nil_of_left_ne_nil hdigits.1 _, ?_⟩, digitsValue_append_zeros digits _⟩
  intro c hc
  exact (List.mem_append.mp hc).elim (hdigits.2 c) (isDigit_zeros _ c)

/-- Below the place of ones a point is written with as many digits after it as there are places. -/
theorem positional_point (digits : Nat) (hplace : ¬ 0 ≤ place) :
    ∃ whole fraction, positional digits place = whole ++ '.' :: fraction ∧
      Numeral.IsDigits whole ∧ (∀ c ∈ fraction, c.isDigit = true) ∧
      digitsValue (whole ++ fraction) = digits ∧ (fraction.length : Int) = -place := by
  have hdigits := Numeral.isDigits_ofNat digits
  have hafter : (((-place).toNat : Nat) : Int) = -place := Int.toNat_of_nonneg (by omega)
  unfold positional
  rw [if_neg hplace]
  dsimp only
  generalize (-place).toNat = after at hafter
  -- With the zeros in front there is at least one digit before the point.
  generalize ht : List.replicate (after + 1 - (Numeral.ofNat digits).length) '0' ++
    Numeral.ofNat digits = t
  have hlength : after < t.length := by
    rw [← ht, List.length_append, List.length_replicate]
    omega
  have hall : ∀ c ∈ t, c.isDigit = true := by
    rw [← ht]
    intro c hc
    exact (List.mem_append.mp hc).elim (isDigit_zeros _ c) (hdigits.2 c)
  refine ⟨_, _, rfl, ⟨?_, fun c hc => hall c (List.mem_of_mem_take hc)⟩,
    fun c hc => hall c (List.mem_of_mem_drop hc), ?_, ?_⟩
  · rw [← List.length_pos_iff, List.length_take]
    omega
  · rw [List.take_append_drop, ← ht, digitsValue_zeros_append]
  · rw [List.length_drop]
    omega

theorem head_of_isDigits {t : Text} (ht : Numeral.IsDigits t) (rest : Text) :
    ∃ c tail, t ++ rest = c :: tail ∧ c.isDigit = true := by
  obtain ⟨c, tail, rfl⟩ := List.exists_cons_of_ne_nil ht.1
  exact ⟨c, tail ++ rest, rfl, ht.2 c List.mem_cons_self⟩

/-- The first character is a digit. -/
theorem head_positional (digits : Nat) (place : Int) :
    ∃ c rest, positional digits place = c :: rest ∧ c.isDigit = true := by
  by_cases hplace : 0 ≤ place
  · have hhead := head_of_isDigits (positional_whole digits hplace).1 []
    rwa [List.append_nil] at hhead
  · obtain ⟨whole, fraction, ht, hwhole, -⟩ := positional_point digits hplace
    rw [ht]
    exact head_of_isDigits hwhole _

end TorusAutomaton.Decimal
