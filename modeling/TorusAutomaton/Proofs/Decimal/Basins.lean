import TorusAutomaton.Proofs.Decimal.Rounding

/-!
# Basins

Every decimal in the basin of a number is rounded to that number, and the shortest decimal is one of
them: the grids are refined until there is a point in the basin, and before they come to an end they
are finer than any basin.
-/

namespace TorusAutomaton.Decimal

/-- A fraction lies in a basin, at an end of it only if that belongs to it. -/
structure Basin.Holds (b : Basin) (v : ℚ) : Prop where
  low : b.low * 2 ^ b.scale ≤ v
  high : v ≤ b.high * 2 ^ b.scale
  ends : b.closed = true ∨ b.low * 2 ^ b.scale < v ∧ v < b.high * 2 ^ b.scale

/-- The bits of a positive finite number tell that it is `n * 2 ^ q`, and its basin is a half of
`2 ^ q` wide on either side. Below a power of two it is a quarter wide, unless there is no place
below `q`. -/
structure Units (bits n : ℕ) (q : ℤ) : Prop where
  whole : bits = (q + 1074).toNat * leadingBit + n
  place : -1074 ≤ q ∧ q ≤ 971
  pos : 0 < n
  lt : n < 2 * leadingBit
  low : (Basin.ofBits bits).low + 2 = 4 * n ∧ (leadingBit < n ∨ q = -1074) ∨
    (Basin.ofBits bits).low + 1 = 4 * n ∧ n = leadingBit ∧ -1074 < q
  mid : (Basin.ofBits bits).mid = 4 * n
  high : (Basin.ofBits bits).high = 4 * n + 2
  scale : (Basin.ofBits bits).scale = q - 2
  closed : (Basin.ofBits bits).closed = decide (n % 2 = 0)

theorem exists_units {bits : ℕ} (hpos : 0 < bits) (hfinite : bits < infinityBits) :
    ∃ n q, Units bits n q := by
  have hlead : 1 < leadingBit := by decide
  have hdiv := Nat.div_add_mod bits leadingBit
  have hfraction : bits % leadingBit < leadingBit := Nat.mod_lt _ (by decide)
  have hexponent : bits / leadingBit < 2047 := by
    rw [Nat.div_lt_iff_lt_mul (by decide)]
    exact hfinite
  generalize he : bits / leadingBit = e at hdiv hexponent
  generalize hf : bits % leadingBit = f at hdiv hfraction
  cases e with
  | zero =>
      -- Without a leading bit the fraction is all there is.
      refine ⟨f, -1074, ?_⟩
      constructor
      case mid | high | scale | closed => simp [Basin.ofBits, he, hf]
      case low =>
        have hlow : (Basin.ofBits bits).low = 4 * f - 2 := by simp [Basin.ofBits, he, hf]
        omega
      case whole => simpa using hdiv.symm
      all_goals omega
  | succ e =>
      refine ⟨leadingBit + f, (e : ℤ) - 1074, ?_⟩
      constructor
      case mid | high | closed => simp [Basin.ofBits, he, hf]
      case scale =>
        have hscale : (Basin.ofBits bits).scale = ((e + 1 : ℕ) : ℤ) - 1075 - 2 := by
          simp [Basin.ofBits, he, hf]
        omega
      case low =>
        have hlow : (Basin.ofBits bits).low =
            if f = 0 ∧ 0 < e then 4 * (leadingBit + f) - 1 else 4 * (leadingBit + f) - 2 := by
          simp [Basin.ofBits, he, hf]
        split at hlow <;> omega
      case whole =>
        have hplace : ((e : ℤ) - 1074 + 1074).toNat = e := by omega
        rw [hplace, ← hdiv]
        ring
      all_goals omega

theorem Units.leadingBit_le {bits n : ℕ} {q : ℤ} (h : Units bits n q) (hq : -1074 < q) :
    leadingBit ≤ n := by
  rcases h.low with ⟨_, hn | hplace⟩ | ⟨_, hn, _⟩ <;> omega

/-! ## Rounding into the middle -/

section

variable {bits n num den : ℕ} {q : ℤ} {v : ℚ}

/-- What lies in the basin is at most half a unit away from the number, at its ends only if the
number is even. Above the last place of the format it is not more than a quarter below the leading
bit. -/
structure Near (n : ℕ) (q : ℤ) (v : ℚ) : Prop where
  low : (n - 1 / 2) * 2 ^ q ≤ v
  high : v ≤ (n + 1 / 2) * 2 ^ q
  ends : n % 2 = 0 ∨ (n - 1 / 2) * 2 ^ q < v ∧ v < (n + 1 / 2) * 2 ^ q
  leading : -1074 < q → (leadingBit - 1 / 4) * 2 ^ q ≤ v

theorem Units.near (h : Units bits n q) (hv : (Basin.ofBits bits).Holds v) : Near n q v := by
  have hpow : (0 : ℚ) < 2 ^ q := by positivity
  have hscale : (2 : ℚ) ^ (q - 2) = 2 ^ q / 4 := by
    rw [zpow_sub₀ two_ne_zero]
    norm_num
  obtain ⟨hlow, hhigh, hends⟩ := hv
  rw [h.scale, hscale] at hlow hhigh hends
  rw [h.high] at hhigh hends
  rw [h.closed, decide_eq_true_eq] at hends
  push_cast at hhigh hends
  rcases h.low with ⟨hhalf, hplace⟩ | ⟨hquarter, hn, hplace⟩
  · have hcast : ((Basin.ofBits bits).low : ℚ) = 4 * n - 2 := by
      rw [eq_sub_iff_add_eq]
      exact_mod_cast hhalf
    rw [hcast] at hlow hends
    refine ⟨by linarith, by linarith, ?_, ?_⟩
    · exact hends.imp id fun ⟨hl, hh⟩ => ⟨by linarith, by linarith⟩
    · intro hq
      have hlt : (leadingBit + 1 : ℚ) ≤ n := by exact_mod_cast hplace.resolve_right (by omega)
      nlinarith
  · have hcast : ((Basin.ofBits bits).low : ℚ) = 4 * n - 1 := by
      rw [eq_sub_iff_add_eq]
      exact_mod_cast hquarter
    rw [hcast] at hlow hends
    refine ⟨by linarith, by linarith, ?_, ?_⟩
    · exact hends.imp id fun ⟨hl, hh⟩ => ⟨by linarith, by linarith⟩
    · intro _
      rw [← hn]
      linarith

/-- The last place of a fraction near a number is that of the number, or the one below it if the
fraction lies below the leading bit. -/
theorem Units.lastPlace_eq (h : Units bits n q) (hnum : 0 < num) (hden : 0 < den)
    (hnear : Near n q (num / den)) :
    lastPlace num den =
      if (num / den : ℚ) < leadingBit * 2 ^ q ∧ -1074 < q then q - 1 else q := by
  have hquot : (0 : ℚ) < num / den := by positivity
  have hpow : (0 : ℚ) < 2 ^ q := by positivity
  have hhalf : (2 : ℚ) ^ (q + 51) = leadingBit / 2 * 2 ^ q := by
    rw [zpow_add₀ two_ne_zero, cast_leadingBit]
    norm_num
    ring
  have hwhole : (2 : ℚ) ^ (q + 52) = leadingBit * 2 ^ q := by
    rw [zpow_add₀ two_ne_zero, cast_leadingBit, mul_comm]
  have htwice : (2 : ℚ) ^ (q + 53) = 2 * leadingBit * 2 ^ q := by
    rw [zpow_add₀ two_ne_zero, cast_leadingBit]
    norm_num
    ring
  have hbelow : Int.log 2 (num / den : ℚ) < q + 53 := by
    have hn : (n + 1 : ℚ) ≤ 2 * leadingBit := by exact_mod_cast h.lt
    have hhigh := hnear.high
    rw [← lt_two_zpow_iff hquot, htwice]
    nlinarith
  have hplace := h.place
  rw [Decimal.lastPlace_eq hnum hden, ← hwhole]
  simp only [lt_two_zpow_iff hquot]
  split
  · rename_i hcarry
    obtain ⟨hlt, hq⟩ := hcarry
    have habove : q + 51 ≤ Int.log 2 (num / den : ℚ) := by
      have hquarter := hnear.leading hq
      have hone : (1 : ℚ) ≤ leadingBit := by exact_mod_cast (by decide : 1 ≤ leadingBit)
      rw [← two_zpow_le_iff hquot, hhalf]
      nlinarith
    omega
  · omega

/-- **Every fraction in the basin of a number is rounded to that number.** -/
theorem nearestBits_of_holds (hpos : 0 < bits) (hfinite : bits < infinityBits) (hnum : 0 < num)
    (hden : 0 < den) (hv : (Basin.ofBits bits).Holds (num / den)) : nearestBits num den = bits := by
  obtain ⟨n, q, h⟩ := exists_units hpos hfinite
  have hnear := h.near hv
  have hlast := h.lastPlace_eq hnum hden hnear
  have hmin : min bits infinityBits = bits := Nat.min_eq_left hfinite.le
  unfold nearestBits
  rw [if_neg hnum.ne']
  dsimp only
  split at hlast
  · -- Just below a power of two the quotient has one bit more, and rounding up gives it back.
    rename_i hcarry
    obtain ⟨hlt, hq⟩ := hcarry
    have hpow : (0 : ℚ) < 2 ^ q := by positivity
    have hn : n = leadingBit := by
      refine Nat.le_antisymm (Nat.le_of_not_lt fun hn => ?_) (h.leadingBit_le hq)
      have hn : (leadingBit + 1 : ℚ) ≤ n := by exact_mod_cast hn
      have hlow := hnear.low
      nlinarith
    have hhalf : (2 : ℚ) ^ (q - 1) = 2 ^ q / 2 := by rw [zpow_sub_one₀ two_ne_zero]; ring
    have hround : roundHalfEven (num <<< (-(q - 1)).toNat) (den <<< (q - 1).toNat) =
        2 * leadingBit := by
      apply roundHalfEven_shift hden
      · have hquarter := hnear.leading hq
        rw [hhalf]
        push_cast
        linarith
      · rw [hhalf]
        push_cast
        linarith
      · exact .inl (Nat.mul_mod_right 2 _)
    have hplace : (q + 1074).toNat = (q - 1 + 1074).toNat + 1 := by omega
    have hwhole : bits = (q - 1 + 1074).toNat * leadingBit + 2 * leadingBit := by
      have hwhole := h.whole
      rw [hplace, hn] at hwhole
      rw [hwhole]
      ring
    rw [hlast, hround, ← hwhole, hmin]
  · rw [hlast, roundHalfEven_shift hden hnear.low hnear.high hnear.ends, ← h.whole, hmin]

end

/-! ## Points of grids -/

namespace Basin

/-- The common denominator of a grid and a basin. -/
def unit (b : Basin) (place : ℤ) : ℕ := Nat.pow 10 (-place).toNat <<< b.scale.toNat

/-- The numerator of a step of the grid over that denominator. -/
def step (b : Basin) (place : ℤ) : ℕ := Nat.pow 10 place.toNat <<< (-b.scale).toNat

/-- Whether a point of the grid is in the basin. -/
def inside (b : Basin) (place : ℤ) (k : ℕ) : Bool :=
  if b.closed then b.low * b.unit place ≤ k * b.step place && k * b.step place ≤ b.high * b.unit place
  else b.low * b.unit place < k * b.step place && k * b.step place < b.high * b.unit place

variable {b : Basin} {place : ℤ} {k c : ℕ}

theorem unit_pos (b : Basin) (place : ℤ) : 0 < b.unit place := by
  exact shiftLeft_pos (Nat.pow_pos (by decide)) _

theorem cast_step (b : Basin) (place : ℤ) :
    (b.step place : ℚ) = 10 ^ place / 2 ^ b.scale * b.unit place := by
  have hten := pow_toNat (by norm_num : (10 : ℚ) ≠ 0) place
  have htwo := pow_toNat (two_ne_zero (α := ℚ)) b.scale
  simp only [step, unit, Nat.shiftLeft_eq, Nat.pow_eq]
  push_cast
  rw [hten, htwo]
  field_simp

theorem le_step_iff (a : ℕ) :
    a * b.unit place ≤ k * b.step place ↔ (a * 2 ^ b.scale : ℚ) ≤ k * 10 ^ place := by
  have hunit : (0 : ℚ) < b.unit place := by exact_mod_cast b.unit_pos place
  have hpow : (0 : ℚ) < 2 ^ b.scale := by positivity
  rw [← Nat.cast_le (α := ℚ)]
  push_cast
  rw [cast_step, ← mul_assoc, mul_le_mul_iff_left₀ hunit, mul_div_assoc', le_div_iff₀ hpow]

theorem step_le_iff (a : ℕ) :
    k * b.step place ≤ a * b.unit place ↔ (k * 10 ^ place : ℚ) ≤ a * 2 ^ b.scale := by
  have hunit : (0 : ℚ) < b.unit place := by exact_mod_cast b.unit_pos place
  have hpow : (0 : ℚ) < 2 ^ b.scale := by positivity
  rw [← Nat.cast_le (α := ℚ)]
  push_cast
  rw [cast_step, ← mul_assoc, mul_le_mul_iff_left₀ hunit, mul_div_assoc', div_le_iff₀ hpow]

theorem inside_iff : b.inside place k = true ↔ b.Holds (k * 10 ^ place) := by
  have hlow : b.low * b.unit place < k * b.step place ↔
      (b.low * 2 ^ b.scale : ℚ) < k * 10 ^ place := by
    rw [← not_le, ← not_le, step_le_iff]
  have hhigh : k * b.step place < b.high * b.unit place ↔
      (k * 10 ^ place : ℚ) < b.high * 2 ^ b.scale := by
    rw [← not_le, ← not_le, le_step_iff]
  unfold inside
  cases hclosed : b.closed with
  | true =>
      simp only [if_true, Bool.and_eq_true, decide_eq_true_eq, le_step_iff, step_le_iff]
      exact ⟨fun ⟨hl, hh⟩ => ⟨hl, hh, .inl hclosed⟩, fun h => ⟨h.low, h.high⟩⟩
  | false =>
      simp only [Bool.false_eq_true, if_false, Bool.and_eq_true, decide_eq_true_eq, hlow, hhigh]
      refine ⟨fun ⟨hl, hh⟩ => ⟨hl.le, hh.le, .inr ⟨hl, hh⟩⟩, fun h => h.ends.resolve_left ?_⟩
      simp [hclosed]

theorem gridPoint_eq (b : Basin) (place : ℤ) :
    b.gridPoint place =
      let c := b.mid * b.unit place / b.step place
      if b.inside place c && (b.mid * b.unit place - c * b.step place <
          (c + 1) * b.step place - b.mid * b.unit place || !b.inside place (c + 1)) then some c
      else if b.inside place (c + 1) then some (c + 1)
      else none :=
  rfl

theorem holds_of_gridPoint (h : b.gridPoint place = some c) : b.Holds (c * 10 ^ place) := by
  rw [gridPoint_eq] at h
  dsimp only at h
  rw [← inside_iff]
  split at h
  · rename_i hinside
    cases h
    exact ((Bool.and_eq_true _ _).mp hinside).1
  · split at h
    · cases h
      assumption
    · cases h

/-- There is a point of a grid in a basin that is wider than a step of the grid. -/
theorem isSome_gridPoint (hlow : b.low < b.mid) (hhigh : b.mid < b.high)
    (hfine : (10 : ℚ) ^ place ≤ 2 ^ b.scale) : (b.gridPoint place).isSome = true := by
  have hpow : (0 : ℚ) < 2 ^ b.scale := by positivity
  have hstep : 0 < b.step place := shiftLeft_pos (Nat.pow_pos (by decide)) _
  rw [gridPoint_eq]
  dsimp only
  generalize hc : b.mid * b.unit place / b.step place = c
  have hbelow : (c * 10 ^ place : ℚ) ≤ b.mid * 2 ^ b.scale := by
    rw [← step_le_iff, ← hc]
    exact Nat.div_mul_le_self _ _
  have habove : (b.mid * 2 ^ b.scale : ℚ) < (c + 1 : ℕ) * 10 ^ place := by
    rw [← not_le, ← step_le_iff, not_le, ← hc, Nat.mul_comm (_ + 1)]
    exact Nat.lt_mul_div_succ _ hstep
  -- The point below the middle is less than a step away from it.
  have hinside : b.inside place c = true := by
    have hlow : (b.low + 1 : ℚ) ≤ b.mid := by exact_mod_cast hlow
    have hhigh : (b.mid : ℚ) < b.high := by exact_mod_cast hhigh
    push_cast at habove
    have hgt : (b.low * 2 ^ b.scale : ℚ) < c * 10 ^ place := by nlinarith
    have hlt : (c * 10 ^ place : ℚ) < b.high * 2 ^ b.scale := by nlinarith
    exact inside_iff.mpr ⟨hgt.le, hlt.le, .inr ⟨hgt, hlt⟩⟩
  rw [hinside]
  split
  · rfl
  · rename_i hupper
    simp only [Bool.true_and, Bool.or_eq_true, not_or, Bool.not_eq_true', Bool.not_eq_false] at hupper
    rw [if_pos hupper.2]
    rfl

end Basin

/-! ## The shortest decimal -/

variable {bits n : ℕ} {q : ℤ} {v : ℚ}

/-- The fractions in a basin are in the range of the format. -/
theorem Units.range (h : Units bits n q) (hv : (Basin.ofBits bits).Holds v) :
    (2 : ℚ) ^ (-1075 : ℤ) ≤ v ∧ v < 2 ^ (1024 : ℤ) := by
  have hplace := h.place
  constructor
  · have htwo : 2 ≤ (Basin.ofBits bits).low := by
      have := h.low
      have := h.pos
      omega
    calc (2 : ℚ) ^ (-1075 : ℤ) = 2 * 2 ^ (-1076 : ℤ) := by
          rw [← zpow_one_add₀ two_ne_zero]
          rfl
      _ ≤ (Basin.ofBits bits).low * 2 ^ (Basin.ofBits bits).scale := by
          rw [h.scale]
          gcongr
          · exact_mod_cast htwo
          · norm_num
          · omega
      _ ≤ v := hv.low
  · have hn : (4 * n + 2 : ℚ) < 2 ^ (55 : ℤ) := by
      have hlt : (n + 1 : ℚ) ≤ 2 * leadingBit := by exact_mod_cast h.lt
      rw [cast_leadingBit] at hlt
      norm_num at hlt ⊢
      linarith
    calc v ≤ (Basin.ofBits bits).high * 2 ^ (Basin.ofBits bits).scale := hv.high
      _ = (4 * n + 2) * 2 ^ (q - 2) := by
          rw [h.high, h.scale]
          push_cast
          rfl
      _ < 2 ^ (55 : ℤ) * 2 ^ (q - 2) := by gcongr
      _ ≤ 2 ^ (55 : ℤ) * 2 ^ (969 : ℤ) := by
          gcongr
          · norm_num
          · omega
      _ = 2 ^ (1024 : ℤ) := by
          rw [← zpow_add₀ two_ne_zero]
          rfl

/-- **The shortest decimal of a number lies in its basin.** -/
theorem shortest_spec (hpos : 0 < bits) (hfinite : bits < infinityBits) :
    ∃ c place, (Basin.ofBits bits).shortest = (c, place) ∧
      (Basin.ofBits bits).Holds (c * 10 ^ place) := by
  obtain ⟨n, q, h⟩ := exists_units hpos hfinite
  have hfound : ((List.range 660).findSome? fun i : Nat =>
      ((Basin.ofBits bits).gridPoint (309 - (i : Int))).map fun c => (c, 309 - (i : Int))).isSome := by
    rw [List.findSome?_isSome_iff]
    refine ⟨659, List.mem_range.mpr (by decide), ?_⟩
    rw [Option.isSome_map]
    apply Basin.isSome_gridPoint
    · have := h.low
      have := h.mid
      omega
    · rw [h.mid, h.high]
      omega
    · rw [h.scale]
      have hq := h.place
      calc (10 : ℚ) ^ (309 - ((659 : ℕ) : ℤ)) ≤ 2 ^ (-((1076 : ℕ) : ℤ)) :=
            ten_zpow_neg_le (k := 350) (by decide)
        _ ≤ 2 ^ (q - 2) := by
            apply zpow_le_zpow_right₀ (by norm_num)
            omega
  obtain ⟨⟨c, place⟩, hfound⟩ := Option.isSome_iff_exists.mp hfound
  obtain ⟨i, _, hi⟩ := List.exists_of_findSome?_eq_some hfound
  obtain ⟨c', hc', hpair⟩ := Option.map_eq_some_iff.mp hi
  cases hpair
  refine ⟨c, _, ?_, Basin.holds_of_gridPoint hc'⟩
  unfold Basin.shortest
  rw [hfound]
  rfl

end TorusAutomaton.Decimal
