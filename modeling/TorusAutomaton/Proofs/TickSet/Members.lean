import Mathlib.Data.List.Sort
import Mathlib.Data.Set.Card
import TorusAutomaton.TickSet.Basic

/-!
# The members of a set of ticks

Membership is decided span by span, and the members are listed by sorting what all spans list. The
two agree: the listing has every member once, in ascending order, so its length is their number.
-/

namespace TorusAutomaton.TickSet

/-! ## Spans -/

theorem Span.covers_iff {s : Span} {t : Nat} :
    s.covers t = true ↔ s.first ≤ t ∧ t ≤ s.last ∧ s.step ∣ t - s.first := by
  simp [covers, and_assoc, Nat.dvd_iff_mod_eq_zero]

/-- The ticks of a span, as whole numbers of either sign. -/
theorem Span.covers_iff_int {s : Span} {t : Nat} :
    s.covers t = true ↔
      (s.first : Int) ≤ t ∧ (t : Int) ≤ s.last ∧ (s.step : Int) ∣ t - s.first := by
  rw [covers_iff, Int.ofNat_le, Int.ofNat_le]
  refine and_congr_right fun hfirst => and_congr_right fun _ => ?_
  rw [← Int.ofNat_sub hfirst, Int.natCast_dvd_natCast]

theorem Span.mem_ticks {s : Span} {t : Nat} : t ∈ s.ticks ↔ s.covers t = true := by
  rw [covers_iff, ticks]
  split
  · rw [List.mem_range']
    constructor
    · rintro ⟨i, hi, rfl⟩
      have hlast : s.step * i ≤ s.last - s.first :=
        Nat.le_trans (Nat.mul_le_mul_left _ (Nat.le_of_lt_succ hi)) (Nat.mul_div_le _ _)
      refine ⟨Nat.le_add_right _ _, by omega, ?_⟩
      rw [Nat.add_sub_cancel_left]
      exact Nat.dvd_mul_right _ _
    · rintro ⟨hfirst, hlast, hstep⟩
      refine ⟨(t - s.first) / s.step, ?_, ?_⟩
      · exact Nat.lt_succ_of_le (Nat.div_le_div_right (Nat.sub_le_sub_right hlast _))
      · rw [Nat.mul_div_cancel' hstep]
        omega
  · rename_i hempty
    simp only [List.not_mem_nil, false_iff]
    omega

/-! ## Listing -/

theorem dropRepeats_cons (t : Nat) (rest : List Nat) :
    dropRepeats (t :: rest) =
      if (dropRepeats rest).head? = some t then dropRepeats rest else t :: dropRepeats rest :=
  rfl

@[simp] theorem mem_dropRepeats {ticks : List Nat} {t : Nat} :
    t ∈ dropRepeats ticks ↔ t ∈ ticks := by
  induction ticks with
  | nil => rfl
  | cons u rest ih =>
      rw [dropRepeats_cons, List.mem_cons, ← ih]
      split
      · rename_i hhead
        have hu : u ∈ dropRepeats rest := List.mem_of_head? hhead
        constructor
        · exact .inr
        · rintro (rfl | ht)
          · exact hu
          · exact ht
      · rw [List.mem_cons]

/-- An ascending list without equal neighbours is strictly ascending. -/
theorem pairwise_dropRepeats {ticks : List Nat} (h : ticks.Pairwise (· ≤ ·)) :
    (dropRepeats ticks).Pairwise (· < ·) := by
  induction ticks with
  | nil => exact .nil
  | cons u rest ih =>
      obtain ⟨hlow, hrest⟩ := List.pairwise_cons.mp h
      have ih := ih hrest
      rw [dropRepeats_cons]
      split
      · exact ih
      · rename_i hhead
        refine List.pairwise_cons.mpr ⟨?_, ih⟩
        intro t ht
        have hle : ∀ v ∈ dropRepeats rest, u ≤ v := fun v hv => hlow v (mem_dropRepeats.mp hv)
        -- The head of what is left is not `u`, and all others are above the head.
        cases hdropped : dropRepeats rest with
        | nil => simp [hdropped] at ht
        | cons v others =>
            rw [hdropped] at ih ht hle hhead
            have hv : u < v := by
              refine Nat.lt_of_le_of_ne (hle v List.mem_cons_self) ?_
              rintro rfl
              exact hhead rfl
            rcases List.mem_cons.mp ht with rfl | ht
            · exact hv
            · exact Nat.lt_trans hv ((List.pairwise_cons.mp ih).1 t ht)

theorem contains_natCast {ts : TickSet} {n : Nat} :
    ts.contains n = true ↔ ∃ s ∈ ts.spans, s.covers n = true := by
  simp [contains]

theorem mem_toList {ts : TickSet} {n : Nat} : n ∈ ts.toList ↔ ts.contains n = true := by
  rw [toList, mem_dropRepeats, (List.mergeSort_perm _ _).mem_iff, List.mem_flatMap,
    contains_natCast]
  simp only [Span.mem_ticks]

theorem pairwise_toList (ts : TickSet) : ts.toList.Pairwise (· < ·) :=
  pairwise_dropRepeats (List.pairwise_mergeSort' (· ≤ ·) _)

theorem nonneg_of_contains {ts : TickSet} {tick : Int} (h : ts.contains tick = true) :
    0 ≤ tick := by
  simp only [contains, Bool.and_eq_true, decide_eq_true_eq] at h
  exact h.1

/-- The members as a set are what the listing has. -/
theorem setOf_contains (ts : TickSet) :
    {tick : Int | ts.contains tick = true} =
      ↑(ts.toList.map (Nat.cast : Nat → Int)).toFinset := by
  ext tick
  simp only [Set.mem_ofPred_eq, List.coe_toFinset, List.mem_map, mem_toList]
  constructor
  · intro h
    obtain ⟨n, rfl⟩ := Int.eq_ofNat_of_zero_le (nonneg_of_contains h)
    exact ⟨n, h, rfl⟩
  · rintro ⟨n, h, rfl⟩
    exact h

theorem finite_contains (ts : TickSet) : {tick : Int | ts.contains tick = true}.Finite := by
  rw [setOf_contains]
  exact Finset.finite_toSet _

/-- The members are as many as the size says. -/
theorem ncard_contains (ts : TickSet) : {tick : Int | ts.contains tick = true}.ncard = ts.size := by
  have hnodup : (ts.toList.map (Nat.cast : Nat → Int)).Nodup :=
    (List.Pairwise.imp Nat.ne_of_lt (pairwise_toList ts)).map Nat.cast
      fun _ _ hne h => hne (Int.ofNat.inj h)
  rw [setOf_contains, Set.ncard_coe_finset, List.toFinset_card_of_nodup hnodup, List.length_map,
    size]

end TorusAutomaton.TickSet
