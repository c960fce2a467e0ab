import Mathlib.Data.List.Nodup
import TorusAutomaton.Proofs.Rule.Grammar

/-!
# Drawn rules

Whatever words a source gives, a directive is replaced by a rule of the kind that it asks for. The
draw without repetition takes each number only once, because the number that stands in for a
repeated one is larger than all that could be taken before; so it takes as many as it was told to.
-/

namespace TorusAutomaton.Rule

open TorusAutomaton Text TorusAutomaton.Random

variable {σ : Type} [Source σ]

/-! ## Drawing without repetition -/

/-- The numbers taken are distinct and below what has been gone through, and there is one for each
number gone through. -/
theorem choose_spec (first n : Nat) {taken : List Nat} (hnodup : taken.Nodup)
    (hbelow : ∀ t ∈ taken, t < first) (s : σ) :
    (choose (List.range' first n) taken s).1.Nodup ∧
      (∀ t ∈ (choose (List.range' first n) taken s).1, t < first + n) ∧
      (choose (List.range' first n) taken s).1.length = taken.length + n := by
  induction n generalizing first taken s with
  | zero => exact ⟨hnodup, hbelow, rfl⟩
  | succ n ih =>
      have hdraw : (below32 (first + 1) s).1 < first + 1 := below32_lt (Nat.succ_pos first) s
      rw [List.range'_succ]
      simp only [choose]
      generalize below32 (first + 1) s = drawn at hdraw ⊢
      obtain ⟨t, s'⟩ := drawn
      have hnew : (if taken.contains t then first else t) ∉ taken ∧
          (if taken.contains t then first else t) < first + 1 := by
        split
        · exact ⟨fun hmem => Nat.lt_irrefl _ (hbelow first hmem), Nat.lt_succ_self first⟩
        · rename_i hfree
          exact ⟨by simpa using hfree, hdraw⟩
      generalize (if taken.contains t then first else t) = u at hnew
      have hbelow₁ : ∀ v ∈ u :: taken, v < first + 1 := by
        intro v hv
        rcases List.mem_cons.mp hv with rfl | hv
        · exact hnew.2
        · exact Nat.lt_succ_of_lt (hbelow v hv)
      obtain ⟨hnodup', hbelow', hlength'⟩ :=
        ih (first + 1) (List.nodup_cons.mpr ⟨hnew.1, hnodup⟩) hbelow₁ s'
      refine ⟨hnodup', ?_, ?_⟩
      · intro v hv
        have := hbelow' v hv
        omega
      · rw [hlength', List.length_cons]
        omega

theorem sample_spec {amount : Nat} (h : amount ≤ 8) (s : σ) :
    (sample amount s).1.Nodup ∧ (∀ t ∈ (sample amount s).1, t < 8) ∧
      (sample amount s).1.length = amount := by
  have hrange : (List.range amount).map (8 - amount + ·) = List.range' (8 - amount) amount := by
    rw [List.range'_eq_map_range]
  obtain ⟨hnodup, hbelow, hlength⟩ :=
    choose_spec (8 - amount) amount List.nodup_nil (by simp) s
  rw [sample, hrange]
  refine ⟨hnodup, ?_, by simpa using hlength⟩
  intro t ht
  have := hbelow t ht
  omega

/-! ## Drawn digits -/

/-- Sorting out the taken numbers leaves as many as were taken. -/
theorem length_filter_contains {n : Nat} {taken : List Nat} (hnodup : taken.Nodup)
    (hbelow : ∀ t ∈ taken, t < n) :
    ((List.range n).filter taken.contains).length = taken.length := by
  apply List.Perm.length_eq
  apply (List.perm_ext_iff_of_nodup (List.nodup_range.filter _) hnodup).mpr
  intro t
  simp only [List.mem_filter, List.mem_range, List.contains_iff_mem, and_iff_right_iff_imp]
  exact hbelow t

/-- Ascending counts of an amount from `low` up to but not including `high`. -/
structure Ranges (low high : Nat) (counts : List (Fin 8)) : Prop where
  ascending : counts.Pairwise (· < ·)
  low : low ≤ counts.length
  high : counts.length < high

theorem drawDigits_spec {low high : Nat} (h : low < high) (hhigh : high ≤ 9) (s : σ) :
    ∃ counts : List (Fin 8), (drawDigits low high s).1 = digits counts ∧
      Ranges low high counts := by
  have hextra := below64_lt (Nat.sub_pos_of_lt h) s
  simp only [drawDigits]
  generalize below64 (high - low) s = drawn at hextra ⊢
  obtain ⟨extra, s'⟩ := drawn
  have hamount : min (low + extra) 8 = low + extra := by
    simp only at hextra
    omega
  obtain ⟨hnodup, hbelow, hlength⟩ := sample_spec (Nat.min_le_right (low + extra) 8) s'
  generalize sample (min (low + extra) 8) s' = sampled at hnodup hbelow hlength ⊢
  obtain ⟨taken, _⟩ := sampled
  have hrange : (List.range 8).filter taken.contains =
      ((List.finRange 8).filter (taken.contains ·.val)).map Fin.val := by
    rw [← List.map_coe_finRange_eq_range, List.filter_map]
    rfl
  refine ⟨(List.finRange 8).filter (taken.contains ·.val), ?_, ?_, ?_, ?_⟩
  · simp only [hrange, digits, List.map_map]
    rfl
  · exact (List.pairwise_lt_finRange 8).filter _
  all_goals
    have hcount := length_filter_contains hnodup hbelow
    rw [hrange, List.length_map, hlength, hamount] at hcount
    omega

/-- A rule text of the kind that a directive asks for. -/
structure Directive.Draws (d : Directive) (alive dead : List (Fin 8)) : Prop where
  alive : Ranges d.aliveLow d.aliveHigh alive
  dead : Ranges d.deadLow d.deadHigh dead

/-- The bounds that are read from a directive. -/
def Directive.bounds (d : Directive) : Bounds where
  aliveLow := d.aliveLow
  aliveHigh := d.aliveHigh
  deadLow := d.deadLow
  deadHigh := d.deadHigh

/-- **A drawn rule is as the directive asks**, whatever words the source gives. -/
theorem draw_spec (d : Directive) (s : σ) :
    ∃ alive dead, (d.bounds.draw s).1 = digits alive ++ '/' :: digits dead ∧
      d.Draws alive dead := by
  obtain ⟨alive, halive, hdrawn⟩ :=
    drawDigits_spec d.alive (Nat.le_of_lt_succ d.aliveHigh.isLt) s
  simp only [Bounds.draw, Directive.bounds]
  generalize drawDigits d.aliveLow d.aliveHigh s = drawn at halive ⊢
  obtain ⟨_, s'⟩ := drawn
  obtain ⟨dead, hdead, hdrawn'⟩ :=
    drawDigits_spec d.dead (Nat.le_of_lt_succ d.deadHigh.isLt) s'
  exact ⟨alive, dead, by rw [← halive, ← hdead], hdrawn, hdrawn'⟩

end TorusAutomaton.Rule
