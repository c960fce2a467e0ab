import TorusAutomaton.Proofs.Simulation.Course

/-!
# The answers about inversion

A simulation answers the question about inversion by its mode, its tick and its board, and in one
mode also by a sample: the live cells at the latest question that was asked in a mode that compares
populations. Questions in the other modes leave the sample as it was, and so does everything that is
done between questions. The sample always counts as many cells as the board has, since no operation
changes the sides of the board.
-/

namespace TorusAutomaton

/-- The differences of populations that a comparison is made of. -/
def Flicker.differences (f : Flicker) (alive dead : Nat) : List Int :=
  [f.previousAlive - alive, f.previousAlive - dead, f.previousDead - dead]

namespace Simulation

/-! ## Samples -/

/-- The live cells at those of the questions that were asked in a mode that compares populations. -/
def samples (s : Simulation) : List Operation → List Nat
  | [] => []
  | .ask :: rest =>
    if s.flicker.mode.compares then s.alive :: samples s.asked rest else samples s.asked rest
  | op :: rest => samples (s.perform op) rest

/-- The live cells at the latest of these questions, or on the present board if there was none. -/
def latestSample (s : Simulation) (ops : List Operation) : Nat := (s.samples ops).getLastD s.alive

variable {s : Simulation}

theorem alive_add_dead (s : Simulation) : s.alive + s.dead = s.total :=
  Nat.add_sub_cancel' Array.count_le_size

theorem total_eq (s : Simulation) : s.total = s.board.width * s.board.height := s.board.size_eq

/-- The policy remembers the latest sample. -/
theorem previousAlive_performAll (s : Simulation) (ops : List Operation) :
    (ops.foldl perform s).flicker.previousAlive =
      (s.samples ops).getLastD s.flicker.previousAlive := by
  induction ops generalizing s with
  | nil => rfl
  | cons op rest ih =>
      have hrest := ih (s.perform op)
      cases op with
      | ask =>
          rw [List.foldl_cons, hrest, samples]
          show (s.asked.samples rest).getLastD s.asked.flicker.previousAlive = _
          cases hmode : s.flicker.mode.compares with
          | true =>
              rw [if_pos rfl, List.getLastD_cons, asked, Flicker.record_of_compares hmode]
          | false =>
              rw [if_neg Bool.false_ne_true, asked, Flicker.record_of_not_compares hmode]
      | step =>
          have hstep : s.step.flicker = s.flicker := by
            unfold step
            split <;> rfl
          rw [perform, hstep] at hrest
          exact hrest
      | advance => exact hrest
      | togglePause => exact hrest
      | cycleFlicker => exact hrest

/-- The sample is of a board with as many cells as the present one. -/
def Sampled (s : Simulation) : Prop :=
  s.flicker.previousAlive + s.flicker.previousDead = s.total

theorem Sampled.advance (h : s.Sampled) : s.advance.Sampled := by
  have htotal : s.advance.total = s.total := by rw [total_eq, total_eq]; rfl
  exact h.trans htotal.symm

theorem Sampled.perform (h : s.Sampled) (op : Operation) : (s.perform op).Sampled := by
  cases op with
  | ask =>
      show (s.flicker.record s.alive s.dead).previousAlive +
        (s.flicker.record s.alive s.dead).previousDead = s.total
      cases hmode : s.flicker.mode.compares with
      | true =>
          rw [Flicker.record_of_compares hmode]
          exact s.alive_add_dead
      | false =>
          rw [Flicker.record_of_not_compares hmode]
          exact h
  | step =>
      show s.step.Sampled
      unfold step
      split
      · exact h
      · exact h.advance
  | advance => exact h.advance
  | togglePause => exact h
  | cycleFlicker => exact h

theorem Sampled.performAll (h : s.Sampled) (ops : List Operation) :
    (ops.foldl Simulation.perform s).Sampled := by
  induction ops generalizing s with
  | nil => exact h
  | cons op rest ih => exact ih (h.perform op)

/-- The first sample is taken of the first board. -/
theorem sample_of_create {c : Config} {fresh : Text} (h : create c fresh = .ok s) :
    s.flicker.previousAlive = s.alive ∧ s.Sampled := by
  obtain ⟨_, rule, _, post, _, board, selection, _, _, _, _, rfl⟩ := create_eq_ok_iff.mp h
  exact ⟨rfl, (c.assemble fresh rule post board selection).alive_add_dead⟩

/-! ## Answers -/

/-- What a simulation that was created as `first` answers to the next question, after these
operations. -/
structure InvertedBy (first : Simulation) (ops : List Operation) (s : Simulation) : Prop where
  off : s.flicker.mode = .off → s.inverted = false
  crowded : s.flicker.mode = .crowded → s.inverted = decide (s.dead < s.alive)
  swing : s.flicker.mode = .swing → s.inverted = decide (first.latestSample ops < s.alive)
  strobe : s.flicker.mode = .strobe → s.inverted = decide (s.tick % 2 = 0)
  sample : s.flicker.previousAlive + s.flicker.previousDead = s.total
  differences : ∀ d ∈ s.flicker.differences s.alive s.dead, d.natAbs ≤ s.total

/-- No difference is larger than the number of cells. -/
theorem Sampled.natAbs_le (h : s.Sampled) {d : Int}
    (hd : d ∈ s.flicker.differences s.alive s.dead) : d.natAbs ≤ s.total := by
  have hcells := s.alive_add_dead
  unfold Sampled at h
  simp only [Flicker.differences, List.mem_cons, List.not_mem_nil, or_false] at hd
  rcases hd with rfl | rfl | rfl <;> omega

/-- **The answer in closed form.** Whatever is done to a simulation from its creation on, the next
answer about inversion is no in mode `off`, and tells in mode `strobe` whether the tick is even; in
mode `crowded` it tells whether more cells are alive than dead, whatever was asked before; and in
mode `swing` whether more cells are alive than at the latest question that was asked in one of the
two modes that compare populations, or than at the creation if there was none. The sample that is
kept for this has as many cells as the board, and so no difference that is taken exceeds their
number: all of them are numbers of 64 bits on a board of less than 2 ^ 63 cells. -/
theorem inverted_in_closed_form {c : Config} {fresh : Text} {first : Simulation}
    (h : create c fresh = .ok first) (ops : List Operation) :
    InvertedBy first ops (ops.foldl perform first) := by
  obtain ⟨halive, hsampled⟩ := sample_of_create h
  have hlatest := previousAlive_performAll first ops
  rw [halive] at hlatest
  replace hsampled := hsampled.performAll ops
  generalize ops.foldl perform first = s at hlatest hsampled ⊢
  constructor
  case off =>
    intro hmode
    simp only [inverted, Flicker.inverts, hmode]
  case crowded => exact fun hmode => Flicker.inverts_crowded hmode _ _ _
  case swing =>
    intro hmode
    rw [latestSample, ← hlatest]
    exact Flicker.inverts_swing hmode (hsampled.trans s.alive_add_dead.symm) _
  case strobe =>
    intro hmode
    simp only [inverted, Flicker.inverts, hmode]
  case sample => exact hsampled
  case differences => exact fun d hd => hsampled.natAbs_le hd

/-- A question in mode `swing`, a tick and a question in mode `strobe`, and on to mode `swing`. -/
def lookingBack : List Operation :=
  [.ask, .cycleFlicker, .step, .advance, .ask, .cycleFlicker, .cycleFlicker, .cycleFlicker]

/-- The second question took no sample, so the blinker is compared with its board at the first. -/
theorem inverted_in_closed_form_blinking :
    ∃ first, create blinking "fresh".toList = .ok first ∧
      InvertedBy first lookingBack (lookingBack.foldl perform first) ∧
      first.latestSample lookingBack = 3 ∧ (lookingBack.foldl perform first).alive = 4 ∧
      (lookingBack.foldl perform first).inverted = true := by
  have hfacts : (create blinking "fresh".toList).toOption.any (fun first => decide (
      first.latestSample lookingBack = 3 ∧ (lookingBack.foldl perform first).alive = 4 ∧
      (lookingBack.foldl perform first).inverted = true)) = true := by
    decide +kernel
  obtain ⟨first, hfirst, hfacts⟩ := (Option.any_eq_true _ _).mp hfacts
  have hfirst := Outcome.toOption_eq_some_iff.mp hfirst
  exact ⟨first, hfirst, inverted_in_closed_form hfirst _, of_decide_eq_true hfacts⟩

end Simulation

end TorusAutomaton
