import TorusAutomaton.Proofs.Session.Agreement
import TorusAutomaton.Proofs.Session.Transcript

/-!
# Frames of negative ticks

A tick that is negative is never due to be drawn. But a run starts by drawing the board whatever the
tick is, so a run that starts at a negative tick shows it all the same, once. While nobody types
this is the only frame of its kind: from the second turn on only what is due is drawn, however many
turns there are and however they end.
-/

namespace TorusAutomaton.Session

open TorusAutomaton

/-- Ticks that are due are not negative. -/
theorem nonneg_of_mem_dueTicks {s : Session} {k n : Nat} {t : Int} (h : t ∈ s.dueTicks k n) :
    0 ≤ t := by
  obtain ⟨_, hdue⟩ := List.mem_filter.mp h
  exact (of_decide_eq_true hdue).1

namespace TerminalView

variable {s : Session} {v : TerminalView} {k : Nat}

/-- A run that never waits is one way to wait. -/
theorem waits_replicate (v : TerminalView) (n : Nat) :
    v.waits (List.replicate n true) = v.idle n := by
  induction n generalizing v with
  | zero => rfl
  | succ n ih =>
      rw [List.replicate_succ, waits_cons, turn_none (Bool.or_true _), idle_succ]
      generalize v.proceed = result
      obtain ⟨v', outcome⟩ := result
      cases outcome with
      | running => exact ih v'
      | stopped exit => rfl
      | failed failure => rfl

/-- From a new tick on, the ticks that are due are drawn, and no others: one tick is gone through
for every turn whose time has come, until the run ends. -/
theorem waits_draws (hunpaused : s.sim.paused = false) (h : s.Passed k v.session)
    (hredraw : v.redraw = false) (dues : List Bool) :
    ∃ n ≤ dues.count true, Draws s v (v.waits dues).1 (s.dueTicks k n) ∧
      ((v.waits dues).2 = .running → n = dues.count true) := by
  induction dues generalizing k v with
  | nil => exact ⟨0, Nat.le_refl 0, draws_none rfl, fun _ => rfl⟩
  | cons due rest ih =>
      cases due with
      | false =>
          rw [waits_cons, turn_waits hredraw, List.count_cons_of_ne (by decide)]
          exact ih h hredraw
      | true =>
          rw [waits_cons, turn_none (Bool.or_true _), List.count_cons_self]
          cases hproceed : v.proceed with
          | mk v' outcome =>
              obtain ⟨hdraws, hgoesOn⟩ := proceed_draws hunpaused h hproceed
              simp only [drawDue_iff h hunpaused hredraw] at hdraws
              have hnow : Draws s v v' (s.dueTicks k 1) := by
                rw [dueTicks_succ]
                exact hdraws.trans (draws_none rfl)
              cases outcome with
              | running =>
                  obtain ⟨hredraw', hpassed⟩ := hgoesOn rfl
                  rw [if_neg (by simp [hredraw])] at hpassed
                  obtain ⟨n, hle, hrest, hcount⟩ := ih hpassed hredraw'
                  refine ⟨n + 1, Nat.succ_le_succ hle, ?_, fun hrunning => ?_⟩
                  · rw [dueTicks_succ]
                    exact hdraws.trans hrest
                  · rw [hcount hrunning]
              -- The turn that ends the run has gone through its tick, too.
              | stopped exit =>
                  exact ⟨1, Nat.succ_pos _, hnow, fun hrunning => by cases hrunning⟩
              | failed failure =>
                  exact ⟨1, Nat.succ_pos _, hnow, fun hrunning => by cases hrunning⟩

/-- A run starts by drawing its first tick, and goes on as from a new tick. -/
theorem start_draws (hunpaused : s.sim.paused = false) (due : Bool) (rest : List Bool) :
    ∃ n ≤ rest.count true,
      Draws s (start { s with history := [] })
        ((start { s with history := [] }).waits (due :: rest)).1
        (s.sim.tick :: s.dueTicks 0 n) ∧
      (((start { s with history := [] }).waits (due :: rest)).2 = .running →
        n = rest.count true) := by
  have hpassed : s.Passed 0 (start { s with history := [] }).session := { Passed.refl s with }
  rw [waits_cons, turn_none (Bool.true_or _)]
  cases hproceed : (start { s with history := [] }).proceed with
  | mk v' outcome =>
      obtain ⟨hdraws, hgoesOn⟩ := proceed_draws hunpaused hpassed hproceed
      have hfirst : Draws s (start { s with history := [] }) v' [s.sim.tick] := by
        have hdue : (start { s with history := [] }).drawDue = true := Bool.or_true _
        rwa [if_pos hdue, Int.natCast_zero, Int.add_zero] at hdraws
      cases outcome with
      | running =>
          obtain ⟨hredraw', hpassed'⟩ := hgoesOn rfl
          obtain ⟨n, hle, hrest, hcount⟩ := waits_draws hunpaused hpassed' hredraw' rest
          exact ⟨n, hle, hfirst.trans hrest, hcount⟩
      | stopped exit => exact ⟨0, Nat.zero_le _, hfirst, fun hrunning => by cases hrunning⟩
      | failed failure => exact ⟨0, Nat.zero_le _, hfirst, fun hrunning => by cases hrunning⟩

/-- **Only the first frame of a run can be of a negative tick.** A session that is not paused is run
while nobody types, for any number of turns and whenever the time for a tick comes; the run may be
still going on, be done, or have failed, and a run that never waits is among them. Its first frame
is of the tick that it starts at. All later ones are of ticks that are not negative: of the ticks
from the first on, one for every further turn whose time has come, they are the multiples of the
interval. So a run shows a negative tick exactly if it starts at one. Every frame shows the
simulation as it is at its tick. -/
theorem negative_only_first {s : Session} (hunpaused : s.sim.paused = false) :
    (∃ dues, dues ≠ [] ∧ (start { s with history := [] }).waits dues =
      (start { s with history := [] }).run []) ∧
    ∀ dues, dues ≠ [] → ∃ first later n,
      ((start { s with history := [] }).waits dues).1.drawn = first :: later ∧
        first.sim.tick = s.sim.tick ∧
        (∀ f ∈ later, 0 ≤ f.sim.tick) ∧
        later.map (fun f => f.sim.tick) = s.dueTicks 0 n ∧
        n ≤ dues.tail.count true ∧
        (((start { s with history := [] }).waits dues).2 = .running →
          n = dues.tail.count true) ∧
        ((∃ f ∈ first :: later, f.sim.tick < 0) ↔ s.sim.tick < 0) ∧
        ∀ f ∈ first :: later, s.Depicts f := by
  constructor
  · exact ⟨List.replicate (s.ticksLeft + 2) true, by simp, waits_replicate _ _⟩
  · intro dues hturns
    obtain ⟨due, rest, rfl⟩ := List.exists_cons_of_ne_nil hturns
    obtain ⟨n, hle, ⟨frames, hdrawn, hticks, hdepicts⟩, hcount⟩ := start_draws hunpaused due rest
    obtain ⟨first, later, rfl, hfirst, hlater⟩ := List.map_eq_cons_iff.mp hticks
    have hnonneg : ∀ f ∈ later, 0 ≤ f.sim.tick := by
      intro f hf
      have hdue : f.sim.tick ∈ s.dueTicks 0 n := by
        rw [← hlater]
        exact List.mem_map_of_mem hf
      exact nonneg_of_mem_dueTicks hdue
    refine ⟨first, later, n, hdrawn, hfirst, hnonneg, hlater, hle, hcount, ?_, hdepicts⟩
    constructor
    · rintro ⟨f, hf, hnegative⟩
      rcases List.mem_cons.mp hf with rfl | hf
      · exact hfirst ▸ hnegative
      · exact absurd hnegative (Int.not_lt.mpr (hnonneg f hf))
    · intro hnegative
      exact ⟨first, List.mem_cons_self, hfirst.symm ▸ hnegative⟩

/-- A session that starts one tick before its last one, at a negative tick. -/
def waking : Except StartError Session :=
  (Session.start
    { dimensions := "2x1".toList
      rules := "/".toList
      seed := "S".toList
      board := some "10".toList
      tick := -1
      maxTicks := some 0 }
    ⟨80, 24⟩ "frames".toList { root := .empty, present := [] } []).outcome

theorem negative_only_first_waking :
    ∃ (s : Session) (first : Frame) (later : List Frame), waking = .ok s ∧
      s.sim.paused = false ∧ ([false, true, false, true] : List Bool) ≠ [] ∧
      ((start { s with history := [] }).waits [false, true, false, true]).1.drawn =
        first :: later ∧
      first.sim.tick = -1 ∧ later.length = 1 ∧ ∀ f ∈ later, 0 ≤ f.sim.tick := by
  have hfacts : waking.toOption.any (fun s => decide (s.sim.paused = false ∧ s.sim.tick = -1 ∧
      ((start { s with history := [] }).waits [false, true, false, true]).1.drawn.length = 2)) =
        true := by
    decide +kernel
  obtain ⟨s, hs, hfacts⟩ := (Option.any_eq_true _ _).mp hfacts
  obtain ⟨hunpaused, htick, hlength⟩ := of_decide_eq_true hfacts
  have hturns : ([false, true, false, true] : List Bool) ≠ [] := by decide
  obtain ⟨first, later, _, hdrawn, hfirst, hnonneg, _⟩ :=
    (negative_only_first hunpaused).2 _ hturns
  rw [hdrawn, List.length_cons] at hlength
  exact ⟨s, first, later, Outcome.toOption_eq_some_iff.mp hs, hunpaused, hturns, hdrawn,
    hfirst.trans htick, by omega, hnonneg⟩

/-- The tick before tick zero is shown although nobody asks for it. -/
theorem negative_tick_drawn :
    ∃ s, waking = .ok s ∧ s.sim.paused = false ∧ (s.terminal []).2.2 = .stopped .done ∧
      ∃ f ∈ (s.terminal []).1.acts.filterMap Act.drawn?, f.sim.tick < 0 := by
  have hfacts : waking.toOption.any (fun s => decide (s.sim.paused = false ∧
      (s.terminal []).2.2 = .stopped .done ∧
      ((s.terminal []).1.acts.filterMap Act.drawn?).any (fun f => f.sim.tick < 0) = true)) =
        true := by
    decide +kernel
  obtain ⟨s, hs, hfacts⟩ := (Option.any_eq_true _ _).mp hfacts
  obtain ⟨hunpaused, hdone, hnegative⟩ := of_decide_eq_true hfacts
  obtain ⟨f, hf, htick⟩ := List.any_eq_true.mp hnegative
  exact ⟨s, Outcome.toOption_eq_some_iff.mp hs, hunpaused, hdone, f, hf, of_decide_eq_true htick⟩

end TerminalView

end TorusAutomaton.Session
