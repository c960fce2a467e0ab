import TorusAutomaton.Simulation.Create
import TorusAutomaton.Proofs.Outcome

/-!
# Creation taken apart

Creating a simulation is a sequence of checks and readings, and the journal that is kept on the way
does not matter to its result. Here the result is described by the results of the steps.
-/

namespace TorusAutomaton

namespace Journal.Kept

variable {ε α β δ : Type}

@[simp] theorem outcome_pure (a : α) : (pure a : Kept ε α).outcome = .ok a := rfl

@[simp] theorem outcome_note (e : Event) : (note e : Kept ε Unit).outcome = .ok () := rfl

@[simp] theorem outcome_lift (x : Except ε α) : (liftM x : Kept ε α).outcome = x := rfl

@[simp] theorem outcome_mapError (f : ε → δ) (x : Kept ε α) :
    (x.mapError f).outcome = x.outcome.mapError f := rfl

end Journal.Kept

namespace Simulation

open TorusAutomaton Text Journal Outcome

/-- The seed as a simulation keeps it. A given board adds a question mark, since the seed does not
tell the board. -/
def Config.markedSeed (c : Config) (fresh : Text) : Text :=
  if c.board.isSome then (c.chooseSeed fresh).1 ++ ['?'] else (c.chooseSeed fresh).1

/-- The simulation that is created once everything has been read. -/
def Config.assemble (c : Config) (fresh : Text) (rule : Rule) (postRule : Option Rule)
    (board : Board) (selection : Option TickSet) : Simulation where
  board := board
  rule := rule
  tick := c.startTick
  seed := c.markedSeed fresh
  seedGenerated := (c.chooseSeed fresh).2
  paused := c.paused
  flicker := .start c.flickerMode board.population (board.total - board.population)
  post := postRule.map fun r =>
    { rule := r, ticks := c.postTicks, board := derive r c.postTicks board }
  selection := selection
  drawEvery := c.drawEvery
  lastTick := c.lastTick

/-- **A simulation is created when every step succeeds**, and it is put together from their
results. -/
theorem create_eq_ok_iff {c : Config} {fresh : Text} {s : Simulation} :
    create c fresh = .ok s ↔
      c.checkNumbers = .ok () ∧ ∃ rule source postRule source' board selection,
        Rule.parse c.rule (Random.Keystream.ofSeed (c.chooseSeed fresh).1) = .ok (rule, source) ∧
        c.readPostRule source = .ok (postRule, source') ∧
        (c.firstBoard source').outcome = .ok board ∧
        c.readSelection.outcome = .ok selection ∧
        s = c.assemble fresh rule postRule board selection := by
  simp only [create, build, Kept.outcome_bind, Kept.outcome_lift, Kept.outcome_note,
    Kept.outcome_pure, bind_eq_ok_iff, mapError_eq_ok_iff, Prod.exists, Except.ok.injEq,
    exists_const, true_and]
  constructor
  · rintro ⟨_, hnumbers, rule, source, hrule, postRule, source', hpost, board, hboard, selection,
      hselection, rfl⟩
    exact ⟨hnumbers, rule, source, postRule, source', board, selection, hrule, hpost, hboard,
      hselection, rfl⟩
  · rintro ⟨hnumbers, rule, source, postRule, source', board, selection, hrule, hpost, hboard,
      hselection, rfl⟩
    exact ⟨_, hnumbers, rule, source, hrule, postRule, source', hpost, board, hboard, selection,
      hselection, rfl⟩

/-! ## Single steps -/

theorem checkNumbers_eq_ok_iff {c : Config} :
    c.checkNumbers = .ok () ↔
      (0 ≤ c.fill ∧ c.fill ≤ 1) ∧ c.drawEvery ≠ 0 ∧ c.drawEvery ≤ Numeral.maxI64 ∧
        ∀ last ∈ c.lastTick, last ≤ Numeral.maxI64 := by
  simp only [Config.checkNumbers, throw_eq_error, error_bind, pure_eq_ok, check_eq_ok_iff]
  cases c.lastTick with
  | none => simp
  | some last => simp

variable {σ : Type} [Random.Source σ]

theorem readPostRule_eq_ok_iff {c : Config} {source source' : σ} {postRule : Option Rule} :
    c.readPostRule source = .ok (postRule, source') ↔
      (∃ t rule, c.postRule = some t ∧ 0 < c.postTicks ∧ postRule = some rule ∧
        Rule.parse t source = .ok (rule, source')) ∨
      ((c.postRule = none ∨ c.postTicks = 0) ∧ postRule = none ∧ source' = source) := by
  unfold Config.readPostRule
  split
  · rename_i t hrule
    split
    · rename_i hticks
      have hpositive : c.postTicks ≠ 0 := Nat.ne_of_gt hticks
      cases hparse : Rule.parse t source with
      | ok result =>
          obtain ⟨rule, rest⟩ := result
          simp only [hrule, hpositive, Except.ok.injEq, Prod.mk.injEq, Option.some.injEq,
            reduceCtorEq, or_self, false_and, or_false]
          constructor
          · rintro ⟨rfl, rfl⟩
            exact ⟨t, rule, rfl, hticks, rfl, hparse⟩
          · rintro ⟨_, rule', rfl, _, rfl, hparse'⟩
            cases hparse.symm.trans hparse'
            exact ⟨rfl, rfl⟩
      | error e => simp [hrule, hpositive, hparse]
    · rename_i hticks
      have hzero : c.postTicks = 0 := Nat.eq_zero_of_not_pos hticks
      simp [hzero, eq_comm]
  · rename_i hrule
    simp [hrule, eq_comm]

end Simulation

end TorusAutomaton
