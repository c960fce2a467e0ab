import TorusAutomaton.Proofs.Board.Plane

/-!
# How far a cell is felt

A cell looks one cell far in every direction, so what happens on a plane is felt at most one cell
further at every tick. Two planes that look alike from a cell as far as it can be reached in some
steps agree at this cell after the steps. If no dead cell comes alive without live neighbours, a
plane without life is one of those, and so life only comes from where it can have spread from. On a
board this holds as it does on its plane, however often the surroundings of a cell go round the
board and meet themselves.
-/

namespace TorusAutomaton

namespace Plane

/-- Planes that look alike from a cell, up to `n` cells away in both axes. -/
def SameWithin (n : Nat) (x y : Int) (f g : Plane) : Prop :=
  ∀ i j : Int, i.natAbs ≤ n → j.natAbs ≤ n → f (x + i) (y + j) = g (x + i) (y + j)

/-- A plane without life. -/
def lifeless : Plane := fun _ _ => false

/-- Under none of the tables a dead cell comes alive without live neighbours. -/
def Barren (tables : List Rule.Table) : Prop := ∀ table ∈ tables, table.born.has 0 = false

variable {tables : List Rule.Table} {tick : Int} {n : Nat} {x y : Int} {f g : Plane}

/-! ## Planes that look alike -/

theorem near_of_mem_around : ∀ d ∈ around, d.1.natAbs ≤ 1 ∧ d.2.natAbs ≤ 1 := by decide

namespace SameWithin

theorem here (h : SameWithin n x y f g) : f x y = g x y := by
  have h := h 0 0 (Nat.zero_le n) (Nat.zero_le n)
  rwa [Int.add_zero, Int.add_zero] at h

theorem neighbours (h : SameWithin 1 x y f g) : f.neighbours x y = g.neighbours x y := by
  rw [Plane.neighbours, Plane.neighbours]
  congr 1
  apply Finset.filter_congr
  intro d hd
  obtain ⟨hi, hj⟩ := near_of_mem_around d hd
  rw [h d.1 d.2 hi hj]

/-- A step uses up one cell of what looks alike. -/
theorem step (h : SameWithin (n + 1) x y f g) :
    SameWithin n x y (Plane.step tables tick f) (Plane.step tables tick g) := by
  intro i j hi hj
  have hnear : SameWithin 1 (x + i) (y + j) f g := by
    intro i' j' hi' hj'
    rw [Int.add_assoc, Int.add_assoc]
    exact h (i + i') (j + j') (by omega) (by omega)
  simp only [Plane.step, hnear.here, hnear.neighbours]

theorem run (h : SameWithin n x y f g) :
    Plane.run tables tick n f x y = Plane.run tables tick n g x y := by
  induction n generalizing tick f g with
  | zero => exact h.here
  | succ n ih => exact ih h.step

end SameWithin

/-! ## Life -/

theorem neighbours_lifeless (x y : Int) : lifeless.neighbours x y = 0 := by
  simp [neighbours, lifeless]

theorem Barren.getD (h : Barren tables) (i : Nat) :
    (tables.getD i .still).born.has 0 = false := by
  rw [List.getD_eq_getElem?_getD]
  cases hi : tables[i]? with
  | none => decide
  | some table => exact h table (List.mem_of_getElem? hi)

theorem run_lifeless (h : Barren tables) (tick : Int) (n : Nat) :
    run tables tick n lifeless = lifeless := by
  have hstep : ∀ tick, step tables tick lifeless = lifeless := by
    intro tick
    ext x y
    rw [step, neighbours_lifeless]
    exact h.getD _
  induction n generalizing tick with
  | zero => rfl
  | succ n ih => rw [run, hstep, ih]

/-- Life is where it can have spread from. -/
theorem exists_live_of_run (h : Barren tables) (hlive : run tables tick n f x y = true) :
    ∃ i j : Int, i.natAbs ≤ n ∧ j.natAbs ≤ n ∧ f (x + i) (y + j) = true := by
  apply Classical.byContradiction
  intro hnone
  have hsame : SameWithin n x y f lifeless := by
    intro i j hi hj
    apply eq_false_of_ne_true
    intro hcell
    exact hnone ⟨i, j, hi, hj, hcell⟩
  rw [hsame.run, run_lifeless h] at hlive
  exact Bool.noConfusion hlive

end Plane

namespace Board

/-- **Influence spreads one cell a tick.** Boards that agree at all positions up to `n` cells away
from a cell agree at this cell after `n` steps. If the rule has no table under which a dead cell
comes alive without live neighbours, every live cell after `n` steps had a live cell up to `n` cells
away at the start, and a board without life stays as it is for ever. -/
theorem influence_spreads_slowly (rule : Rule) (tick : Int) (n : Nat) :
    (∀ (a b : Board) (x y : Int),
      (∀ i j : Int, i.natAbs ≤ n → j.natAbs ≤ n → a.get (x + i) (y + j) = b.get (x + i) (y + j)) →
        (a.run rule tick n).get x y = (b.run rule tick n).get x y) ∧
    ((∀ table ∈ rule.tables, table.born.has 0 = false) →
      (∀ (b : Board) (x y : Int), (b.run rule tick n).get x y = true →
        ∃ i j : Int, i.natAbs ≤ n ∧ j.natAbs ≤ n ∧ b.get (x + i) (y + j) = true) ∧
      ∀ b : Board, (∀ x y : Int, b.get x y = false) → b.run rule tick n = b) := by
  have hrun : ∀ (b : Board) (x y : Int),
      (b.run rule tick n).get x y = Plane.run rule.tables tick n b.plane x y :=
    fun b x y => congrFun (congrFun (plane_run rule tick n b) x) y
  refine ⟨?same, fun hbarren => ⟨?live, ?lifeless⟩⟩
  case same =>
    intro a b x y hsame
    rw [hrun, hrun]
    exact Plane.SameWithin.run hsame
  case live =>
    intro b x y hlive
    rw [hrun] at hlive
    exact Plane.exists_live_of_run hbarren hlive
  case lifeless =>
    intro b hdead
    have hplane : b.plane = Plane.lifeless := funext fun x => funext fun y => hdead x y
    apply eq_of_plane_eq (width_run rule tick n b) (height_run rule tick n b)
    rw [plane_run, hplane, Plane.run_lifeless hbarren]

/-- Dead cells come alive beside three live neighbours, and live cells never die. -/
def spreading : Rule where
  segments :=
    [{ multiplier := none, copies := 1, body := "/3".toList
       table := { dies := .ofDigits [], born := .ofDigits ['3'] } }]

/-- Six cells in a ring, one of them alive. On a ring a cell is found in three directions. -/
def ring : Board := tabulate 6 1 (by decide) Nat.one_pos fun x _ => x == 0

/-- The same ring with a second live cell opposite to the first. -/
def ringOfTwo : Board := tabulate 6 1 (by decide) Nat.one_pos fun x _ => x == 0 || x == 3

theorem influence_spreads_slowly_ring :
    (∀ i j : Int, i.natAbs ≤ 1 → j.natAbs ≤ 1 →
      ring.get (1 + i) (0 + j) = ringOfTwo.get (1 + i) (0 + j)) ∧
    (ring.run spreading 4 1).get 1 0 = (ringOfTwo.run spreading 4 1).get 1 0 ∧
    (∀ table ∈ spreading.tables, table.born.has 0 = false) ∧
    (ring.run spreading 4 2).get (-2) 0 = true ∧
    (∃ i j : Int, i.natAbs ≤ 2 ∧ j.natAbs ≤ 2 ∧ ring.get (-2 + i) (0 + j) = true) ∧
    (∀ x y : Int, (dead 6 1).get x y = false) ∧ (dead 6 1).run spreading (-3) 4 = dead 6 1 := by
  have hsame : ∀ i j : Int, i.natAbs ≤ 1 → j.natAbs ≤ 1 →
      ring.get (1 + i) (0 + j) = ringOfTwo.get (1 + i) (0 + j) := by
    intro i j hi hj
    obtain rfl | rfl | rfl : i = -1 ∨ i = 0 ∨ i = 1 := by omega
    all_goals obtain rfl | rfl | rfl : j = -1 ∨ j = 0 ∨ j = 1 := by omega
    all_goals decide
  have hbarren : ∀ table ∈ spreading.tables, table.born.has 0 = false := by decide
  have hlive : (ring.run spreading 4 2).get (-2) 0 = true := by decide +kernel
  have hdead : ∀ x y : Int, (dead 6 1).get x y = false := fun x y => by rw [dead, get_tabulate]
  exact ⟨hsame, (influence_spreads_slowly spreading 4 1).1 ring ringOfTwo 1 0 hsame, hbarren, hlive,
    ((influence_spreads_slowly spreading 4 2).2 hbarren).1 ring (-2) 0 hlive, hdead,
    ((influence_spreads_slowly spreading (-3) 4).2 hbarren).2 (dead 6 1) hdead⟩

end Board

end TorusAutomaton
