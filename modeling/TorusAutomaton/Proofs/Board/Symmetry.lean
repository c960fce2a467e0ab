import Mathlib.Algebra.BigOperators.Intervals
import TorusAutomaton.Simulation.Basic
import TorusAutomaton.Proofs.Board.Plane
import TorusAutomaton.Proofs.Board.Population

/-!
# Symmetries of the torus

Shifting a board around the torus, mirroring it, turning it upside down and swapping its columns
with its rows are motions of the plane that it stands for. A motion takes the eight cells around a
cell to the eight cells around another one, so the automaton on the plane cannot tell a plane from a
moved one, and neither can the automaton on boards. The sides of the board play no part in this, not
even where they are shorter than three cells.
-/

namespace TorusAutomaton

namespace Plane

/-- A motion of the plane: cells go to their places, and directions turn with them. -/
structure Motion where
  place : Int × Int → Int × Int
  turn : Int × Int → Int × Int
  place_add : ∀ p d, place (p + d) = place p + turn d
  turn_injective : Function.Injective turn
  around_turn : around.image turn = around

/-- The plane that shows at every position the cell at the place of that position. -/
def moved (m : Motion) (f : Plane) : Plane := fun x y => f (m.place (x, y)).1 (m.place (x, y)).2

/-- First one motion and then another: the places of the second are looked up in the first. -/
def Motion.trans (first second : Motion) : Motion where
  place := first.place ∘ second.place
  turn := first.turn ∘ second.turn
  place_add p d := by simp only [Function.comp_apply, second.place_add, first.place_add]
  turn_injective := first.turn_injective.comp second.turn_injective
  around_turn := by rw [← Finset.image_image, second.around_turn, first.around_turn]

/-! ## Steps of a moved plane -/

theorem neighbours_moved (m : Motion) (f : Plane) (x y : Int) :
    (f.moved m).neighbours x y = f.neighbours (m.place (x, y)).1 (m.place (x, y)).2 := by
  have hplace : ∀ d : Int × Int, f.moved m (x + d.1) (y + d.2) =
      f ((m.place (x, y)).1 + (m.turn d).1) ((m.place (x, y)).2 + (m.turn d).2) := by
    intro d
    have h := m.place_add (x, y) d
    simp only [moved]
    rw [show (x + d.1, y + d.2) = (x, y) + d from rfl, h]
    rfl
  calc (f.moved m).neighbours x y
      = (around.filter fun d => f ((m.place (x, y)).1 + (m.turn d).1)
          ((m.place (x, y)).2 + (m.turn d).2) = true).card := by
        simp only [neighbours, hplace]
    _ = ((around.image m.turn).filter fun d => f ((m.place (x, y)).1 + d.1)
          ((m.place (x, y)).2 + d.2) = true).card := by
        rw [Finset.filter_image, Finset.card_image_of_injective _ m.turn_injective]
    _ = f.neighbours (m.place (x, y)).1 (m.place (x, y)).2 := by
        rw [m.around_turn, neighbours]

theorem step_moved (m : Motion) (tables : List Rule.Table) (tick : Int) (f : Plane) :
    step tables tick (f.moved m) = (step tables tick f).moved m := by
  ext x y
  simp only [step, neighbours_moved, moved]

theorem run_moved (m : Motion) (tables : List Rule.Table) (tick : Int) (n : Nat) (f : Plane) :
    run tables tick n (f.moved m) = (run tables tick n f).moved m := by
  induction n generalizing tick f with
  | zero => rfl
  | succ n ih => rw [run, step_moved, ih, run]

end Plane

namespace Board

/-! ## Sums around the torus -/

/-- A sum over a whole period is the same wherever the period starts. -/
theorem sum_range_shift {n : Nat} (f : Int → Nat) (hf : ∀ x, f (x + n) = f x) (d : Int) :
    ∑ x ∈ Finset.range n, f (x - d) = ∑ x ∈ Finset.range n, f x := by
  -- A start that is one earlier takes in a term that is equal to the one it leaves out.
  have hnext : ∀ d : Int,
      ∑ x ∈ Finset.range n, f (x - (d + 1)) = ∑ x ∈ Finset.range n, f (x - d) := by
    intro d
    have hfront := Finset.sum_range_succ' (fun x : Nat => f (x - (d + 1))) n
    have hback := Finset.sum_range_succ (fun x : Nat => f (x - (d + 1))) n
    have hends : f (n - (d + 1)) = f ((0 : Nat) - (d + 1)) := by
      rw [← hf ((0 : Nat) - (d + 1))]
      congr 1
      omega
    have hterm : ∀ x : Nat, f ((x + 1 : Nat) - (d + 1)) = f (x - d) := by
      intro x
      congr 1
      omega
    simp only [hterm] at hfront
    omega
  induction d using Int.induction_on with
  | zero => simp only [sub_zero]
  | succ i ih => rw [hnext, ih]
  | pred i ih => rw [← hnext, Int.sub_add_cancel, ih]

/-- A sum over a period that is gone through backwards. -/
theorem sum_range_mirror {n : Nat} (f : Int → Nat) (hf : ∀ x, f (x + n) = f x) :
    ∑ x ∈ Finset.range n, f (-1 - x) = ∑ x ∈ Finset.range n, f x := by
  rw [← Finset.sum_range_reflect]
  apply Finset.sum_congr rfl
  intro x hx
  have hx := Finset.mem_range.mp hx
  have hplace : -1 - ((n - 1 - x : Nat) : Int) + n = x := by omega
  rw [← hf, hplace]

theorem weight_add_width (b : Board) (y x : Int) : b.weight (x + b.width) y = b.weight x y := by
  rw [weight, b.get_congr (Int.add_emod_right ..) rfl, weight]

theorem weight_add_height (b : Board) (x y : Int) : b.weight x (y + b.height) = b.weight x y := by
  rw [weight, b.get_congr rfl (Int.add_emod_right ..), weight]

/-- Number of live cells of a row. -/
def rowWeight (b : Board) (y : Int) : Nat := ∑ x ∈ Finset.range b.width, b.weight x y

theorem rowWeight_add_height (b : Board) (y : Int) : b.rowWeight (y + b.height) = b.rowWeight y :=
  Finset.sum_congr rfl fun x _ => b.weight_add_height x y

/-! ## Symmetries -/

/-- The symmetries of boards of every size, and what comes of one after the other. -/
inductive Symmetry
  | shift (dx dy : Int)
  | mirror
  | flip
  | transpose
  | compose (first second : Symmetry)

namespace Symmetry

/-- The board as it looks after the symmetry. Cells that are shifted over an edge come back at the
opposite one; the transposition alone swaps the sides. -/
def apply : Symmetry → Board → Board
  | .shift dx dy, b => tabulate b.width b.height b.width_pos b.height_pos fun x y =>
      b.get (x - dx) (y - dy)
  | .mirror, b => tabulate b.width b.height b.width_pos b.height_pos fun x y =>
      b.get (b.width - 1 - x) y
  | .flip, b => tabulate b.width b.height b.width_pos b.height_pos fun x y =>
      b.get x (b.height - 1 - y)
  | .transpose, b => tabulate b.height b.width b.height_pos b.width_pos fun x y => b.get y x
  | .compose first second, b => second.apply (first.apply b)

/-- The motion of the plane behind a symmetry. It needs no sides: the last column of a board is also
the one before the first. -/
def motion : Symmetry → Plane.Motion
  | .shift dx dy =>
    { place := fun p => (p.1 - dx, p.2 - dy)
      turn := id
      place_add := fun p d => by ext <;> simp <;> omega
      turn_injective := Function.injective_id
      around_turn := by decide }
  | .mirror =>
    { place := fun p => (-1 - p.1, p.2)
      turn := fun d => (-d.1, d.2)
      place_add := fun p d => by ext <;> simp; omega
      turn_injective := fun d e h => by simpa [Prod.ext_iff] using h
      around_turn := by decide }
  | .flip =>
    { place := fun p => (p.1, -1 - p.2)
      turn := fun d => (d.1, -d.2)
      place_add := fun p d => by ext <;> simp; omega
      turn_injective := fun d e h => by simpa [Prod.ext_iff] using h
      around_turn := by decide }
  | .transpose =>
    { place := Prod.swap
      turn := Prod.swap
      place_add := fun p d => rfl
      turn_injective := Prod.swap_injective
      around_turn := by decide }
  | .compose first second => first.motion.trans second.motion

/-! ## What is seen of a symmetry -/

/-- The plane of a board whose cells are those of another board at some places. Two ways to say the
places may differ by whole turns around the other board. -/
theorem plane_tabulate {width height : Nat} (hw : 0 < width) (hh : 0 < height) (b : Board)
    (m : Plane.Motion) (f : Int → Int → Int × Int)
    (hcolumn : ∀ x y, (f (x % width) (y % height)).1 % b.width = (m.place (x, y)).1 % b.width)
    (hrow : ∀ x y, (f (x % width) (y % height)).2 % b.height = (m.place (x, y)).2 % b.height) :
    (tabulate width height hw hh fun x y => b.get (f x y).1 (f x y).2).plane = b.plane.moved m := by
  ext x y
  have hx := Int.emod_nonneg x (by omega : (width : Int) ≠ 0)
  have hy := Int.emod_nonneg y (by omega : (height : Int) ≠ 0)
  show (tabulate width height hw hh _).get x y = b.get _ _
  rw [get_tabulate, Int.toNat_of_nonneg hx, Int.toNat_of_nonneg hy]
  exact b.get_congr (hcolumn x y) (hrow x y)

theorem emod_mirror (n : Nat) (x : Int) : ((n : Int) - 1 - x % n) % n = (-1 - x) % n := by
  have hturn : (n : Int) - 1 - x % n = -1 - x % n + n := by omega
  rw [hturn, Int.add_emod_right, Int.sub_emod_emod]

theorem plane_apply (s : Symmetry) (b : Board) : (s.apply b).plane = b.plane.moved s.motion := by
  induction s generalizing b with
  | shift dx dy =>
      exact plane_tabulate b.width_pos b.height_pos b (shift dx dy).motion
        (fun x y => (x - dx, y - dy)) (fun _ _ => Int.emod_sub_emod ..)
        (fun _ _ => Int.emod_sub_emod ..)
  | mirror =>
      exact plane_tabulate b.width_pos b.height_pos b mirror.motion
        (fun x y => (b.width - 1 - x, y)) (fun x _ => emod_mirror b.width x)
        (fun _ _ => Int.emod_emod ..)
  | flip =>
      exact plane_tabulate b.width_pos b.height_pos b flip.motion
        (fun x y => (x, b.height - 1 - y)) (fun _ _ => Int.emod_emod ..)
        (fun _ y => emod_mirror b.height y)
  | transpose =>
      exact plane_tabulate b.height_pos b.width_pos b transpose.motion
        (fun x y => (y, x)) (fun _ _ => Int.emod_emod ..) (fun _ _ => Int.emod_emod ..)
  | compose first second ih ih' =>
      show (second.apply (first.apply b)).plane = _
      rw [ih', ih]
      rfl

/-- The sides after a symmetry depend on the sides before it alone. -/
theorem size_apply (s : Symmetry) {a b : Board} (hw : a.width = b.width)
    (hh : a.height = b.height) :
    (s.apply a).width = (s.apply b).width ∧ (s.apply a).height = (s.apply b).height := by
  induction s generalizing a b with
  | shift dx dy => exact ⟨hw, hh⟩
  | mirror => exact ⟨hw, hh⟩
  | flip => exact ⟨hw, hh⟩
  | transpose => exact ⟨hh, hw⟩
  | compose first second ih ih' =>
      obtain ⟨hw, hh⟩ := ih hw hh
      exact ih' hw hh

theorem apply_run (s : Symmetry) (rule : Rule) (tick : Int) (n : Nat) (b : Board) :
    (s.apply b).run rule tick n = s.apply (b.run rule tick n) := by
  obtain ⟨hw, hh⟩ := s.size_apply (width_run rule tick n b) (height_run rule tick n b)
  apply eq_of_plane_eq
  · rw [width_run, hw]
  · rw [height_run, hh]
  · rw [plane_run, plane_apply, Plane.run_moved, plane_apply, plane_run]

/-! ## Populations -/

theorem weight_apply (s : Symmetry) (b : Board) (x y : Int) :
    (s.apply b).weight x y = b.weight (s.motion.place (x, y)).1 (s.motion.place (x, y)).2 := by
  have hget : (s.apply b).get x y = b.get (s.motion.place (x, y)).1 (s.motion.place (x, y)).2 :=
    congrFun (congrFun (s.plane_apply b) x) y
  rw [weight, weight, hget]

/-- Symmetries kill no cell and make none. -/
theorem population_apply (s : Symmetry) (b : Board) : (s.apply b).population = b.population := by
  induction s generalizing b with
  | shift dx dy =>
      simp only [population_eq_sum_weight, weight_apply]
      calc ∑ y ∈ Finset.range b.height, ∑ x ∈ Finset.range b.width, b.weight (x - dx) (y - dy)
          = ∑ y ∈ Finset.range b.height, b.rowWeight (y - dy) :=
            Finset.sum_congr rfl fun y _ =>
              sum_range_shift (fun x => b.weight x (y - dy)) (b.weight_add_width (y - dy)) dx
        _ = ∑ y ∈ Finset.range b.height, b.rowWeight y :=
            sum_range_shift b.rowWeight b.rowWeight_add_height dy
  | mirror =>
      simp only [population_eq_sum_weight, weight_apply]
      exact Finset.sum_congr rfl fun y _ =>
        sum_range_mirror (fun x => b.weight x y) (b.weight_add_width y)
  | flip =>
      simp only [population_eq_sum_weight, weight_apply]
      exact sum_range_mirror b.rowWeight b.rowWeight_add_height
  | transpose =>
      simp only [population_eq_sum_weight, weight_apply]
      exact Finset.sum_comm
  | compose first second ih ih' => exact (ih' _).trans (ih b)

end Symmetry

/-- **Stepping commutes with the symmetries of the torus.** Whatever the size of the board, the
rule, the first tick and the number of steps, a board and the same board seen through a symmetry
stay related by this symmetry, and so do the boards that post-processing makes of them; at any time
both have as many live cells. -/
theorem run_commutes_with_symmetry (s : Symmetry) (rule : Rule) (tick : Int) (n : Nat) (b : Board) :
    (s.apply b).run rule tick n = s.apply (b.run rule tick n) ∧
      Simulation.derive rule n (s.apply b) = s.apply (Simulation.derive rule n b) ∧
      (s.apply b).population = b.population ∧
      ((s.apply b).run rule tick n).population = (b.run rule tick n).population := by
  refine ⟨s.apply_run rule tick n b, s.apply_run rule 0 n b, s.population_apply b, ?_⟩
  rw [s.apply_run, s.population_apply]

/-- A live and a dead cell side by side, shifted to the left over the edge and transposed. -/
example : ((Symmetry.compose (.shift (-1) 0) .transpose).apply pair).rows = [[false], [true]] := by
  decide

end Board

end TorusAutomaton
