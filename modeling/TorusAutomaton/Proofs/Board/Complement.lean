import TorusAutomaton.Random.Keystream
import TorusAutomaton.View.Screen
import TorusAutomaton.Proofs.Board.Plane
import TorusAutomaton.Proofs.Board.Population
import TorusAutomaton.Proofs.Rule.Dual

/-!
# Boards with life and death exchanged

In the complement of a board the dead cells are alive and the live ones dead. Each of the eight
neighbours of a cell is alive on one of the two boards, in whatever directions the same cell may be
found, so the counts of the two boards add up to eight. Hence the complement under the dual of a
rule takes the course of the board under the rule, with life and death exchanged at every tick.
-/

namespace TorusAutomaton.Board

open TorusAutomaton Text Outcome

/-- The board that is alive where `b` is dead. -/
def complement (b : Board) : Board :=
  tabulate b.width b.height b.width_pos b.height_pos fun x y => !b.get x y

@[simp] theorem width_complement (b : Board) : b.complement.width = b.width := rfl

@[simp] theorem height_complement (b : Board) : b.complement.height = b.height := rfl

@[simp] theorem get_complement (b : Board) (x y : Int) : b.complement.get x y = !b.get x y := by
  have hx : (b.column x : Int) % b.width = x % b.width := by rw [natCast_column, Int.emod_emod]
  have hy : (b.row y : Int) % b.height = y % b.height := by rw [natCast_row, Int.emod_emod]
  rw [complement, get_tabulate]
  exact congrArg not (b.get_congr hx hy)

/-! ## Runs -/

theorem neighbours_complement (b : Board) (x y : Int) :
    b.complement.neighbours x y = 8 - b.neighbours x y := by
  have hsplit := List.length_eq_countP_add_countP (fun d : Int × Int => b.get (x + d.1) (y + d.2))
    (l := directions)
  have hlength : directions.length = 8 := rfl
  have hdead : b.complement.neighbours x y =
      directions.countP fun d => decide ¬b.get (x + d.1) (y + d.2) = true := by
    simp only [neighbours, get_complement, Bool.not_eq_true, Bool.decide_eq_false]
  rw [hlength, ← hdead] at hsplit
  simp only [neighbours] at hsplit ⊢
  omega

theorem step_dual (rule : Rule) (tick : Int) (b : Board) :
    b.complement.step rule.dual tick = (b.step rule tick).complement := by
  refine ext_get (a := b.complement.step rule.dual tick) rfl rfl fun x y => ?_
  rw [get_step, get_complement, get_complement, get_step, neighbours_complement,
    Rule.tableAt_dual, Rule.Table.next_dual _ _ (b.neighbours_le x y)]

theorem run_dual (rule : Rule) (tick : Int) (n : Nat) (b : Board) :
    b.complement.run rule.dual tick n = (b.run rule tick n).complement := by
  induction n generalizing tick b with
  | zero => rfl
  | succ n ih => rw [run, step_dual, ih, run]

/-! ## What is seen of the complement -/

theorem rows_complement (b : Board) : b.complement.rows = b.rows.map (List.map not) := by
  simp [rows, Function.comp_def]

/-- A frame of the complement is the inverted frame of the board, and conversely. -/
theorem lines_complement (tiles : View.Tiles) (inverted : Bool) (b : Board) :
    View.lines tiles inverted b.complement = View.lines tiles (!inverted) b := by
  have htile : ∀ alive, tiles.of inverted (!alive) = tiles.of (!inverted) alive := by
    intro alive
    cases inverted <;> cases alive <;> rfl
  simp [View.lines, rows_complement, Function.comp_def, htile]

/-- Every cell is alive on one of the two boards. -/
theorem population_complement_add (b : Board) :
    b.complement.population + b.population = b.total := by
  have hweight : ∀ x y : Int, b.complement.weight x y + b.weight x y = 1 := by
    intro x y
    rw [weight, weight, get_complement]
    cases b.get x y <;> rfl
  calc b.complement.population + b.population
      = ∑ y ∈ Finset.range b.height, ∑ x ∈ Finset.range b.width,
          (b.complement.weight x y + b.weight x y) := by
        simp only [population_eq_sum_weight, Finset.sum_add_distrib, width_complement,
          height_complement]
    _ = ∑ y ∈ Finset.range b.height, b.width := by
        simp only [hweight, ← Finset.card_eq_sum_ones, Finset.card_range]
    _ = b.height * b.width := by
        rw [Finset.sum_const_nat fun _ _ => rfl, Finset.card_range]
    _ = b.total := by rw [total, size_eq, Nat.mul_comm]

theorem total_run (rule : Rule) (tick : Int) (n : Nat) (b : Board) :
    (b.run rule tick n).total = b.total := by
  rw [total, size_eq, width_run, height_run, total, size_eq]

/-- **Life and death are exchanged by the dual rule.** A rule text without directives that is read
has a dual text that is read too, from any source of random words, as a rule with as many tables.
Whatever the board, the first tick and the number of steps, the complement of the board runs under
it to the complement of what the board runs to. So the plain frame of the one is the inverted frame
of the other, and the two together have as many live cells as there are cells. -/
theorem complement_runs_under_dual {σ : Type} [Random.Source σ] {t : Text} {source source' : σ}
    {r : Rule} (h : Rule.parse t source = .ok (r, source')) (hliteral : Rule.Literal t) :
    ∃ r' : Rule,
      (∀ other : σ, Rule.parse (Rule.dualText t) other = .ok (r', other)) ∧
      r'.tables.length = r.tables.length ∧
      ∀ (b : Board) (tick : Int) (n : Nat),
        b.complement.run r' tick n = (b.run r tick n).complement ∧
        (∀ tiles : View.Tiles, View.lines tiles false (b.complement.run r' tick n) =
          View.lines tiles true (b.run r tick n)) ∧
        (b.complement.run r' tick n).population + (b.run r tick n).population = b.total := by
  refine ⟨r.dual, fun other => Rule.parse_dualText h hliteral other, r.length_tables_dual, ?_⟩
  intro b tick n
  rw [run_dual]
  refine ⟨rfl, fun tiles => lines_complement tiles false _, ?_⟩
  rw [population_complement_add, total_run]

/-- A rule of three tables on a board so low that a cell is its own neighbour. -/
theorem complement_runs_under_dual_pair :
    ∃ r source' r',
      Rule.parse "+2x5/25,/018".toList (Random.Keystream.ofNumber 7) = .ok (r, source') ∧
      Rule.Literal "+2x5/25,/018".toList ∧
      Rule.parse (Rule.dualText "+2x5/25,/018".toList) (Random.Keystream.ofNumber 8) =
        .ok (r', Random.Keystream.ofNumber 8) ∧
      r'.tables.length = r.tables.length ∧
      pair.complement.run r' (-2) 3 = (pair.run r (-2) 3).complement := by
  have hread : ((Rule.parse "+2x5/25,/018".toList (Random.Keystream.ofNumber 7)).toOption).isSome =
      true := by
    decide +kernel
  obtain ⟨⟨r, source'⟩, hok⟩ := Option.isSome_iff_exists.mp hread
  have hok := toOption_eq_some_iff.mp hok
  have hliteral : Rule.Literal "+2x5/25,/018".toList := by decide
  obtain ⟨r', hdual, hlength, hrun⟩ := complement_runs_under_dual hok hliteral
  exact ⟨r, source', r', hok, hliteral, hdual _, hlength, (hrun pair (-2) 3).1⟩

end TorusAutomaton.Board
