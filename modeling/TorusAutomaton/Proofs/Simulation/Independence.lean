import TorusAutomaton.Proofs.Simulation.Reached

/-!
# The second rule stays on the surface

What is shown may be derived by a second rule, but the simulation itself goes on as if there were
none. Two simulations that were created from one seed and differ in their second rule only answer
every question alike, except for what is to be shown. The one way from the second rule to the board
would be the source of random words, from which both rules and the board are drawn in turn: it is
closed unless a directive of the second rule is read before a random board is drawn.
-/

namespace TorusAutomaton

/-- A text without directives: no segment has a plus sign in its body. -/
def Rule.Undrawn (t : Text) : Prop := ∀ segment ∈ t.splitOn ',', '+' ∉ (splitSegment segment).2

instance Rule.decidableUndrawn (t : Text) : Decidable (Undrawn t) :=
  inferInstanceAs (Decidable (∀ segment ∈ t.splitOn ',', '+' ∉ (splitSegment segment).2))

namespace Simulation

open TorusAutomaton Text Journal Outcome

/-- Everything that can be asked about a simulation has the same answer for both, except what is to
be shown. -/
structure Agrees (s t : Simulation) : Prop where
  board : s.board = t.board
  tick : s.tick = t.tick
  alive : s.alive = t.alive
  dead : s.dead = t.dead
  total : s.total = t.total
  rule : s.rule.render = t.rule.render
  seed : s.seed = t.seed
  selection : s.selection = t.selection
  selected : s.selected = t.selected
  shouldDraw : s.shouldDraw = t.shouldDraw
  shouldSave : s.shouldSave = t.shouldSave
  finished : s.finished = t.finished
  inverted : s.inverted = t.inverted

/-- The answers to the questions about inversion among these operations. -/
def answers (s : Simulation) : List Operation → List Bool
  | [] => []
  | .ask :: rest => s.inverted :: answers s.asked rest
  | op :: rest => answers (s.perform op) rest

/-- The second rule, if it is read at all, has no directive. -/
def Config.PostUndrawn (c : Config) : Prop :=
  ∀ t ∈ c.postRule, 0 < c.postTicks → Rule.Undrawn t

/-- The cells of the first board are drawn at random. -/
def Config.DrawsBoard (c : Config) : Prop := c.board = none ∧ c.randomFill = true

/-! ## Going on alike -/

/-- Two simulations that differ in post-processing only. -/
def SamePrimary (s t : Simulation) : Prop := ∃ post, t = { s with post }

variable {s t : Simulation}

namespace SamePrimary

theorem agrees (h : s.SamePrimary t) : s.Agrees t := by
  obtain ⟨post, rfl⟩ := h
  constructor <;> rfl

theorem advance (h : s.SamePrimary t) : s.advance.SamePrimary t.advance := by
  obtain ⟨post, rfl⟩ := h
  exact ⟨_, rfl⟩

/-- No operation looks at post-processing. -/
theorem perform (h : s.SamePrimary t) (op : Operation) :
    (s.perform op).SamePrimary (t.perform op) := by
  have hadvance := h.advance
  obtain ⟨post, rfl⟩ := h
  cases op with
  | step =>
      show s.step.SamePrimary (step { s with post })
      unfold step
      split
      · exact ⟨post, rfl⟩
      · exact hadvance
  | advance => exact hadvance
  | togglePause => exact ⟨post, rfl⟩
  | cycleFlicker => exact ⟨post, rfl⟩
  | ask => exact ⟨post, rfl⟩

theorem performAll (h : s.SamePrimary t) (ops : List Operation) :
    (ops.foldl Simulation.perform s).SamePrimary (ops.foldl Simulation.perform t) := by
  induction ops generalizing s t with
  | nil => exact h
  | cons op rest ih => exact ih (h.perform op)

theorem answers (h : s.SamePrimary t) (ops : List Operation) : s.answers ops = t.answers ops := by
  induction ops generalizing s t with
  | nil => rfl
  | cons op rest ih =>
      have hrest := ih (h.perform op)
      cases op with
      | ask => exact congrArg₂ List.cons h.agrees.inverted hrest
      | step => exact hrest
      | advance => exact hrest
      | togglePause => exact hrest
      | cycleFlicker => exact hrest

end SamePrimary

end Simulation

/-! ## Created alike -/

namespace Rule

open TorusAutomaton Text TorusAutomaton.Random Outcome

variable {σ : Type} [Source σ]

/-- Reading segments without directives leaves the source as it was. -/
theorem source_of_readSegments {rule : Text} {parts : List Text} {source source' : σ}
    {segments : List Segment} (h : readSegments rule parts source = .ok (segments, source'))
    (hplain : ∀ t ∈ parts, '+' ∉ (splitSegment t).2) : source' = source := by
  induction parts generalizing source segments with
  | nil =>
      cases h
      rfl
  | cons t rest ih =>
      simp only [readSegments, bind_eq_ok_iff, pure_eq_ok, Except.ok.injEq, Prod.mk.injEq,
        Prod.exists] at h
      obtain ⟨first, source₁, hfirst, others, source₂, hothers, _, rfl⟩ := h
      obtain ⟨_, _, _, hresolve, _⟩ := readSegment_eq_ok_iff.mp hfirst
      have hplus : (splitSegment t).2.contains '+' = false := by
        simpa using hplain t List.mem_cons_self
      simp only [resolve, hplus, Bool.false_eq_true, if_false, Except.ok.injEq,
        Prod.mk.injEq] at hresolve
      rw [ih hothers fun t ht => hplain t (List.mem_cons_of_mem _ ht), hresolve.2]

theorem Undrawn.source_of_parse {t : Text} (hplain : Undrawn t) {source source' : σ} {r : Rule}
    (h : parse t source = .ok (r, source')) : source' = source := by
  simp only [parse, bind_eq_ok_iff, pure_eq_ok, Except.ok.injEq, Prod.mk.injEq, Prod.exists] at h
  obtain ⟨segments, _, hsegments, _, rfl⟩ := h
  exact source_of_readSegments hsegments hplain

end Rule

namespace Simulation

open TorusAutomaton Text Journal Outcome

variable {c : Config} {σ : Type} [Random.Source σ]

theorem Config.PostUndrawn.source_of_readPostRule (hplain : c.PostUndrawn) {source source' : σ}
    {postRule : Option Rule} (h : c.readPostRule source = .ok (postRule, source')) :
    source' = source := by
  rcases readPostRule_eq_ok_iff.mp h with ⟨t, rule, ht, hticks, _, hparse⟩ | ⟨_, _, rfl⟩
  · exact (hplain t ht hticks).source_of_parse hparse
  · rfl

/-- A board that is not drawn does not depend on the source. -/
theorem firstBoard_eq (h : ¬ c.DrawsBoard) (source source' : σ) :
    c.firstBoard source = c.firstBoard source' := by
  unfold Config.firstBoard
  split
  · rfl
  · rename_i hboard
    have hfill : c.randomFill = false := eq_false_of_ne_true fun hfill => h ⟨hboard, hfill⟩
    simp only [hfill, Bool.false_eq_true, if_false]

theorem chooseSeed_eq {seed : Text} (hseed : c.seed = some seed) (hgiven : seed ≠ generatedSeed)
    (fresh : Text) : c.chooseSeed fresh = (seed, false) := by
  simp only [Config.chooseSeed, hseed, if_neg hgiven]

variable {seed fresh fresh' : Text} {postRule : Option Text} {postTicks : Nat} {s t : Simulation}

/-- The second rule is read between the first one and the board, but it takes nothing from the
source that the board needs. -/
theorem samePrimary_of_create (hseed : c.seed = some seed) (hgiven : seed ≠ generatedSeed)
    (hplain : c.DrawsBoard → c.PostUndrawn ∧ ({ c with postRule, postTicks } : Config).PostUndrawn)
    (hs : create c fresh = .ok s) (ht : create { c with postRule, postTicks } fresh' = .ok t) :
    s.SamePrimary t := by
  obtain ⟨_, rule, source, second, rest, board, selection, hrule, hsecond, hboard, hselection,
    rfl⟩ := create_eq_ok_iff.mp hs
  obtain ⟨_, rule', source', second', rest', board', selection', hrule', hsecond', hboard',
    hselection', rfl⟩ := create_eq_ok_iff.mp ht
  have hchosen := chooseSeed_eq hseed hgiven fresh
  have hchosen' : ({ c with postRule, postTicks } : Config).chooseSeed fresh' = (seed, false) :=
    chooseSeed_eq hseed hgiven fresh'
  rw [hchosen] at hrule
  rw [hchosen'] at hrule'
  have hsame : (rule, source) = (rule', source') := Except.ok.inj (hrule.symm.trans hrule')
  obtain ⟨rfl, rfl⟩ := Prod.mk.inj hsame
  have hfirst : c.firstBoard rest = c.firstBoard rest' := by
    by_cases hdraws : c.DrawsBoard
    · obtain ⟨hc, hc'⟩ := hplain hdraws
      rw [hc.source_of_readPostRule hsecond, hc'.source_of_readPostRule hsecond']
    · exact firstBoard_eq hdraws rest rest'
  have hboard' : (c.firstBoard rest').outcome = .ok board' := hboard'
  have hselection' : c.readSelection.outcome = .ok selection' := hselection'
  rw [hfirst] at hboard
  obtain rfl : board = board' := Except.ok.inj (hboard.symm.trans hboard')
  obtain rfl : selection = selection' := Except.ok.inj (hselection.symm.trans hselection')
  refine ⟨second'.map fun r => { rule := r, ticks := postTicks, board := derive r postTicks board },
    ?_⟩
  simp only [Config.assemble, Config.markedSeed, hchosen, hchosen']

/-- **The second rule has no influence on the simulation.** Two configurations with one given seed,
both accepted, differ in the second rule and its ticks only; and unless the board is not drawn at
random, neither of the second rules that are read has a directive. Then, whatever is done to both
from their creation on, they agree after every operation in all that can be asked except what is to
be shown, and they have given the same answers about inversion on the way. -/
theorem agrees_of_create (hseed : c.seed = some seed) (hgiven : seed ≠ generatedSeed)
    (hplain : c.DrawsBoard → c.PostUndrawn ∧ ({ c with postRule, postTicks } : Config).PostUndrawn)
    (hs : create c fresh = .ok s) (ht : create { c with postRule, postTicks } fresh' = .ok t)
    (ops : List Operation) :
    (ops.foldl perform s).Agrees (ops.foldl perform t) ∧ s.answers ops = t.answers ops := by
  have hsame := samePrimary_of_create hseed hgiven hplain hs ht
  exact ⟨(hsame.performAll ops).agrees, hsame.answers ops⟩

/-- A random board under a rule that is drawn from the same source before it. -/
def scattered : Config where
  width := 3
  height := 2
  rule := "13+25".toList
  seed := some "S".toList
  flickerMode := 2
  startTick := -1
  board := none
  randomFill := true
  fill := 0.5
  keepSize := false
  postRule := some "2x12/,/012345678".toList
  postTicks := 3
  lastTick := some 2
  selection := some "0:1".toList
  drawEvery := 2
  paused := false

theorem agrees_of_create_scattered :
    ∃ s t, create scattered [] = .ok s ∧
      create { scattered with postRule := none, postTicks := 0 } "other".toList = .ok t ∧
      s.displayBoard.render ≠ t.displayBoard.render ∧
      ([.step, .ask, .cycleFlicker, .advance].foldl perform s).Agrees
        ([.step, .ask, .cycleFlicker, .advance].foldl perform t) ∧
      s.answers [.step, .ask, .cycleFlicker, .advance] =
        t.answers [.step, .ask, .cycleFlicker, .advance] := by
  have hcreated : (create scattered []).toOption.any (fun s =>
      (create { scattered with postRule := none, postTicks := 0 } "other".toList).toOption.any
        fun t => s.displayBoard.render != t.displayBoard.render) = true := by
    decide +kernel
  obtain ⟨s, hs, hother⟩ := (Option.any_eq_true _ _).mp hcreated
  obtain ⟨t, ht, hshown⟩ := (Option.any_eq_true _ _).mp hother
  have hs := toOption_eq_some_iff.mp hs
  have ht := toOption_eq_some_iff.mp ht
  have hplain : scattered.PostUndrawn := by
    intro t hpost _
    cases hpost
    decide
  have hnone : ({ scattered with postRule := none, postTicks := 0 } : Config).PostUndrawn := by
    intro t hpost
    cases hpost
  obtain ⟨hagrees, hanswers⟩ := agrees_of_create rfl (by decide) (fun _ => ⟨hplain, hnone⟩) hs ht
    [.step, .ask, .cycleFlicker, .advance]
  exact ⟨s, t, hs, ht, bne_iff_ne.mp hshown, hagrees, hanswers⟩

end Simulation

end TorusAutomaton
