import Mathlib.Data.List.Nodup
import TorusAutomaton.Proofs.Session.Turns

/-!
# Runs on a terminal keep their history orderly

Whatever is typed and whenever the time for a tick comes, ticks are asked about and saved at most
once, a run never skips a tick, and it leaves no selected tick behind without a file.
-/

namespace TorusAutomaton.Session

open TorusAutomaton

namespace TerminalView

/-- The views that a run from `s` can come to, whatever keys are typed and whenever the time has
come, with the outcome of the turn that leads there. -/
inductive Reaches (s : Session) : TerminalView → Outcome → Prop
  | start : Reaches s (.start { s with history := [] }) .running
  | turn {v v' : TerminalView} {key : Option Key} {due : Bool} {outcome : Outcome}
      (before : Reaches s v .running) (h : v.turn key due = (v', outcome)) : Reaches s v' outcome

variable {s : Session} {v v' : TerminalView}

theorem Reaches.typed (h : Reaches s v .running) (keys : List Key) :
    Reaches s (v.typed keys).1 (v.typed keys).2 := by
  induction keys generalizing v with
  | nil => exact h
  | cons key rest ih =>
      unfold TerminalView.typed
      split
      · rename_i v₁ hturn
        exact ih (h.turn hturn)
      · exact h.turn (Prod.eta (v.turn (some key) false)).symm

theorem Reaches.idle (h : Reaches s v .running) (turns : Nat) :
    Reaches s (v.idle turns).1 (v.idle turns).2 := by
  induction turns generalizing v with
  | zero => exact h
  | succ n ih =>
      unfold TerminalView.idle
      split
      · rename_i v₁ hturn
        exact ih (h.turn hturn)
      · exact h.turn (Prod.eta (v.turn none true)).symm

/-- A run with these keys is one of them. -/
theorem reaches_run (s : Session) (keys : List Key) :
    Reaches s ((start { s with history := [] }).run keys).1
      ((start { s with history := [] }).run keys).2 := by
  have htyped := Reaches.start.typed (s := s) keys
  unfold run
  split
  · rename_i v hrunning
    rw [hrunning] at htyped
    exact htyped.idle _
  · exact htyped

/-- A turn that ends in a step: its key asks neither to stop nor to draw, the time has come, the
frame section was gone through, and the simulation neither is finished nor paused. -/
structure EndsInStep (v : TerminalView) (key : Option Key) (due : Bool) (v₂ v' : TerminalView) :
    Prop where
  goesOn : (v.keyed key).2 = .goOn
  due : due = true
  present : (v.keyed key).1.present = (v₂, none)
  unpaused : v₂.session.sim.paused = false
  unfinished : v₂.session.sim.finished = false
  step : v' = { v₂ with session := v₂.session.perform .step }

/-! ## One turn -/

theorem tick_keyed (v : TerminalView) (key : Option Key) :
    (v.keyed key).1.session.sim.tick = v.session.sim.tick ∨
      key = some (.char 's') ∧ v.session.sim.paused = true ∧
        (v.keyed key).1.session.sim.tick = v.session.sim.tick + 1 ∧
        (v.keyed key).1.redraw = true := by
  cases key with
  | none => exact .inl rfl
  | some k =>
      rcases tick_press v.session k with hsame | ⟨rfl, hpaused, hnext, hredraw⟩
      · exact .inl hsame
      · refine .inr ⟨rfl, hpaused, hnext, ?_⟩
        show (v.redraw || decide ((v.session.press (.char 's')).2 = .redraw)) = true
        simp [hredraw]

/-- A key that asks neither to stop nor to draw asks for nothing. -/
theorem goesOn_of_keyed {key : Option Key} (hstop : ∀ exit, (v.keyed key).2 ≠ .stop exit)
    (hredraw : (v.keyed key).1.redraw = false) : (v.keyed key).2 = .goOn := by
  have hdraw : (v.redraw || decide ((v.keyed key).2 = .redraw)) = false := hredraw
  cases hcontrol : (v.keyed key).2 with
  | goOn => rfl
  | redraw => simp [hcontrol] at hdraw
  | stop exit => exact absurd hcontrol (hstop exit)

theorem sound_of_turn {key : Option Key} {due : Bool} {outcome : Outcome} (h : v.Sound)
    (hturn : v.turn key due = (v', outcome)) :
    Orderly v'.session.history ∧ (outcome = .running → v'.Sound) := by
  have hkeyed := h.keyed key
  rcases turn_cases hturn with ⟨exit, _, rfl, rfl⟩ | ⟨_, _, rfl, rfl⟩ | ⟨_, _, hproceed⟩
  · exact ⟨hkeyed.remembers.toOrderly, fun hrunning => by cases hrunning⟩
  · exact ⟨hkeyed.remembers.toOrderly, fun _ => hkeyed⟩
  · rcases proceed_cases hproceed with ⟨failure, hpresent, rfl⟩ | ⟨hpresent, _, rfl⟩ |
      ⟨v₂, hpresent, _, rfl, _, rfl⟩ | ⟨v₂, hpresent, _, rfl, _, rfl⟩
    · exact ⟨(present_spec hkeyed hpresent).1, fun hrunning => by cases hrunning⟩
    · exact ⟨(present_spec hkeyed hpresent).1, fun hrunning => by cases hrunning⟩
    · have hsound := ((present_spec hkeyed hpresent).2 rfl).1
      have hnext := hsound.of_moves (Moves.refl v₂.session) false
      exact ⟨hnext.remembers.toOrderly, fun _ => hnext⟩
    · have hsound := ((present_spec hkeyed hpresent).2 rfl).1
      have hnext := hsound.of_moves (moves_step v₂.session) v₂.redraw
      exact ⟨hnext.remembers.toOrderly, fun _ => hnext⟩

/-- Every view that goes on is sound, and every view has an orderly history. -/
theorem Reaches.sound {outcome : Outcome} (hs : s.Coherent) (h : Reaches s v outcome) :
    Orderly v.session.history ∧ (outcome = .running → v.Sound) := by
  induction h with
  | start => exact ⟨orderly_nil, fun _ => sound_start hs⟩
  | turn _ hturn ih => exact sound_of_turn (ih.2 rfl) hturn

/-- The tick is the same after a turn, or the next one: after a single step while the simulation is
paused, or because the turn ends in a step. In the second case the frame of the tick that is left
has been saved if it is selected. -/
theorem tick_of_turn {key : Option Key} {due : Bool} {outcome : Outcome} (h : v.Sound)
    (hturn : v.turn key due = (v', outcome)) :
    v'.session.sim.tick = v.session.sim.tick ∨
    (key = some (.char 's') ∧ v.session.sim.paused = true ∧
      v'.session.sim.tick = v.session.sim.tick + 1) ∨
    (∃ v₂, EndsInStep v key due v₂ v' ∧ outcome = .running ∧
      v₂.session.sim.tick = v.session.sim.tick ∧
      v'.session.sim.tick = v.session.sim.tick + 1 ∧
      (v₂.session.sim.selected = true →
        ∃ f, .saved f ∈ v₂.session.history ∧ f.sim.tick = v.session.sim.tick)) := by
  have hkeyed := h.keyed key
  -- Without a step at the end only the key may have moved the tick.
  have hunmoved : v'.session.sim.tick = (v.keyed key).1.session.sim.tick →
      v'.session.sim.tick = v.session.sim.tick ∨
      (key = some (.char 's') ∧ v.session.sim.paused = true ∧
        v'.session.sim.tick = v.session.sim.tick + 1) := by
    intro hsame
    rcases tick_keyed v key with hkey | ⟨rfl, hpaused, hnext, _⟩
    · exact .inl (hsame.trans hkey)
    · exact .inr ⟨rfl, hpaused, hsame.trans hnext⟩
  have hleft : ∀ {p q r : Prop}, p ∨ q → p ∨ q ∨ r := fun hpq => hpq.imp id .inl
  rcases turn_cases hturn with ⟨exit, _, rfl, rfl⟩ | ⟨_, _, rfl, rfl⟩ | ⟨hstop, hdue, hproceed⟩
  · exact hleft (hunmoved rfl)
  · exact hleft (hunmoved rfl)
  · rcases proceed_cases hproceed with ⟨failure, hpresent, rfl⟩ | ⟨hpresent, _, rfl⟩ |
      ⟨v₂, hpresent, _, rfl, _, rfl⟩ | ⟨v₂, hpresent, hunfinished, rfl, hredraw, rfl⟩
    · exact hleft (hunmoved (presents_of_present hpresent).tick)
    · exact hleft (hunmoved (presents_of_present hpresent).tick)
    · exact hleft (hunmoved (presents_of_present hpresent).tick)
    · have htick := (presents_of_present hpresent).tick
      obtain ⟨_, hsim⟩ := (presents_of_present hpresent).sim
      obtain ⟨hsound, hsaved⟩ := (present_spec hkeyed hpresent).2 rfl
      cases hpaused : v₂.session.sim.paused with
      | true =>
          apply hleft
          apply hunmoved
          show (v₂.session.sim.step).tick = _
          rw [Simulation.step, if_pos hpaused, htick]
      | false =>
          -- A key that moves the tick has the board drawn, and then the turn ends without a step.
          have hkey : (v.keyed key).1.session.sim.tick = v.session.sim.tick := by
            rcases tick_keyed v key with hkey | ⟨_, _, _, hredrawn⟩
            · exact hkey
            · exact absurd (hredrawn.symm.trans hredraw) (by decide)
          have hstep : (v₂.session.perform .step).sim.tick = v.session.sim.tick + 1 := by
            show (v₂.session.sim.step).tick = _
            rw [Simulation.step, hpaused, ← hkey, ← htick]
            rfl
          have hdue : due = true := by simpa [hredraw] using hdue
          refine .inr (.inr ⟨v₂, ⟨goesOn_of_keyed hstop hredraw, hdue, hpresent, hpaused,
            hunfinished, rfl⟩, rfl, htick.trans hkey, hstep, ?_⟩)
          intro hselected
          have hshould : (v.keyed key).1.session.sim.shouldSave = true := by
            rw [hsim] at hpaused hselected
            have hunpaused : (v.keyed key).1.session.sim.paused = false := hpaused
            have hselected : (v.keyed key).1.session.sim.selected = true := hselected
            simp [Simulation.shouldSave, hunpaused, hselected]
          obtain ⟨f, hf, hftick⟩ := hsound.remembers.savedFiled _ (hsaved hshould)
          exact ⟨f, hf, hftick.trans hkey⟩

/-! ## Whole runs -/

/-- A history that is orderly from its latest act back is orderly from its first act on. -/
theorem increasing_acts {history : List Act} (h : Orderly history) :
    ((history.reverse.filterMap Act.filed?).map fun f => f.sim.tick).Pairwise (· < ·) := by
  rw [List.filterMap_reverse, List.map_reverse, List.pairwise_reverse]
  exact h.increasing

/-- **Runs on a terminal are safe**, whatever is typed and whenever the time for a tick comes. Files
are written for later and later ticks, each of them selected, while the simulation runs. A tick is
asked about at most once, and every frame of it is shown with that answer. A turn leaves the tick as
it is or moves it by one: for the key of a single step while the simulation is paused, or in a step
after the frame section, and then the frame of a selected tick has been saved before. Ticks are
whole numbers without a bound here; what becomes of a tick that is to move past the largest number
of 64 bits is left out. -/
theorem terminal_safe {s : Session} (hs : s.Coherent) :
    (∀ keys, Reaches s ((start { s with history := [] }).run keys).1
      ((start { s with history := [] }).run keys).2) ∧
    ∀ v outcome, Reaches s v outcome →
      (((v.session.acts.filterMap Act.filed?).map fun f => f.sim.tick).Pairwise (· < ·) ∧
        ∀ f ∈ v.session.acts.filterMap Act.filed?,
          f.sim.selected = true ∧ f.sim.paused = false) ∧
      ((v.session.acts.filterMap Act.askedTick?).Nodup ∧
        (∀ f ∈ v.session.acts.filterMap Act.frame?,
          .asked f.sim.tick f.inverted ∈ v.session.acts) ∧
        ∀ f ∈ v.session.acts.filterMap Act.frame?, ∀ g ∈ v.session.acts.filterMap Act.frame?,
          f.sim.tick = g.sim.tick → f.inverted = g.inverted) ∧
      (outcome = .running → ∀ key due v' outcome', v.turn key due = (v', outcome') →
        v'.session.sim.tick = v.session.sim.tick ∨
        (key = some (.char 's') ∧ v.session.sim.paused = true ∧
          v'.session.sim.tick = v.session.sim.tick + 1) ∨
        (∃ v₂, EndsInStep v key due v₂ v' ∧ outcome' = .running ∧
          v₂.session.sim.tick = v.session.sim.tick ∧
          v'.session.sim.tick = v.session.sim.tick + 1 ∧
          (v₂.session.sim.selected = true →
            ∃ f, .saved f ∈ v₂.session.acts ∧ f.sim.tick = v.session.sim.tick))) := by
  refine ⟨reaches_run s, ?_⟩
  intro v outcome h
  obtain ⟨horderly, hsound⟩ := h.sound hs
  have hframes : ∀ f ∈ v.session.acts.filterMap Act.frame?,
      .asked f.sim.tick f.inverted ∈ v.session.history := by
    intro f hf
    obtain ⟨act, hact, hframe⟩ := List.mem_filterMap.mp hf
    exact horderly.answered act (List.mem_reverse.mp hact) f hframe
  refine ⟨⟨increasing_acts horderly, ?_⟩, ⟨?_, ?_, ?_⟩, ?_⟩
  · intro f hf
    obtain ⟨act, hact, hfiled⟩ := List.mem_filterMap.mp hf
    have hdue := horderly.filedDue act (List.mem_reverse.mp hact) f hfiled
    simp only [Simulation.shouldSave, Bool.and_eq_true, Bool.not_eq_true'] at hdue
    exact ⟨hdue.2, hdue.1⟩
  · rw [acts, List.filterMap_reverse, List.nodup_reverse]
    exact horderly.askedOnce
  · exact fun f hf => List.mem_reverse.mpr (hframes f hf)
  · intro f hf g hg htick
    exact answer_unique horderly.askedOnce (hframes f hf) (htick ▸ hframes g hg)
  · intro hrunning key due v' outcome' hturn
    rcases tick_of_turn (hsound hrunning) hturn with hsame | hkey | ⟨v₂, hstep, hnext, htick₂,
      htick, hsaved⟩
    · exact .inl hsame
    · exact .inr (.inl hkey)
    · refine .inr (.inr ⟨v₂, hstep, hnext, htick₂, htick, ?_⟩)
      intro hselected
      obtain ⟨f, hf, hftick⟩ := hsaved hselected
      exact ⟨f, List.mem_reverse.mpr hf, hftick⟩

/-- A session that saves three frames, started with nothing around. -/
def beacon : Except StartError Session :=
  (Session.start
    { dimensions := "2x1".toList
      rules := "8/8".toList
      seed := "S".toList
      board := some "10".toList
      flickerMode := 3
      maxTicks := some 2
      renderImages := some "0:2".toList
      imageFormat := "%t.png".toList }
    ⟨80, 24⟩ "frames".toList { root := .empty, present := [] } []).outcome

theorem terminal_safe_beacon :
    ∃ s, beacon = .ok s ∧ s.Coherent ∧
      (((start { s with history := [] }).run [.char 'f', .char 'f']).1.session.acts.filterMap
        Act.filed?).map (fun f => f.sim.tick) = [0, 1, 2] ∧
      ∀ f ∈ ((start { s with history := [] }).run [.char 'f', .char 'f']).1.session.acts.filterMap
        Act.filed?, f.sim.selected = true ∧ f.sim.paused = false := by
  have hticks : beacon.toOption.map (fun s =>
      (((start { s with history := [] }).run [.char 'f', .char 'f']).1.session.acts.filterMap
        Act.filed?).map fun f => f.sim.tick) = some [0, 1, 2] := by
    decide +kernel
  obtain ⟨s, hs, hticks⟩ := Option.map_eq_some_iff.mp hticks
  have hs := Outcome.toOption_eq_some_iff.mp hs
  have hcoherent := coherent_of_start hs
  obtain ⟨hruns, hsafe⟩ := terminal_safe hcoherent
  exact ⟨s, hs, hcoherent, hticks, (hsafe _ _ (hruns [.char 'f', .char 'f'])).1.2⟩

end TerminalView

end TorusAutomaton.Session
