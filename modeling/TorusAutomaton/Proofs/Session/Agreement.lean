import TorusAutomaton.Proofs.Flicker
import TorusAutomaton.Proofs.Session.Turns
import TorusAutomaton.Proofs.View.Captions

/-!
# Runs with and without a terminal

A run on a terminal at which nobody types writes the same frames as a run without a terminal. The
two ask about inversion at different ticks, since a terminal asks for the frames that it only draws
too, and the terminal sees the first tick twice. Neither matters unless the flicker compares dead
cells: what is remembered keeps the first tick from being saved twice, and the population that was
seen last makes no difference to the answers.
-/

namespace TorusAutomaton.Session

open TorusAutomaton

/-! ## What was written -/

/-- The path that an act has written to, and the image. -/
def entry (args : CommandLine.Arguments) (caption : Option View.Caption) (directory : Option Text)
    (act : Act) : Option (Text × Option View.Image) :=
  directory.bind fun d => (act.file? args caption).map fun file => (file.1.path args d, file.2)

theorem written_eq (s : Session) :
    s.written = s.acts.filterMap (entry s.args s.caption s.directory) := by
  obtain ⟨_, _, _, directory, _, _, _⟩ := s
  cases directory with
  | none => simp [written, entry]
  | some d => rfl

theorem written_add (s : Session) (act : Act) :
    (s.add act).written = s.written ++ (entry s.args s.caption s.directory act).toList := by
  rw [written_eq, written_eq]
  simp only [acts, add, List.reverse_cons, List.filterMap_append]
  cases h : entry s.args s.caption s.directory act <;> simp [h]

/-- Two sessions that cannot be told apart by what they write. Both have come from `origin`, the
first with its history, the second with an empty one. -/
structure Alike (origin s t : Session) : Prop where
  argsLeft : s.args = origin.args
  argsRight : t.args = origin.args
  captionLeft : s.caption = origin.caption
  captionRight : t.caption = origin.caption
  directoryLeft : s.directory = origin.directory
  directoryRight : t.directory = origin.directory
  files : s.files = t.files
  sim : s.sim.Alike t.sim
  written : s.written = origin.written ++ t.written

variable {origin s t : Session}

namespace Alike

theorem args (h : Alike origin s t) : s.args = t.args := h.argsLeft.trans h.argsRight.symm

theorem caption (h : Alike origin s t) : s.caption = t.caption :=
  h.captionLeft.trans h.captionRight.symm

theorem directory (h : Alike origin s t) : s.directory = t.directory :=
  h.directoryLeft.trans h.directoryRight.symm

theorem start (h : s.sim.flicker.mode ≠ .swing) : Alike s s { s with history := [] } where
  argsLeft := rfl
  argsRight := rfl
  captionLeft := rfl
  captionRight := rfl
  directoryLeft := rfl
  directoryRight := rfl
  files := rfl
  sim := Simulation.Alike.refl h
  written := by
    have hempty : ({ s with history := [] } : Session).written = [] := by
      rw [written_eq]
      rfl
    rw [hempty, List.append_nil]

/-- An act that leaves no file makes no difference. -/
theorem add_left (h : Alike origin s t) {act : Act}
    (hact : entry s.args s.caption s.directory act = none) : Alike origin (s.add act) t :=
  { h with
    written := by rw [written_add, hact, h.written, Option.toList_none, List.append_nil] }

theorem add_right (h : Alike origin s t) {act : Act}
    (hact : entry t.args t.caption t.directory act = none) : Alike origin s (t.add act) :=
  { h with
    written := by rw [written_add, hact, h.written, Option.toList_none, List.append_nil] }

theorem add_both (h : Alike origin s t) {act act' : Act}
    (hact : entry s.args s.caption s.directory act = entry t.args t.caption t.directory act') :
    Alike origin (s.add act) (t.add act') :=
  { h with
    written := by rw [written_add, written_add, hact, h.written, List.append_assoc] }

end Alike

section Entries

variable (args : CommandLine.Arguments) (caption : Option View.Caption) (directory : Option Text)

theorem entry_asked (tick : Int) (inverted : Bool) :
    entry args caption directory (.asked tick inverted) = none := by
  cases directory <;> rfl

theorem entry_drew (f : Frame) : entry args caption directory (.drew f) = none := by
  cases directory <;> rfl

theorem entry_noted (event : Journal.Event) :
    entry args caption directory (.noted event) = none := by
  cases directory <;> rfl

end Entries

theorem written_files (s : Session) (files : FileTree) :
    ({ s with files } : Session).written = s.written := by
  rw [written_eq, written_eq]
  rfl

theorem written_ask (s : Session) : s.ask.1.written = s.written := by
  refine (written_add _ _).trans ?_
  rw [entry_asked, Option.toList_none, List.append_nil, written_eq, written_eq]
  rfl

/-- Nothing that is done to the simulation writes to a path. -/
theorem written_perform (s : Session) (op : Simulation.Operation) :
    (s.perform op).written = s.written := by
  cases op with
  | ask => exact written_ask s
  | cycleFlicker =>
      refine (written_add _ _).trans ?_
      rw [entry_noted, Option.toList_none, List.append_nil, written_eq, written_eq]
      rfl
  | step | advance | togglePause =>
      rw [written_eq, written_eq]
      rfl

/-! ## Asking, saving, stepping -/

namespace Alike

theorem ask_left (h : Alike origin s t) : Alike origin s.ask.1 t :=
  { h with sim := h.sim.asked_left : Alike origin { s with sim := s.sim.asked } t }.add_left
    (entry_asked _ _ _ _ _)

theorem ask_right (h : Alike origin s t) : Alike origin s t.ask.1 :=
  { h with sim := h.sim.asked_right : Alike origin s { t with sim := t.sim.asked } }.add_right
    (entry_asked _ _ _ _ _)

theorem step (h : Alike origin s t) : Alike origin (s.perform .step) (t.perform .step) :=
  { h with sim := h.sim.step }

theorem expand (h : Alike origin s t) (inverted : Bool) :
    (s.frame inverted).expand = (t.frame inverted).expand := by
  funext template
  simp only [Frame.expand, frame, h.sim.bindings]

theorem path (h : Alike origin s t) (inverted : Bool) (directory : Text) :
    (s.frame inverted).path s.args directory = (t.frame inverted).path t.args directory := by
  simp only [Frame.path, h.expand, h.args]

theorem image (h : Alike origin s t) (inverted : Bool) :
    (s.frame inverted).image s.args s.caption = (t.frame inverted).image t.args t.caption := by
  have hboard : (s.frame inverted).sim.displayBoard = (t.frame inverted).sim.displayBoard :=
    h.sim.displayBoard
  have hsubtitle : (s.frame inverted).subtitle s.args = (t.frame inverted).subtitle t.args := by
    simp only [Frame.subtitle, h.expand, h.args]
  rw [Frame.image, Frame.image, hboard, hsubtitle, h.args, h.caption]
  rfl

/-- Saving the present frame does the same to both, and fails in the same way if it fails. -/
theorem save (h : Alike origin s t) (inverted : Bool) :
    Alike origin (s.save inverted).1 (t.save inverted).1 ∧
      (s.save inverted).2 = (t.save inverted).2 := by
  cases hdirectory : t.directory with
  | none =>
      have hs : s.save inverted = (s, none) := by
        simp only [Session.save, h.directory.trans hdirectory]
      have ht : t.save inverted = (t, none) := by
        simp only [Session.save, hdirectory]
      rw [hs, ht]
      exact ⟨h, rfl⟩
  | some d =>
      have hpath := h.path inverted d
      have himage := h.image inverted
      have hsaved : entry s.args s.caption s.directory (.saved (s.frame inverted)) =
          entry t.args t.caption t.directory (.saved (t.frame inverted)) := by
        simp [entry, Act.file?, h.directory, hdirectory, hpath, himage]
      have hspoiled : entry s.args s.caption s.directory (.spoiled (s.frame inverted)) =
          entry t.args t.caption t.directory (.spoiled (t.frame inverted)) := by
        simp [entry, Act.file?, h.directory, hdirectory, hpath]
      have hfiles : ∀ files, Alike origin { s with files } { t with files } := by
        intro files
        exact { h with files := rfl }
      rw [save_eq (h.directory.trans hdirectory), save_eq hdirectory, hpath, himage, h.files]
      split
      · rename_i files _
        refine ⟨?_, rfl⟩
        have hboth := (hfiles files).add_both hsaved
        exact (hboth.add_left (entry_noted _ _ _ _)).add_right (entry_noted _ _ _ _)
      · exact ⟨(hfiles _).add_both hspoiled, rfl⟩
      · exact ⟨hfiles _, rfl⟩
      · exact ⟨hfiles _, rfl⟩

theorem saveFrame (h : Alike origin s t) (inverted : Bool) (hinverted : inverted = s.sim.inverted) :
    Alike origin s.saveFrame.1 (t.save inverted).1 ∧
      s.saveFrame.2.2 = (t.save inverted).2 := by
  subst hinverted
  exact h.ask_left.save _

end Alike

/-! ## Frame sections -/

namespace TerminalView

variable {v v' : TerminalView}

/-- Nothing has been asked or saved for the present tick. -/
structure Fresh (v : TerminalView) : Prop where
  shown : ∀ t ∈ v.shown, t < v.session.sim.tick
  saved : ∀ t ∈ v.saved, t < v.session.sim.tick

/-- What is due for the present tick has been done, and nothing beyond. -/
structure Settled (v : TerminalView) : Prop where
  shown : ∀ t ∈ v.shown, t ≤ v.session.sim.tick
  saved : ∀ t ∈ v.saved, t ≤ v.session.sim.tick
  done : v.session.sim.shouldSave = true → v.saved = some v.session.sim.tick

theorem ne_some_of_lt {o : Option Int} {t : Int} (h : ∀ u ∈ o, u < t) : o ≠ some t :=
  fun heq => Int.lt_irrefl t (h t heq)

theorem Fresh.askOnce_eq (h : v.Fresh) :
    v.askOnce =
      { v with
        session := v.session.ask.1
        inverted := v.session.sim.inverted
        shown := some v.session.sim.tick } := by
  rw [askOnce, if_neg (ne_some_of_lt h.shown)]
  rfl

theorem alike_display (h : Alike origin s v.session) : Alike origin s v.display.session := by
  have hask : Alike origin s v.askOnce.session := by
    unfold askOnce
    split
    · exact h
    · exact h.ask_right
  unfold display
  split
  · exact hask.add_right (entry_drew _ _ _ _)
  · exact hask

theorem Fresh.inverted_display (h : v.Fresh) : v.display.inverted = v.session.sim.inverted := by
  unfold display
  split
  · rw [h.askOnce_eq]
    rfl
  · rw [h.askOnce_eq]

theorem saved_of_save {v v' : TerminalView} (h : v.save = (v', none)) :
    v'.saved = some v.session.sim.tick ∧ v'.shown = v.shown := by
  unfold save at h
  split at h <;> cases h
  exact ⟨rfl, rfl⟩

theorem Settled.display (h : v.Settled) : v.display.Settled where
  shown := by
    intro t ht
    rw [shown_display] at ht
    cases ht
    exact Int.le_refl _
  saved := by
    rw [saved_display, (presents_display v).tick]
    exact h.saved
  done := by
    obtain ⟨_, hsim⟩ := (presents_display v).sim
    rw [saved_display, hsim]
    exact h.done

theorem settled_of_save (hshown : v.shown = some v.session.sim.tick)
    (hsave : v.save = (v', none)) : v'.Settled := by
  obtain ⟨hsaved', hshown'⟩ := saved_of_save hsave
  have htick : v'.session.sim.tick = v.session.sim.tick := by
    have hpresents := presents_save v
    rw [hsave] at hpresents
    exact hpresents.tick
  constructor
  · intro t ht
    rw [hshown', hshown] at ht
    cases ht
    exact Int.le_of_eq htick.symm
  · intro t ht
    rw [hsaved'] at ht
    cases ht
    exact Int.le_of_eq htick.symm
  · intro _
    rw [hsaved', htick]

/-- At a new tick a terminal saves the frame exactly when a run without one does. -/
theorem present_fresh (h : Alike origin s v.session) (hfresh : v.Fresh) :
    Alike origin s.saveDue.1 v.present.1.session ∧ s.saveDue.2 = v.present.2 ∧
      (v.present.2 = none → v.present.1.Settled) := by
  have hne : (v.saved != some v.session.sim.tick) = true :=
    bne_iff_ne.mpr (ne_some_of_lt hfresh.saved)
  have hshown : ∀ t ∈ v.shown, t ≤ v.session.sim.tick :=
    fun t ht => Int.le_of_lt (hfresh.shown t ht)
  have hsaved : ∀ t ∈ v.saved, t ≤ v.session.sim.tick :=
    fun t ht => Int.le_of_lt (hfresh.saved t ht)
  cases hdue : v.session.sim.shouldSave with
  | true =>
      have hs : s.sim.shouldSave = true := h.sim.shouldSave.trans hdue
      have hv : v.saveDue = true := by simp [saveDue, hdue, hne]
      have hpresent : v.present = v.display.save := by simp [present_eq, hv]
      have hsession : s.saveDue = (s.saveFrame.1, s.saveFrame.2.2) := by
        simp [Session.saveDue, hs]
      -- Both save under the answer for this tick, though the samples behind it may differ.
      have hinverted : v.display.inverted = s.sim.inverted :=
        hfresh.inverted_display.trans h.sim.inverted.symm
      obtain ⟨halike, hfailure⟩ := (alike_display h).saveFrame v.display.inverted hinverted
      have hsave := v.display.save_view
      rw [hpresent, hsession]
      refine ⟨hsave.1 ▸ halike, hfailure.trans hsave.2.symm, ?_⟩
      intro hnone
      exact settled_of_save (shown_display v) (Prod.ext rfl hnone)
  | false =>
      have hs : s.sim.shouldSave = false := h.sim.shouldSave.trans hdue
      have hv : v.saveDue = false := by simp [saveDue, hdue]
      have hsettled : v.Settled := ⟨hshown, hsaved, fun hcontra => by simp [hdue] at hcontra⟩
      have hsession : s.saveDue = (s, none) := by simp [Session.saveDue, hs]
      rw [hsession, present_eq, hv]
      cases v.drawDue with
      | true => exact ⟨alike_display h, rfl, fun _ => hsettled.display⟩
      | false => exact ⟨h, rfl, fun _ => hsettled⟩

/-- When all is done for a tick, a terminal only draws. -/
theorem present_settled (h : Alike origin s v.session) (hsettled : v.Settled) :
    Alike origin s v.present.1.session ∧ v.present.2 = none ∧ v.present.1.Settled := by
  have hv : v.saveDue = false := by
    cases hdue : v.session.sim.shouldSave with
    | true => simp [saveDue, hsettled.done hdue]
    | false => simp [saveDue, hdue]
  rw [present_eq, hv]
  cases v.drawDue with
  | true => exact ⟨alike_display h, rfl, hsettled.display⟩
  | false => exact ⟨h, rfl, hsettled⟩

/-! ## Whole runs -/

/-- A run without a terminal and one on a terminal that have come to the same end. -/
def SameEnd (origin : Session) (r : Session × Except Failure Exit)
    (r' : TerminalView × Outcome) : Prop :=
  Alike origin r.1 r'.1.session ∧
    ((∃ failure, r.2 = .error failure ∧ r'.2 = .failed failure) ∨
      (r.2 = .ok .done ∧ r'.2 = .stopped .done ∧ r.1.sim.finished = true))

theorem SameEnd.ended {r : Session × Except Failure Exit} {r' : TerminalView × Outcome}
    (h : SameEnd origin r r') : r'.2 ≠ .running := by
  intro hrunning
  rcases h.2 with ⟨failure, _, hfailed⟩ | ⟨_, hstopped, _⟩
  · cases hfailed.symm.trans hrunning
  · cases hstopped.symm.trans hrunning

theorem turn_none {v : TerminalView} {due : Bool} (h : (v.redraw || due) = true) :
    v.turn none due = v.proceed := by
  simp only [turn, Bool.or_false, reduceCtorEq, decide_false]
  exact if_pos h

theorem saveDue_sim (s : Session) : ∃ flicker, s.saveDue.1.sim = { s.sim with flicker } := by
  unfold Session.saveDue
  split
  · obtain ⟨_, _, hsave⟩ := save_keeps s.ask.1 s.ask.2
    have hsim : (s.ask.1.save s.ask.2).1.sim = s.ask.1.sim := by rw [hsave]
    exact ⟨_, hsim⟩
  · exact ⟨_, rfl⟩

theorem step_unpaused {sim : Simulation} (h : sim.paused = false) : sim.step = sim.advance := by
  simp [Simulation.step, h]

/-- A step takes a terminal to a new tick. -/
theorem Settled.step (h : v.Settled) (hunpaused : v.session.sim.paused = false) (redraw : Bool) :
    Fresh { v with session := v.session.perform .step, redraw } := by
  have htick : (v.session.perform .step).sim.tick = v.session.sim.tick + 1 := by
    show v.session.sim.step.tick = _
    rw [step_unpaused hunpaused]
    rfl
  constructor
  · intro t ht
    show t < (v.session.perform .step).sim.tick
    rw [htick]
    exact Int.lt_add_one_of_le (h.shown t ht)
  · intro t ht
    show t < (v.session.perform .step).sim.tick
    rw [htick]
    exact Int.lt_add_one_of_le (h.saved t ht)

/-- What is left of a run that knows its last tick and goes on: the simulation is not paused, and
so many ticks are left. -/
structure Runs (s : Session) (n : Nat) : Prop where
  unpaused : s.sim.paused = false
  bounded : s.sim.lastTick.isSome = true
  left : s.ticksLeft = n

/-- What is left of a run does not depend on the flicker. -/
theorem Runs.of_sim {t : Session} {n : Nat} {flicker : Flicker} (h : Runs s n)
    (hsim : t.sim = { s.sim with flicker }) : Runs t n := by
  constructor
  · rw [hsim]
    exact h.unpaused
  · rw [hsim]
    exact h.bounded
  · have hleft := h.left
    simp only [ticksLeft, hsim] at hleft ⊢
    exact hleft

theorem Runs.saveDue {n : Nat} (h : Runs s n) : Runs s.saveDue.1 n := by
  obtain ⟨flicker, hsim⟩ := saveDue_sim s
  exact h.of_sim hsim

theorem Runs.finished_iff {n : Nat} (h : Runs s n) : s.sim.finished = true ↔ n = 0 := by
  obtain ⟨last, hlast⟩ := Option.isSome_iff_exists.mp h.bounded
  have hleft := h.left
  simp only [ticksLeft, hlast] at hleft
  simp only [Simulation.finished, hlast, decide_eq_true_eq]
  omega

theorem Runs.step {n : Nat} (h : Runs s (n + 1)) : Runs (s.perform .step) n := by
  have hsim : (s.perform .step).sim = s.sim.advance := step_unpaused h.unpaused
  obtain ⟨last, hlast⟩ := Option.isSome_iff_exists.mp h.bounded
  have hleft := h.left
  constructor
  · rw [hsim]
    exact h.unpaused
  · rw [hsim]
    exact h.bounded
  · simp only [ticksLeft, hsim, Simulation.advance, hlast] at hleft ⊢
    omega

theorem headlessFrom_eq (n : Nat) (s : Session) :
    s.headlessFrom n =
      match s.saveDue.2 with
      | some failure => (s.saveDue.1, .error failure)
      | none =>
        if s.saveDue.1.sim.finished then (s.saveDue.1, .ok .done)
        else
          match n with
          | 0 => (s.saveDue.1, .ok .done)
          | n + 1 => (s.saveDue.1.perform .step).headlessFrom n := by
  refine (headlessFrom.eq_def n s).trans ?_
  obtain ⟨_, failure⟩ := s.saveDue
  cases failure <;> rfl

theorem idle_succ (n : Nat) (v : TerminalView) :
    v.idle (n + 1) =
      match v.proceed with
      | (v', .running) => v'.idle n
      | result => result := by
  have hturn : v.turn none true = v.proceed := turn_none (Bool.or_true _)
  rw [← hturn]
  rfl

theorem proceed_eq (v : TerminalView) :
    v.proceed =
      match v.present.2 with
      | some failure => (v.present.1, .failed failure)
      | none =>
        if v.present.1.session.sim.finished then (v.present.1, .stopped .done)
        else
          ({ v.present.1 with
              session :=
                if v.redraw then v.present.1.session else v.present.1.session.perform .step
              redraw := false }, .running) := by
  have hredraw := (presents_of_present (Prod.eta v.present).symm).redraw
  rw [← hredraw, proceed]
  obtain ⟨_, failure⟩ := v.present
  cases failure <;> rfl

theorem unpaused_of_alike {t : Session} {n : Nat} (h : Alike origin s t) (hruns : Runs s n) :
    t.sim.paused = false := by
  obtain ⟨_, hsame⟩ := h.sim.same
  have hpaused := hruns.unpaused
  rw [hsame] at hpaused
  exact hpaused

/-- From a new tick on, every turn does what a run without a terminal does for a tick. -/
theorem idle_fresh {n : Nat} (h : Alike origin s v.session) (hfresh : v.Fresh)
    (hredraw : v.redraw = false) (hruns : Runs s n) :
    SameEnd origin (s.headlessFrom n) (v.idle (n + 1)) := by
  induction n generalizing s v with
  | zero =>
      -- The last tick: if its frame can be saved, both are done.
      obtain ⟨halike, hfailure, _⟩ := present_fresh h hfresh
      have hfinished : s.saveDue.1.sim.finished = true := hruns.saveDue.finished_iff.mpr rfl
      have hfinished' := halike.sim.finished.symm.trans hfinished
      rw [headlessFrom_eq, idle_succ, proceed_eq, hfailure]
      cases v.present.2 with
      | some failure => exact ⟨halike, .inl ⟨failure, rfl, rfl⟩⟩
      | none =>
          simp only [hfinished, hfinished', if_true]
          exact ⟨halike, .inr ⟨rfl, rfl, hfinished⟩⟩
  | succ n ih =>
      -- Both step to a tick that nothing is remembered of.
      obtain ⟨halike, hfailure, hsettled⟩ := present_fresh h hfresh
      have hruns := hruns.saveDue
      have hunfinished : s.saveDue.1.sim.finished = false :=
        eq_false_of_ne_true fun hfinished => absurd (hruns.finished_iff.mp hfinished) (by simp)
      have hunfinished' := halike.sim.finished.symm.trans hunfinished
      have hunpaused := unpaused_of_alike halike hruns
      rw [headlessFrom_eq, idle_succ, proceed_eq, hfailure]
      cases hresult : v.present.2 with
      | some failure => exact ⟨halike, .inl ⟨failure, rfl, rfl⟩⟩
      | none =>
          simp only [hunfinished, hunfinished', hredraw, Bool.false_eq_true, if_false]
          exact ih halike.step ((hsettled hresult).step hunpaused false) rfl hruns.step

/-- A run on a terminal starts with a turn that only draws and saves. -/
theorem idle_start {n : Nat} (h : Alike origin s v.session) (hfresh : v.Fresh)
    (hredraw : v.redraw = true) (hruns : Runs s n) :
    SameEnd origin (s.headlessFrom n) (v.idle (n + 2)) := by
  obtain ⟨halike, hfailure, hsettled⟩ := present_fresh h hfresh
  have hruns := hruns.saveDue
  rw [headlessFrom_eq, idle_succ, proceed_eq, hfailure]
  cases hresult : v.present.2 with
  | some failure => exact ⟨halike, .inl ⟨failure, rfl, rfl⟩⟩
  | none =>
      have hsame := halike.sim.finished
      cases n with
      | zero =>
          have hfinished : s.saveDue.1.sim.finished = true := hruns.finished_iff.mpr rfl
          have hfinished' := hsame.symm.trans hfinished
          simp only [hfinished, hfinished', if_true]
          exact ⟨halike, .inr ⟨rfl, rfl, hfinished⟩⟩
      | succ n =>
          have hunfinished : s.saveDue.1.sim.finished = false :=
            eq_false_of_ne_true fun hfinished => absurd (hruns.finished_iff.mp hfinished) (by simp)
          have hunfinished' := hsame.symm.trans hunfinished
          simp only [hunfinished, hunfinished', hredraw, Bool.false_eq_true, if_false, if_true]
          -- The second turn finds everything done for the first tick, and makes the step.
          have hsettled := hsettled hresult
          generalize hv₁ : ({ v.present.1 with redraw := false } : TerminalView) = v₁
          have halike₁ : Alike origin s.saveDue.1 v₁.session := hv₁ ▸ halike
          have hsettled₁ : v₁.Settled := hv₁ ▸ ⟨hsettled.shown, hsettled.saved, hsettled.done⟩
          have hredraw₁ : v₁.redraw = false := hv₁ ▸ rfl
          obtain ⟨halike₂, hnone, hsettled₂⟩ := present_settled halike₁ hsettled₁
          have hunfinished₂ := halike₂.sim.finished.symm.trans hunfinished
          rw [idle_succ, proceed_eq, hnone]
          simp only [hunfinished₂, hredraw₁, Bool.false_eq_true, if_false]
          exact idle_fresh halike₂.step
            (hsettled₂.step (unpaused_of_alike halike₂ hruns) false) rfl hruns.step

/-! ## Waiting for the next tick -/

/-- Turns at which nobody types. Each entry tells whether the time for the next tick has come. -/
def waits : TerminalView → List Bool → TerminalView × Outcome
  | v, [] => (v, .running)
  | v, due :: rest =>
    match v.turn none due with
    | (v', .running) => waits v' rest
    | result => result

theorem waits_cons (v : TerminalView) (due : Bool) (rest : List Bool) :
    v.waits (due :: rest) =
      match v.turn none due with
      | (v', .running) => v'.waits rest
      | result => result :=
  rfl

/-- A turn before the time has come changes nothing. -/
theorem turn_waits (h : v.redraw = false) : v.turn none false = (v, .running) := by
  obtain ⟨_, redraw, _, _, _⟩ := v
  cases h
  rfl

/-- A run that has ended is not changed by further turns. -/
theorem idle_of_le {m n : Nat} (hend : (v.idle m).2 ≠ .running) (hle : m ≤ n) :
    v.idle n = v.idle m := by
  induction m generalizing v n with
  | zero => exact absurd rfl hend
  | succ m ih =>
      cases n with
      | zero => exact absurd hle (Nat.not_succ_le_zero m)
      | succ n =>
          rw [idle_succ] at hend
          rw [idle_succ, idle_succ]
          generalize v.proceed = result at hend ⊢
          obtain ⟨v', outcome⟩ := result
          cases outcome with
          | running => exact ih hend (Nat.le_of_succ_le_succ hle)
          | stopped exit => rfl
          | failed failure => rfl

/-- Only the turns whose time has come count. -/
theorem waits_eq_idle (v : TerminalView) (dues : List Bool) :
    ∃ n, v.waits dues = v.idle n ∧ dues.count true ≤ n := by
  induction dues generalizing v with
  | nil => exact ⟨0, rfl, Nat.le_refl 0⟩
  | cons due rest ih =>
      by_cases hdue : (v.redraw || due) = true
      · rw [waits_cons, turn_none hdue]
        cases hproceed : v.proceed with
        | mk v' outcome =>
            cases outcome with
            | running =>
                obtain ⟨n, hn, hcount⟩ := ih v'
                refine ⟨n + 1, ?_, ?_⟩
                · rw [idle_succ, hproceed]
                  exact hn
                · rw [List.count_cons]
                  split <;> omega
            -- Once the run has ended, any number of turns will do.
            | stopped exit =>
                refine ⟨rest.length + 1, ?_, List.count_le_length⟩
                rw [idle_succ, hproceed]
            | failed failure =>
                refine ⟨rest.length + 1, ?_, List.count_le_length⟩
                rw [idle_succ, hproceed]
      · simp only [Bool.or_eq_true, not_or, Bool.not_eq_true] at hdue
        obtain ⟨hredraw, rfl⟩ := hdue
        obtain ⟨n, hn, hcount⟩ := ih v
        refine ⟨n, ?_, by simpa using hcount⟩
        rw [waits_cons, turn_waits hredraw]
        exact hn

/-- However long the turns wait, a run comes to the end that it comes to when none of them does. -/
theorem waits_eq_of_idle {n : Nat} (hend : (v.idle n).2 ≠ .running) (dues : List Bool) :
    v.waits dues = v.idle n ∨
      (v.waits dues).2 = .running ∧ dues.count true < n := by
  obtain ⟨m, hm, hcount⟩ := v.waits_eq_idle dues
  rw [hm]
  by_cases hrunning : (v.idle m).2 = .running
  · by_cases hle : n ≤ m
    · exact .inl (idle_of_le hend hle)
    · exact .inr ⟨hrunning, by omega⟩
  · rcases Nat.le_total m n with hle | hle
    · exact .inl (idle_of_le hrunning hle).symm
    · exact .inl (idle_of_le hend hle)

end TerminalView

/-- **Runs with and without a terminal write the same.** Unless the flicker compares dead cells, a
run that is not paused and knows its last tick writes the same images under the same paths in the
same order, whatever font their subtitles are drawn in, leaves the same files, and ends in the same
way at the same tick with the same board, with a terminal at which nobody types as without one.
Either both fail for the same file, or both are done with the last tick. However long the turns on
the terminal wait for the time of the next tick, the run comes to the same end as when none of them
waits, and it has come to it once the time has come often enough. -/
theorem headless_agrees_with_terminal {s : Session} (hs : s.Coherent)
    (hunpaused : s.sim.paused = false) (hmax : s.args.maxTicks.isSome = true)
    (hmode : s.sim.flicker.mode ≠ .swing) :
    s.headless.1.written = (s.terminal []).1.written ∧
      s.headless.1.files = (s.terminal []).1.files ∧
      s.headless.1.sim.tick = (s.terminal []).1.sim.tick ∧
      s.headless.1.sim.board = (s.terminal []).1.sim.board ∧
      ((∃ failure, s.headless.2 = .error failure ∧ (s.terminal []).2.2 = .failed failure) ∨
        (s.headless.2 = .ok .done ∧ (s.terminal []).2.2 = .stopped .done ∧
          s.headless.1.sim.finished = true)) ∧
      ∀ dues, (TerminalView.start { s with history := [] }).waits dues =
          (TerminalView.start { s with history := [] }).run [] ∨
        ((TerminalView.start { s with history := [] }).waits dues).2 = .running ∧
          dues.count true < s.ticksLeft + 2 := by
  have hheadless : s.headless = s.headlessFrom s.ticksLeft := by
    cases hmaxTicks : s.args.maxTicks with
    | none => simp [hmaxTicks] at hmax
    | some last => simp [headless, hmaxTicks, hunpaused]
  have hruns : TerminalView.Runs s s.ticksLeft := ⟨hunpaused, hs.lastTick ▸ hmax, rfl⟩
  have hfresh : (TerminalView.start { s with history := [] }).Fresh :=
    ⟨by simp [TerminalView.start], by simp [TerminalView.start]⟩
  have hsame := TerminalView.idle_start (Alike.start hmode) hfresh rfl hruns
  have hended := hsame.ended
  obtain ⟨halike, hend⟩ := hsame
  rw [← hheadless] at halike hend
  obtain ⟨v, outcome, hrun⟩ : ∃ v outcome,
      (TerminalView.start { s with history := [] }).run [] = (v, outcome) := ⟨_, _, rfl⟩
  have hidle : (TerminalView.start { s with history := [] }).idle (s.ticksLeft + 2) =
      (v, outcome) := hrun
  rw [hidle] at halike hend
  have hargs : v.session.args = s.args := halike.argsRight
  have hcaption : v.session.caption = s.caption := halike.captionRight
  have hdirectory : v.session.directory = s.directory := halike.directoryRight
  have hterminal : (s.terminal []).1 =
      { v.session with history := v.session.history ++ s.history } := by
    simp only [terminal, hrun]
  have houtcome : (s.terminal []).2.2 = outcome := by
    simp only [terminal, hrun]
  rw [hterminal, houtcome]
  refine ⟨?_, halike.files, halike.sim.tick, halike.sim.board, hend, ?_⟩
  · rw [halike.written, written_eq, written_eq, written_eq]
    simp only [acts, List.reverse_append, List.filterMap_append, hargs, hcaption,
      hdirectory]
  · intro dues
    rw [hrun, ← hidle]
    exact TerminalView.waits_eq_of_idle hended dues

/-- A session in the mode that compares live cells, which starts before its first tick is drawn. Its
frames are saved with subtitles. -/
def drifting : Except StartError Session :=
  (Session.start
    { dimensions := "3x2".toList
      rules := "0145678/3,/2".toList
      seed := "S".toList
      board := some "110.000".toList
      flickerMode := 5
      tick := -1
      maxTicks := some 2
      renderImages := some "0:2".toList
      imageFormat := "%T%i.png".toList
      fontPath := some "dots.ttf".toList
      fontSize := 3
      subtitle := "%t".toList }
    ⟨80, 24⟩ "frames".toList
    { root := .directory [("dots.ttf".toList, .file none)], present := [] } []
    fun _ => some View.dots).outcome

theorem headless_agrees_with_terminal_drifting :
    ∃ s, drifting = .ok s ∧ s.headless.1.written = (s.terminal []).1.written ∧
      s.headless.1.written.length = 3 ∧ s.caption = some (.ofFont View.dots 3) ∧
      s.headless.2 = .ok .done ∧ (s.terminal []).2.2 = .stopped .done := by
  have hfacts : drifting.toOption.any (fun s => decide (s.sim.paused = false ∧
      s.args.maxTicks.isSome = true ∧ s.sim.flicker.mode ≠ .swing ∧
      s.headless.1.written.length = 3 ∧ s.headless.2.toOption = some .done)) = true := by
    decide +kernel
  obtain ⟨s, hs, hfacts⟩ := (Option.any_eq_true _ _).mp hfacts
  obtain ⟨hunpaused, hmax, hmode, hlength, hexit⟩ := of_decide_eq_true hfacts
  have hs := Outcome.toOption_eq_some_iff.mp hs
  have hexit := Outcome.toOption_eq_some_iff.mp hexit
  obtain ⟨hwritten, _, _, _, hend, _⟩ :=
    headless_agrees_with_terminal (coherent_of_start hs) hunpaused hmax hmode
  have hcaption := (caption_of_start hs).mpr ⟨rfl, rfl, _, _, rfl, ⟨none, rfl⟩, rfl, rfl⟩
  refine ⟨s, hs, hwritten, hlength, hcaption, hexit, ?_⟩
  rcases hend with ⟨failure, hfailed, _⟩ | ⟨_, hstopped, _⟩
  · rw [hexit] at hfailed
    cases hfailed
  · exact hstopped

end TorusAutomaton.Session
