import TorusAutomaton.Proofs.Session.Agreement
import TorusAutomaton.Proofs.Session.Safety

/-!
# What a run keeps

A run is made of few parts: an operation on the simulation, drawing a frame, and saving one. A
property of sessions that each of them keeps is kept by a run without a terminal, and by a run on a
terminal whatever is typed and whenever the time for a tick comes.
-/

namespace TorusAutomaton.Session

open TorusAutomaton

/-- A property of sessions that every part of a run keeps. -/
structure Lasting (P : Session → Prop) : Prop where
  perform : ∀ {s : Session} (op : Simulation.Operation), P s → P (s.perform op)
  draw : ∀ {s : Session} (inverted : Bool), P s → P (s.add (.drew (s.frame inverted)))
  save : ∀ {s : Session} (inverted : Bool), P s → P (s.save inverted).1

namespace Lasting

variable {P : Session → Prop} {s : Session}

theorem ask (hP : Lasting P) (h : P s) : P s.ask.1 := hP.perform .ask h

theorem press (hP : Lasting P) (h : P s) (key : Key) : P (s.press key).1 := by
  unfold Session.press
  split
  case h_4 => exact hP.perform .togglePause h
  case h_5 => exact hP.perform .cycleFlicker h
  case h_6 =>
    split
    · exact hP.perform .advance h
    · exact h
  all_goals exact h

/-! ## Without a terminal -/

theorem saveDue (hP : Lasting P) (h : P s) : P s.saveDue.1 := by
  unfold Session.saveDue
  split
  · exact hP.save _ (hP.ask h)
  · exact h

theorem headlessFrom (hP : Lasting P) (h : P s) (steps : Nat) : P (s.headlessFrom steps).1 := by
  induction steps generalizing s with
  | zero =>
      rw [TerminalView.headlessFrom_eq]
      split
      · exact hP.saveDue h
      · split <;> exact hP.saveDue h
  | succ steps ih =>
      rw [TerminalView.headlessFrom_eq]
      split
      · exact hP.saveDue h
      · split
        · exact hP.saveDue h
        · exact ih (hP.perform .step (hP.saveDue h))

theorem headless (hP : Lasting P) (h : P s) : P s.headless.1 := by
  unfold Session.headless
  split
  · exact h
  · split
    · exact h
    · exact hP.headlessFrom h _

/-! ## On a terminal -/

variable {v v' : TerminalView} {key : Option Key} {due : Bool} {outcome : Outcome}

theorem askOnce (hP : Lasting P) (h : P v.session) : P v.askOnce.session := by
  unfold TerminalView.askOnce
  split
  · exact h
  · exact hP.ask h

theorem display (hP : Lasting P) (h : P v.session) : P v.display.session := by
  unfold TerminalView.display
  split
  · exact hP.draw _ (hP.askOnce h)
  · exact hP.askOnce h

theorem saveView (hP : Lasting P) (h : P v.session) : P v.save.1.session := by
  rw [v.save_view.1]
  exact hP.save v.inverted h

theorem present (hP : Lasting P) (h : P v.session) : P v.present.1.session := by
  rw [TerminalView.present_eq]
  split
  · split
    · exact hP.saveView (hP.display h)
    · exact hP.display h
  · exact h

theorem keyed (hP : Lasting P) (h : P v.session) (key : Option Key) :
    P (v.keyed key).1.session := by
  cases key with
  | none => exact h
  | some k => exact hP.press h k

theorem turn (hP : Lasting P) (h : P v.session) (hturn : v.turn key due = (v', outcome)) :
    P v'.session := by
  have hkeyed := hP.keyed h key
  rcases TerminalView.turn_cases hturn with ⟨_, _, rfl, _⟩ | ⟨_, _, rfl, _⟩ | ⟨_, _, hproceed⟩
  · exact hkeyed
  · exact hkeyed
  · have hpresent := hP.present hkeyed
    rcases TerminalView.proceed_cases hproceed with ⟨_, heq, _⟩ | ⟨heq, _, _⟩ |
      ⟨v₂, heq, _, _, _, rfl⟩ | ⟨v₂, heq, _, _, _, rfl⟩
    all_goals rw [heq] at hpresent
    · exact hpresent
    · exact hpresent
    · exact hpresent
    · exact hP.perform .step hpresent

theorem reaches (hP : Lasting P) (h : P { s with history := [] })
    (hreaches : TerminalView.Reaches s v outcome) : P v.session := by
  induction hreaches with
  | start => exact h
  | turn _ hturn ih => exact hP.turn ih hturn

end Lasting

/-- A run on a terminal leaves the session that its last turn has come to, if nothing had happened
in the session before. -/
theorem terminal_of_fresh {s : Session} (h : s.history = []) (keys : List Key) :
    (s.terminal keys).1 =
      ((TerminalView.start { s with history := [] }).run keys).1.session := by
  show ({ ((TerminalView.start { s with history := [] }).run keys).1.session with
    history := _ ++ s.history } : Session) = _
  rw [h, List.append_nil]
  rfl

end TorusAutomaton.Session
