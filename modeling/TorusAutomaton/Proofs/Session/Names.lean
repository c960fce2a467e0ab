import TorusAutomaton.Proofs.Session.Comparisons
import TorusAutomaton.Proofs.Session.Labels
import TorusAutomaton.Proofs.TickSet.Members

/-!
# Names of the frames of a run

Nothing that is done to a session changes the rules, the sides of the board or the seed, so the
names of all its frames are made of the same values but for the mode, the marks and the tick. Frames
are saved for later and later ticks, and never before tick zero. With the tick in the template no
name is given twice, whatever keys are typed, and no frame takes the place of another one.
-/

namespace TorusAutomaton

namespace Simulation

/-- The bindings of a simulation whose frame is to be saved. -/
theorem regular_bindings {s : Simulation} (h : s.shouldSave = true) (inverted : Bool) :
    (s.bindings inverted).Regular where
  modeNumber := Nat.lt_trans (Flicker.Mode.number_lt _) (by decide)
  modeLetter := by
    show s.flicker.mode.letter ≠ '/'
    cases s.flicker.mode <;> decide
  tick := by
    show 0 ≤ s.tick
    simp only [shouldSave, Bool.and_eq_true, selected] at h
    split at h
    · exact TickSet.nonneg_of_contains h.2
    · exact absurd h.2 (by decide)

end Simulation

namespace Session

open TorusAutomaton

variable {first s : Session}

/-! ## Names -/

/-- Frames of different ticks have different names, so no name is given twice and no path is written
to twice. -/
structure NamesApart (s : Session) : Prop where
  names : ∀ f ∈ s.filed, ∀ g ∈ s.filed, f.sim.tick ≠ g.sim.tick →
    f.expand s.args.imageFormat ≠ g.expand s.args.imageFormat
  once : (s.filed.map fun f => f.expand s.args.imageFormat).Nodup
  paths : (s.written.map Prod.fst).Nodup

/-- Frames were filed when they were due, and for later and later ticks. -/
structure FiledInOrder (s : Session) : Prop where
  due : ∀ f ∈ s.filed, f.sim.shouldSave = true
  ascending : (s.filed.map fun f => f.sim.tick).Pairwise (· < ·)

theorem written_paths {directory : Text} (h : s.directory = some directory) :
    s.written.map Prod.fst = s.filed.map fun f => f.path s.args directory := by
  simp only [written, h, filed, List.map_filterMap]
  congr 1
  funext act
  cases act <;> rfl

theorem Labelled.namesApart (h : first.Labelled s) (hfiled : s.FiledInOrder)
    (htemplate : ['%', 't'] <:+: s.args.imageFormat ∨ ['%', 'T'] <:+: s.args.imageFormat) :
    s.NamesApart := by
  have hlabel : ∀ f ∈ s.filed, (f.sim.bindings f.inverted).constant = first.sim.label := by
    intro f hf
    obtain ⟨act, hact, hact'⟩ := List.mem_filterMap.mp hf
    exact (h.frames act (List.mem_reverse.mp hact) f (frame_of_filed hact')).label
  have hregular : ∀ f ∈ s.filed, (f.sim.bindings f.inverted).Regular :=
    fun f hf => Simulation.regular_bindings (hfiled.due f hf) f.inverted
  have hnames : ∀ {f g : Frame}, f ∈ s.filed → g ∈ s.filed → f.sim.tick < g.sim.tick →
      f.expand s.args.imageFormat ≠ g.expand s.args.imageFormat := by
    intro f g hf hg hlt heq
    exact Int.ne_of_lt hlt (Template.tick_eq_of_expand_eq htemplate
      ((hlabel f hf).trans (hlabel g hg).symm) (hregular f hf) (hregular g hg) heq)
  have hordered : s.filed.Pairwise fun f g => f.sim.tick < g.sim.tick :=
    List.pairwise_map.mp hfiled.ascending
  constructor
  case names =>
    intro f hf g hg hne
    rcases Int.lt_or_gt_of_ne hne with hlt | hgt
    · exact hnames hf hg hlt
    · exact (hnames hg hf hgt).symm
  case once => exact List.pairwise_map.mpr (hordered.imp_of_mem hnames)
  case paths =>
    cases hdirectory : s.directory with
    | none => simp [written, hdirectory]
    | some directory =>
        rw [written_paths hdirectory]
        refine List.pairwise_map.mpr (hordered.imp_of_mem ?_)
        intro f g hf hg hlt hpath
        have hroot := Template.isRooted_expand s.args.imageFormat
          ((hlabel f hf).trans (hlabel g hg).symm) (hregular f hf) (hregular g hg)
        exact hnames hf hg hlt (Path.join_cancel hroot hpath)

/-! ## Whole runs -/

theorem filedInOrder_headless (hs : s.Consistent) (hnone : s.filed = []) :
    s.headless.1.FiledInOrder := by
  rcases filed_headless hs hnone with hempty | ⟨hunpaused, n, hframes⟩
  · constructor <;> simp [hempty]
  · constructor
    case due =>
      intro f hf
      rw [hframes] at hf
      obtain ⟨k, _, hdue, rfl⟩ := mem_framesWithin.mp hf
      exact hdue
    case ascending =>
      rw [hframes]
      cases n with
      | zero => exact List.Pairwise.nil
      | succ n => exact (framesTo_framesWithin hs hunpaused n).ascending

theorem TerminalView.Reaches.filedInOrder (hs : s.Coherent) {v : TerminalView} {outcome : Outcome}
    (h : Reaches s v outcome) : v.session.FiledInOrder := by
  obtain ⟨horderly, -⟩ := h.sound hs
  constructor
  case due =>
    intro f hf
    obtain ⟨act, hact, hact'⟩ := List.mem_filterMap.mp hf
    exact horderly.filedDue act (List.mem_reverse.mp hact) f hact'
  case ascending => exact increasing_acts horderly

/-- **Frame names never collide within a run.** If the tick stands anywhere in the template for
names, padded or not, then frames of different ticks have different names, in a run without a
terminal and in a run on one, whatever is typed and whenever the time for a tick comes. Hence all
names of a run are different and no path is written to twice, be the flicker mode changed on the way
or not. -/
theorem frame_names_never_collide {args : CommandLine.Arguments}
    {size : CommandLine.TerminalSize} {directory fresh : Text} {files : FileTree} {fonts : Fonts}
    (hs : (Session.start args size directory files fresh fonts).outcome = .ok s)
    (htemplate : ['%', 't'] <:+: args.imageFormat ∨ ['%', 'T'] <:+: args.imageFormat) :
    s.headless.1.NamesApart ∧ (∀ keys, (s.terminal keys).1.NamesApart) ∧
      ∀ v outcome, TerminalView.Reaches s v outcome → v.session.NamesApart := by
  obtain ⟨_, _, _, _, _, _, _, heq⟩ := parts_of_start hs
  have hargs : s.args = args := by rw [heq]
  have hhistory : s.history = [] := by rw [heq]
  have hlabelled : s.Labelled s :=
    ⟨rfl, .refl _, fun act hact => absurd (hhistory ▸ hact) List.not_mem_nil⟩
  have htemplate' : ∀ {s' : Session}, s.Labelled s' →
      ['%', 't'] <:+: s'.args.imageFormat ∨ ['%', 'T'] <:+: s'.args.imageFormat := by
    intro s' h
    rw [h.args, hargs]
    exact htemplate
  have hreaches : ∀ v outcome, TerminalView.Reaches s v outcome → v.session.NamesApart := by
    intro v outcome h
    have hreached := (lasting_labelled s).reaches (labelled_start s) h
    exact hreached.namesApart (h.filedInOrder (coherent_of_start hs)) (htemplate' hreached)
  refine ⟨?headless, ?terminal, hreaches⟩
  case headless =>
    have hheadless := (lasting_labelled s).headless hlabelled
    exact hheadless.namesApart
      (filedInOrder_headless (consistent_of_start hs) (fresh_of_start hs).1) (htemplate' hheadless)
  case terminal =>
    intro keys
    have hrun := hreaches _ _ (TerminalView.reaches_run s keys)
    rw [terminal_of_fresh hhistory]
    exact hrun

/-- A session in which the tick gets a second digit between the number of the mode, a digit of the
template and a mark. -/
def milestones : Except StartError Session :=
  (Session.start
    { dimensions := "2x1".toList
      rules := "8/8".toList
      seed := "S".toList
      board := some "10".toList
      flickerMode := 3
      tick := 9
      maxTicks := some 11
      renderImages := some "9:11".toList
      imageFormat := "%f1%t%i.png".toList }
    ⟨80, 24⟩ "frames".toList { root := .empty, present := [] } []).outcome

theorem frame_names_never_collide_milestones :
    ['%', 't'] <:+: "%f1%t%i.png".toList ∧ ∃ s, milestones = .ok s ∧
      (s.headless.1.filed.map fun f => f.expand s.args.imageFormat) =
        ["319 .png".toList, "3110i.png".toList, "3111 .png".toList] ∧
      s.headless.1.NamesApart ∧
      ((s.terminal [.char 'f', .char 'x', .char 'f']).1.filed.map fun f =>
          f.expand s.args.imageFormat) =
        ["019 .png".toList, "1110 .png".toList, "1111 .png".toList] ∧
      (s.terminal [.char 'f', .char 'x', .char 'f']).1.NamesApart := by
  have htemplate : ['%', 't'] <:+: "%f1%t%i.png".toList := by decide
  have hfacts : milestones.toOption.any (fun s => decide (
      (s.headless.1.filed.map fun f => f.expand s.args.imageFormat) =
        ["319 .png".toList, "3110i.png".toList, "3111 .png".toList] ∧
      ((s.terminal [.char 'f', .char 'x', .char 'f']).1.filed.map fun f =>
          f.expand s.args.imageFormat) =
        ["019 .png".toList, "1110 .png".toList, "1111 .png".toList])) = true := by
    decide +kernel
  obtain ⟨s, hs, hfacts⟩ := (Option.any_eq_true _ _).mp hfacts
  obtain ⟨hheadless, hterminal⟩ := of_decide_eq_true hfacts
  have hs := Outcome.toOption_eq_some_iff.mp hs
  obtain ⟨hapart, hapart', -⟩ := frame_names_never_collide hs (.inl htemplate)
  exact ⟨htemplate, s, hs, hheadless, hapart, hterminal, hapart' _⟩

end Session

end TorusAutomaton
