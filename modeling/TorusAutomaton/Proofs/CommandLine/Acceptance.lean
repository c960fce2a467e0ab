import TorusAutomaton.Proofs.CommandLine.Recovery
import TorusAutomaton.Proofs.Session.Start

/-!
# When the recovery command is accepted

Every value of the recovery command stands in an argument of its own. The options for rules, seeds
and sets of ticks take a value there whatever it looks like; those for tiles, texts and paths do not
take one that looks like an option, although they do when it is attached to their names. So the
recovery command is refused exactly if one of these values looks like an option or the fill is the
negative zero, and otherwise it is read as arguments that show the run as before.
-/

namespace TorusAutomaton.CommandLine

open TorusAutomaton Text Outcome

/-! ## What the run looks like -/

/-- Arguments that show a run in the same way: on as large a board, with the same texts, at the same
pace and with the same ticks drawn and saved. -/
structure Arguments.ShowsAs (a b : Arguments) : Prop where
  dimensions : b.dimensions = a.dimensions
  tiles : b.tiles = a.tiles
  fill : b.fill = a.fill
  maxTicks : b.maxTicks = a.maxTicks
  renderEvery : b.renderEvery = a.renderEvery
  renderImages : b.renderImages = a.renderImages
  /-- Paths are told apart by their parts. -/
  imageDir : Path.parts b.imageDir = Path.parts a.imageDir
  imageFormat : b.imageFormat = a.imageFormat
  zoom : b.zoom = a.zoom
  fontPath : b.fontPath = a.fontPath
  fontSize : b.fontSize = a.fontSize
  subtitle : b.subtitle = a.subtitle
  noSubtitle : b.noSubtitle = a.noSubtitle
  ms : b.ms = a.ms

section Values

variable {a a' : Arguments} {s : Simulation}

/-- The fill is kept, also where it is left out. -/
theorem fill_of_restored (a : Arguments) (s : Simulation) : (restored a s).fill = a.fill := by
  show (if a.fill != defaults.fill then a.fill else defaults.fill) = a.fill
  split
  · rfl
  · rename_i hsame
    have hequal : (a.fill == defaults.fill) = true := by simpa [bne] using hsame
    -- Different numbers are equal only if both are zero.
    rcases (Float.beq_iff_ne_nan_and_eq.mp hequal).2.2 with hfill | ⟨_, hzero⟩ | ⟨_, hzero⟩
    · exact hfill.symm
    · exact absurd hzero (by decide +kernel)
    · exact absurd hzero (by decide +kernel)

theorem showsAs_restored (a : Arguments) (s : Simulation) : a.ShowsAs (restored a s) where
  dimensions := rfl
  tiles := rfl
  fill := fill_of_restored a s
  maxTicks := rfl
  renderEvery := rfl
  renderImages := rfl
  imageDir := by
    show Path.parts (if Path.parts a.imageDir != Path.parts defaults.imageDir then a.imageDir
      else defaults.imageDir) = Path.parts a.imageDir
    split
    · rfl
    · rename_i hsame
      exact (by simpa using hsame : Path.parts a.imageDir = Path.parts defaults.imageDir).symm
  imageFormat := rfl
  zoom := rfl
  fontPath := rfl
  fontSize := rfl
  subtitle := rfl
  noSubtitle := rfl
  ms := rfl

/-! ## What is refused -/

/-- A path that starts with a hyphen leads through a name that does. -/
theorem exists_parts_eq (rest : Text) :
    ∃ name names, Path.parts ('-' :: rest) = ('-' :: name) :: names := by
  obtain ⟨name, names, hnames⟩ :=
    List.exists_cons_of_ne_nil (List.splitOnP_ne_nil (fun c => c == '/') rest)
  have hsplit : ('-' :: rest).splitOn '/' = ('-' :: name) :: names := by
    rw [List.splitOn, List.splitOnP_cons_eq_if_modifyHead, hnames]
    rfl
  refine ⟨name, names.filter fun name => !Path.isIdle name, ?_⟩
  show [] ++ Path.names ('-' :: rest) = _
  rw [List.nil_append, Path.names, hsplit, List.filter_cons_of_pos]
  simp [Path.isIdle]

/-- A value that its option takes does not look like an option, provided that it would be said. -/
theorem not_looksLikeOption_of_said {o : Opt} (ho : o.hyphens = .refused) {wanted : Bool}
    {value : Text} (hwanted : LooksLikeOption value → wanted = true)
    (htakes : ∀ v, sayIf wanted value = some v → o.takes v = true) : ¬ LooksLikeOption value := by
  intro hyphen
  have hsaid : sayIf wanted value = some value := sayIf_eq_some_iff.mpr ⟨hwanted hyphen, rfl⟩
  exact (takes_iff ho).mp (htakes value hsaid) hyphen

theorem takes_of_parse_recoveryWords (h : parse (recoveryWords a s) = .ok a') {o : Opt}
    (ho : o ∈ recoveryOrder) {v : Text} (hv : recoveryValue a s o = some v) :
    o.takes v = true := by
  apply takes_of_parse h (o, v)
  rw [recoverySettings_eq]
  exact List.mem_flatMap.mpr ⟨o, ho, mem_settingOf_iff.mpr ⟨v, hv, rfl⟩⟩

/-- Only arguments whose values can stand in arguments of their own have a recovery command that is
read. -/
theorem repeatable_of_parse (h : parse (recoveryWords a s) = .ok a') : a.Repeatable := by
  have htakes (o : Opt) (ho : o ∈ recoveryOrder) (v : Text) :
      recoveryValue a s o = some v → o.takes v = true := takes_of_parse_recoveryWords h ho
  -- What is left out is the default, which does not look like an option.
  have hsaid {value d : Text} (hd : ¬ LooksLikeOption d) (hyphen : LooksLikeOption value) :
      (value != d) = true := by
    rw [bne_iff_ne]
    rintro rfl
    exact hd hyphen
  constructor
  case tiles =>
    exact not_looksLikeOption_of_said rfl (hsaid (by decide)) (htakes .tiles (by decide))
  case imageDir =>
    refine not_looksLikeOption_of_said rfl ?_ (htakes .imageDir (by decide))
    rintro ⟨hhead, -⟩
    obtain ⟨rest, hpath⟩ := List.head?_eq_some_iff.mp hhead
    obtain ⟨name, names, hparts⟩ := exists_parts_eq rest
    have hdefault : Path.parts defaults.imageDir = ["frames".toList] := by decide
    rw [hpath, hparts, hdefault, bne_iff_ne]
    simp
  case imageFormat =>
    exact not_looksLikeOption_of_said rfl (hsaid (by decide)) (htakes .imageFormat (by decide))
  case subtitle =>
    exact not_looksLikeOption_of_said rfl (hsaid (by decide)) (htakes .subtitle (by decide))
  case fontPath =>
    intro path hpath
    exact (takes_iff rfl).mp (htakes .fontPath (by decide) path hpath)
  case fill =>
    intro hfill
    have hvalue : recoveryValue a s .fill = some "-0".toList := by
      show sayIf (a.fill != defaults.fill) (Decimal.render a.fill) = _
      rw [hfill]
      decide +kernel
    have := htakes .fill (by decide) _ hvalue
    exact absurd this (by decide)

end Values

/-! ## Whole runs -/

/-- **The recovery command is accepted exactly if its values can be repeated.** Whatever has been
done in a run since a command line started it, a shell reads words from the recovery command; they
are read as arguments exactly if no text or path of the run looks like an option and its fill is not
the negative zero; and all arguments they are read as show the run as it was shown. -/
theorem recoveryCommand_accepted_iff {argv : List Text} {a : Arguments} {size : TerminalSize}
    {directory fresh : Text} {files : Session.FileTree} {fonts : Session.Fonts} {s₀ : Session}
    (hparse : parse argv = .ok a)
    (hstart : (Session.start a size directory files fresh fonts).outcome = .ok s₀)
    (ops : List Simulation.Operation)
    (htick : (ops.foldl Simulation.perform s₀.sim).tick ≤ Numeral.maxI64) :
    ∃ argv', Shell.words (recoveryCommand a (ops.foldl Simulation.perform s₀.sim)) =
        some (programName :: argv') ∧
      ((∃ a', parse argv' = .ok a') ↔ a.Repeatable) ∧
      ∀ a', parse argv' = .ok a' → a.ShowsAs a' := by
  generalize hs : ops.foldl Simulation.perform s₀.sim = s at htick ⊢
  obtain ⟨c, hconfig, hcreate⟩ := Session.create_of_start hstart
  have hrange := inRange_of_parse hparse
  have hunder : s.Under c fresh := hs ▸ (Simulation.under_of_create hcreate).performAll ops
  have hsettings := settings_of_config hconfig
  have hfill : 0 ≤ a.fill := by
    rw [← hsettings.fill]
    exact (Simulation.checkNumbers_eq_ok_iff.mp hunder.numbers).1.1
  have htickMin : -((Numeral.maxI64 : Int) + 1) ≤ s.tick := by
    have hstartTick := hunder.tick
    rw [hsettings.startTick] at hstartTick
    exact Int.le_trans hrange.tick.1 hstartTick
  have hread (hr : a.Repeatable) : parse (recoveryWords a s) = .ok (restored a s) :=
    parse_recoveryWords_of_repeatable hrange hr hconfig hfill ⟨htickMin, htick⟩
  refine ⟨recoveryWords a s, words_recoveryCommand a s, ⟨?_, fun hr => ⟨_, hread hr⟩⟩, ?_⟩
  · rintro ⟨a', ha'⟩
    exact repeatable_of_parse ha'
  · intro a' ha'
    rw [hread (repeatable_of_parse ha')] at ha'
    cases ha'
    exact showsAs_restored a s

/-- What a command line starts, with nothing around. -/
def started (argv : List Text) : Option (Arguments × Session) := do
  let a ← (parse argv).toOption
  let s ← (Session.start a ⟨80, 24⟩ [] { root := .empty, present := [] } []).outcome.toOption
  return (a, s)

theorem started_eq_some_iff {argv : List Text} {a : Arguments} {s : Session} :
    started argv = some (a, s) ↔ parse argv = .ok a ∧
      (Session.start a ⟨80, 24⟩ [] { root := .empty, present := [] } []).outcome = .ok s := by
  simp [started, Option.bind_eq_some_iff, toOption_eq_some_iff]

/-- Hyphens where they do no harm: alone, inside values, and in a seed. -/
theorem recoveryCommand_accepted_iff_hyphens :
    ∃ a s₀, parse ["-d2x2".toList, "-b10.01".toList, "-e".toList, "-x".toList, "-s".toList,
        "-".toList, "--fill=0.25".toList, "--image-dir".toList, "./-x".toList] = .ok a ∧
      (Session.start a ⟨80, 24⟩ [] { root := .empty, present := [] } []).outcome = .ok s₀ ∧
      ∃ argv' a', Shell.words (recoveryCommand a (s₀.sim.perform .step)) =
          some (programName :: argv') ∧
        parse argv' = .ok a' ∧ a.ShowsAs a' := by
  have hfacts : (started ["-d2x2".toList, "-b10.01".toList, "-e".toList, "-x".toList, "-s".toList,
      "-".toList, "--fill=0.25".toList, "--image-dir".toList, "./-x".toList]).any (fun (a, s₀) =>
        decide (a.Repeatable ∧ (s₀.sim.perform .step).tick ≤ Numeral.maxI64)) = true := by
    decide +kernel
  obtain ⟨⟨a, s₀⟩, hstarted, hfacts⟩ := (Option.any_eq_true _ _).mp hfacts
  obtain ⟨hrepeatable, htick⟩ := of_decide_eq_true hfacts
  obtain ⟨hparse, hstart⟩ := started_eq_some_iff.mp hstarted
  obtain ⟨argv', hwords, hiff, hshows⟩ :=
    recoveryCommand_accepted_iff hparse hstart [.step] htick
  obtain ⟨a', ha'⟩ := hiff.mpr hrepeatable
  exact ⟨a, s₀, hparse, hstart, argv', a', hwords, ha', hshows a' ha'⟩

/-- Tiles that look like an option are taken when they are attached to its name; the recovery
command gives them in an argument of their own, where they are an unknown option. -/
theorem recoveryCommand_refused :
    ∃ a s₀ argv', parse ["-d2x2".toList, "-b10.01".toList, "--tiles=-o".toList] = .ok a ∧
      (Session.start a ⟨80, 24⟩ [] { root := .empty, present := [] } []).outcome = .ok s₀ ∧
      Shell.words (recoveryCommand a s₀.sim) = some (programName :: argv') ∧
      parse argv' = .error .unknownArgument := by
  have hfacts : (started ["-d2x2".toList, "-b10.01".toList, "--tiles=-o".toList]).any
      (fun (a, s₀) => match parse (recoveryWords a s₀.sim) with
        | .error e => e = .unknownArgument
        | .ok _ => false) = true := by
    decide +kernel
  obtain ⟨⟨a, s₀⟩, hstarted, hfacts⟩ := (Option.any_eq_true _ _).mp hfacts
  obtain ⟨hparse, hstart⟩ := started_eq_some_iff.mp hstarted
  refine ⟨a, s₀, recoveryWords a s₀.sim, hparse, hstart, words_recoveryCommand a s₀.sim, ?_⟩
  dsimp only at hfacts
  split at hfacts
  · rename_i e herror
    rw [herror, of_decide_eq_true hfacts]
  · cases hfacts

end TorusAutomaton.CommandLine
