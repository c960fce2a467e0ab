import Mathlib.Tactic.MkIffOfInductiveProp
import TorusAutomaton.CommandLine.Dimensions
import TorusAutomaton.Proofs.Board.Text
import TorusAutomaton.Proofs.CommandLine.Ranges
import TorusAutomaton.Proofs.CommandLine.Settings
import TorusAutomaton.Proofs.Decimal.ReadBack
import TorusAutomaton.Proofs.Decimal.Sign
import TorusAutomaton.Proofs.Simulation.Reached

/-!
# The recovery command read again

Every value in the recovery command is taken by its option, none is given twice, and together they
set the arguments that a run is restored from: those it was started with, except for what has been
settled since and for what is of no use to a run that goes on.
-/

namespace TorusAutomaton.CommandLine

open TorusAutomaton Text Outcome

/-- Texts that the recovery command writes as they are do not look like options, and the fill is
written without a sign. -/
structure Arguments.Recoverable (a : Arguments) : Prop where
  tiles : a.tiles.head? ≠ some '-'
  imageDir : a.imageDir.head? ≠ some '-'
  imageFormat : a.imageFormat.head? ≠ some '-'
  subtitle : a.subtitle.head? ≠ some '-'
  fontPath : ∀ path ∈ a.fontPath, path.head? ≠ some '-'
  fillSign : a.fill ≠ -0.0

/-- A text that an argument of its own makes an option: something follows a hyphen. -/
def LooksLikeOption (t : Text) : Prop := t.head? = some '-' ∧ t ≠ ['-']

instance : DecidablePred LooksLikeOption := fun t =>
  inferInstanceAs (Decidable (t.head? = some '-' ∧ t ≠ ['-']))

/-- Whatever the recovery command says of these arguments can stand in an argument of its own. -/
@[mk_iff]
structure Arguments.Repeatable (a : Arguments) : Prop where
  tiles : ¬ LooksLikeOption a.tiles
  imageDir : ¬ LooksLikeOption a.imageDir
  imageFormat : ¬ LooksLikeOption a.imageFormat
  subtitle : ¬ LooksLikeOption a.subtitle
  fontPath : ∀ path ∈ a.fontPath, ¬ LooksLikeOption path
  fill : a.fill ≠ -0.0

instance : DecidablePred Arguments.Repeatable := fun a =>
  decidable_of_iff' _ (Arguments.repeatable_iff a)

theorem Arguments.Recoverable.repeatable {a : Arguments} (h : a.Recoverable) : a.Repeatable where
  tiles hyphen := h.tiles hyphen.1
  imageDir hyphen := h.imageDir hyphen.1
  imageFormat hyphen := h.imageFormat hyphen.1
  subtitle hyphen := h.subtitle hyphen.1
  fontPath path hpath hyphen := h.fontPath path hpath hyphen.1
  fill := h.fillSign

def defaults : Arguments := {}

/-- The arguments that a run is restored from. -/
def restored (a : Arguments) (s : Simulation) : Arguments :=
  { a with
    rules := s.rule.render
    seed := if a.seed != defaults.seed || s.seedGenerated then bareSeed s.seed else defaults.seed
    board := some s.board.render
    noExpand := true
    empty := false
    fill := if a.fill != defaults.fill then a.fill else defaults.fill
    flickerMode := s.flicker.mode.number
    tick := s.tick
    postRules := s.post.map fun p => p.rule.render
    postTicks := if s.post.isSome then a.postTicks else 0
    imageDir :=
      if Path.parts a.imageDir != Path.parts defaults.imageDir then a.imageDir
      else defaults.imageDir
    paused := false
    headless := false
    logLevel := .warn }

/-! ## Hyphens -/

theorem takes_of_not_looksLikeOption {t : Text} (h : ¬ LooksLikeOption t) (o : Opt) :
    o.takes t = true := by
  unfold Opt.takes
  split
  · rfl
  · rename_i hne
    exact absurd ⟨rfl, fun heq => hne (List.cons.inj heq).2⟩ h
  · rfl

/-- An option that refuses hyphens takes whatever does not look like an option. -/
theorem takes_iff {o : Opt} (h : o.hyphens = .refused) {t : Text} :
    o.takes t = true ↔ ¬ LooksLikeOption t := by
  refine ⟨?_, fun ht => takes_of_not_looksLikeOption ht o⟩
  rintro htakes ⟨hhead, hne⟩
  obtain ⟨rest, rfl⟩ := List.head?_eq_some_iff.mp hhead
  cases rest with
  | nil => exact hne rfl
  | cons c rest => simp [Opt.takes, h] at htakes

theorem takes_of_head? {t : Text} (h : t.head? ≠ some '-') (o : Opt) : o.takes t = true :=
  takes_of_not_looksLikeOption (fun hyphen => h hyphen.1) o

theorem takes_any {o : Opt} (h : o.hyphens = .any) (t : Text) : o.takes t = true := by
  unfold Opt.takes
  split
  · rfl
  · rw [h]
  · rfl

theorem takes_ofNat (o : Opt) (n : Nat) : o.takes (Numeral.ofNat n) = true := by
  apply takes_of_head?
  intro h
  exact absurd ((Numeral.isDigits_ofNat n).2 _ (List.mem_of_mem_head? h)) (by decide)

theorem numberFrom_digits {t : Text} (h : ∀ c ∈ t, c.isDigit = true) (first dotted exponent : Bool) :
    numberFrom first dotted exponent t = true := by
  induction t generalizing first with
  | nil => rfl
  | cons c rest ih =>
      rw [numberFrom, if_pos (h c List.mem_cons_self)]
      exact ih (fun c hc => h c (List.mem_cons_of_mem _ hc)) false

theorem takes_ofInt {o : Opt} (h : o.hyphens = .numbers) (i : Int) :
    o.takes (Numeral.ofInt i) = true := by
  unfold Numeral.ofInt
  split
  · unfold Opt.takes
    split
    · rfl
    · rename_i heq
      cases heq
      rw [h]
      exact numberFrom_digits (Numeral.isDigits_ofNat _).2 _ _ _
    · rfl
  · exact takes_ofNat o _

theorem takes_board (o : Opt) (b : Board) : o.takes b.render = true := by
  obtain ⟨alive, rest, hrender⟩ := b.exists_render_eq_cons
  apply takes_of_head?
  rw [hrender]
  cases alive <;> simp [Board.cellChar]

theorem side_of_readSide {dimensions side : Text} {fit n : Nat}
    (h : readSide dimensions side fit = .ok n) :
    side = ['M'] ∨ ∃ n, Numeral.readNat Numeral.maxU64 side = .ok n := by
  simp only [readSide] at h
  split at h
  · exact .inl ‹_›
  · split at h
    · exact .inr ⟨_, ‹_›⟩
    · cases h

theorem head?_of_readDimensions {dimensions : Text} {noSubtitle : Bool} {size : TerminalSize}
    {sides : Nat × Nat} (h : readDimensions dimensions noSubtitle size = .ok sides) :
    dimensions.head? ≠ some '-' := by
  unfold readDimensions at h
  split at h
  · cases h
  · rename_i w rest hcut
    obtain ⟨width, hwidth, _⟩ := bind_eq_ok_iff.mp h
    obtain ⟨rfl, _⟩ := eq_of_cut hcut
    rcases side_of_readSide hwidth with rfl | ⟨n, hn⟩
    · simp
    · intro hhead
      cases w with
      | nil => simp at hhead
      | cons c rest =>
          cases hhead
          rcases Numeral.readNat_chars hn '-' List.mem_cons_self with hdigit | hplus
          · exact absurd hdigit (by decide)
          · exact absurd hplus (by decide)

/-! ## Every option once -/

/-- Takes over the value of one option. -/
def Arguments.copy (b t : Arguments) : Opt → Arguments
  | .dimensions => { b with dimensions := t.dimensions }
  | .rules => { b with rules := t.rules }
  | .tiles => { b with tiles := t.tiles }
  | .seed => { b with seed := t.seed }
  | .board => { b with board := t.board }
  | .fill => { b with fill := t.fill }
  | .flickerMode => { b with flickerMode := t.flickerMode }
  | .tick => { b with tick := t.tick }
  | .maxTicks => { b with maxTicks := t.maxTicks }
  | .renderEvery => { b with renderEvery := t.renderEvery }
  | .postRules => { b with postRules := t.postRules }
  | .postTicks => { b with postTicks := t.postTicks }
  | .renderImages => { b with renderImages := t.renderImages }
  | .imageDir => { b with imageDir := t.imageDir }
  | .imageFormat => { b with imageFormat := t.imageFormat }
  | .zoom => { b with zoom := t.zoom }
  | .fontPath => { b with fontPath := t.fontPath }
  | .fontSize => { b with fontSize := t.fontSize }
  | .subtitle => { b with subtitle := t.subtitle }
  | .ms => { b with ms := t.ms }
  | .logLevel => { b with logLevel := t.logLevel }

theorem Arguments.copy_comm (b t : Arguments) (o o' : Opt) :
    (b.copy t o).copy t o' = (b.copy t o').copy t o := by
  cases o <;> cases o' <;> rfl

/-- Options that are given one after another, each with a value that stands for that of `t`, leave
the values of `t`, if those that are not given have them already. -/
theorem setAll_flatMap {t : Arguments} {said : Opt → Option Text} {order : List Opt}
    (hsaid : ∀ o v, said o = some v → ∀ b : Arguments, b.set o v = .ok (b.copy t o))
    {b : Arguments} (hunsaid : ∀ o, said o = none → b.copy t o = b) :
    b.setAll (order.flatMap fun o => settingOf o (said o)) =
      .ok (order.foldl (fun b o => b.copy t o) b) := by
  induction order generalizing b with
  | nil => rfl
  | cons o rest ih =>
      -- Taking over one option does not undo another, so what is not said stays as it is in `t`.
      have hrest : ∀ o', said o' = none → (b.copy t o).copy t o' = b.copy t o := by
        intro o' ho'
        rw [Arguments.copy_comm, hunsaid o' ho']
      have hfirst : b.setAll (settingOf o (said o)) = .ok (b.copy t o) := by
        cases hv : said o with
        | none => exact congrArg Except.ok (hunsaid o hv).symm
        | some v =>
            show b.set o v >>= pure = _
            rw [hsaid o v hv]
            rfl
      rw [List.flatMap_cons, Arguments.setAll, List.foldlM_append]
      show b.setAll (settingOf o (said o)) >>= _ = _
      rw [hfirst]
      exact ih hrest

/-- The options of the recovery command in their order. -/
def recoveryOrder : List Opt :=
  [.dimensions, .rules, .tiles, .seed, .fill, .flickerMode, .tick, .maxTicks, .renderEvery,
   .postRules, .postTicks, .renderImages, .imageDir, .imageFormat, .zoom, .fontPath, .fontSize,
   .subtitle, .ms, .board]

/-- A value that is only said if `wanted`. -/
def sayIf (wanted : Bool) (value : Text) : Option Text := if wanted then some value else none

/-- What the recovery command says about each option, if it says anything. -/
def recoveryValue (a : Arguments) (s : Simulation) : Opt → Option Text
  | .dimensions => sayIf (a.dimensions != defaults.dimensions) a.dimensions
  | .rules => some s.rule.render
  | .tiles => sayIf (a.tiles != defaults.tiles) a.tiles
  | .seed => sayIf (a.seed != defaults.seed || s.seedGenerated) (bareSeed s.seed)
  | .board => some s.board.render
  | .fill => sayIf (a.fill != defaults.fill) (Decimal.render a.fill)
  | .flickerMode => some (Numeral.ofNat s.flicker.mode.number)
  | .tick => some (Numeral.ofInt s.tick)
  | .maxTicks => a.maxTicks.map Numeral.ofNat
  | .renderEvery => sayIf (a.renderEvery != defaults.renderEvery) (Numeral.ofNat a.renderEvery)
  | .postRules => s.post.map fun p => p.rule.render
  | .postTicks => s.post.map fun _ => Numeral.ofNat a.postTicks
  | .renderImages => a.renderImages
  | .imageDir => sayIf (Path.parts a.imageDir != Path.parts defaults.imageDir) a.imageDir
  | .imageFormat => sayIf (a.imageFormat != defaults.imageFormat) a.imageFormat
  | .zoom => sayIf (a.zoom != defaults.zoom) (Numeral.ofNat a.zoom)
  | .fontPath => a.fontPath
  | .fontSize => sayIf (a.fontSize != defaults.fontSize) (Numeral.ofNat a.fontSize)
  | .subtitle => sayIf (a.subtitle != defaults.subtitle) a.subtitle
  | .ms => sayIf (a.ms != defaults.ms) (Numeral.ofNat a.ms)
  | .logLevel => none

theorem settingIf_eq_settingOf (wanted : Bool) (o : Opt) (value : Text) :
    settingIf wanted o value = settingOf o (sayIf wanted value) := by
  cases wanted <;> rfl

theorem recoverySettings_eq (a : Arguments) (s : Simulation) :
    recoverySettings a s =
      recoveryOrder.flatMap fun o => settingOf o (recoveryValue a s o) := by
  have hpost : postSettings a s.post =
      settingOf .postRules (s.post.map fun p => p.rule.render) ++
        settingOf .postTicks (s.post.map fun _ => Numeral.ofNat a.postTicks) := by
    cases s.post <;> rfl
  delta recoverySettings
  simp only [settingIf_eq_settingOf, hpost, List.append_assoc]
  rfl

theorem nodup_recoverySettings (a : Arguments) (s : Simulation) :
    ((recoverySettings a s).map Prod.fst).Nodup := by
  -- No option says more than one value, so the names are among those of the order, in its order.
  have hsublist : ∀ order : List Opt,
      ((order.flatMap fun o => settingOf o (recoveryValue a s o)).map Prod.fst).Sublist order := by
    intro order
    induction order with
    | nil => exact List.Sublist.refl _
    | cons o rest ih =>
        rw [List.flatMap_cons, List.map_append]
        cases recoveryValue a s o with
        | none => exact ih.cons o
        | some v => exact ih.cons_cons o
  rw [recoverySettings_eq]
  exact (hsublist recoveryOrder).nodup (by decide)

/-! ## What the options are given -/

theorem sayIf_eq_some_iff {wanted : Bool} {value v : Text} :
    sayIf wanted value = some v ↔ wanted = true ∧ value = v := by
  cases wanted <;> simp [sayIf]

theorem sayIf_eq_none_iff {wanted : Bool} {value : Text} :
    sayIf wanted value = none ↔ wanted = false := by
  cases wanted <;> simp [sayIf]

theorem readSmall_ofNat {max n : Nat} (h : n ≤ max) (hmax : max ≤ Numeral.maxI64) :
    orBad (readSmall max (Numeral.ofNat n)) = .ok n := by
  rw [orBad_eq_ok_iff, readSmall, Numeral.readInt_ofNat (Nat.le_trans h hmax)]
  simp [h]

theorem readLarge_ofNat {n : Nat} (h : n ≤ Numeral.maxU64) :
    orBad (readLarge (Numeral.ofNat n)) = .ok n :=
  orBad_eq_ok_iff.mpr (readLarge_eq_some_iff.mpr (Numeral.readNat_ofNat h))

theorem number_le (m : Flicker.Mode) : m.number ≤ Numeral.maxU8 := by
  cases m <;> decide

section Values

variable {a : Arguments} {s : Simulation}

/-- Every option takes the value that it is given as that of the restored arguments. -/
theorem set_recoveryValue (h : a.InRange)
    (htick : -((Numeral.maxI64 : Int) + 1) ≤ s.tick ∧ s.tick ≤ Numeral.maxI64) {o : Opt} {v : Text}
    (hv : recoveryValue a s o = some v) (b : Arguments) :
    b.set o v = .ok (b.copy (restored a s) o) := by
  -- Texts are taken as they are, and numbers are read back because they are in range.
  cases o
  case rules | board =>
    cases hv
    rfl
  case dimensions | tiles | imageFormat | subtitle =>
    obtain ⟨_, rfl⟩ := sayIf_eq_some_iff.mp hv
    rfl
  case seed =>
    obtain ⟨hwanted, rfl⟩ := sayIf_eq_some_iff.mp hv
    simp only [Arguments.set, Arguments.copy, restored, hwanted, if_true]
  case fill =>
    obtain ⟨hwanted, rfl⟩ := sayIf_eq_some_iff.mp hv
    simp only [Arguments.set, Arguments.copy, restored, hwanted, if_true, Decimal.read_render,
      orBad, Except.map]
  case flickerMode =>
    cases hv
    simp only [Arguments.set, readSmall_ofNat (number_le _) (by decide), Except.map]
    rfl
  case tick =>
    cases hv
    simp only [Arguments.set, Numeral.readInt_ofInt htick.1 htick.2]
    rfl
  case maxTicks =>
    obtain ⟨n, hn, rfl⟩ := Option.map_eq_some_iff.mp hv
    simp only [Arguments.set, readLarge_ofNat (h.maxTicks n hn), Except.map, Arguments.copy,
      restored, hn]
  case renderEvery =>
    obtain ⟨_, rfl⟩ := sayIf_eq_some_iff.mp hv
    simp only [Arguments.set, readLarge_ofNat h.renderEvery, Except.map]
    rfl
  case postRules =>
    simp only [Arguments.set, Arguments.copy, restored]
    rw [← hv]
    rfl
  case postTicks =>
    obtain ⟨p, hp, rfl⟩ := Option.map_eq_some_iff.mp hv
    simp only [Arguments.set, readSmall_ofNat h.postTicks (by decide), Except.map, Arguments.copy,
      restored, hp, Option.isSome_some, if_true]
  case renderImages =>
    have hsome : a.renderImages = some v := hv
    simp only [Arguments.set, Arguments.copy, restored, hsome]
  case imageDir =>
    obtain ⟨hwanted, rfl⟩ := sayIf_eq_some_iff.mp hv
    simp only [Arguments.set, readPath_eq_ok_iff.mpr ⟨h.imageDir, rfl⟩, Except.map, Arguments.copy,
      restored, hwanted, if_true]
  case zoom =>
    obtain ⟨_, rfl⟩ := sayIf_eq_some_iff.mp hv
    simp only [Arguments.set, readSmall_ofNat h.zoom (by decide), Except.map]
    rfl
  case fontPath =>
    have hsome : a.fontPath = some v := hv
    have hne : v ≠ [] := fun hnil => h.fontPath (hnil ▸ hsome)
    simp only [Arguments.set, readPath_eq_ok_iff.mpr ⟨hne, rfl⟩, Except.map, Arguments.copy,
      restored, hsome]
  case fontSize =>
    obtain ⟨_, rfl⟩ := sayIf_eq_some_iff.mp hv
    simp only [Arguments.set, readSmall_ofNat h.fontSize (by decide), Except.map]
    rfl
  case ms =>
    obtain ⟨_, rfl⟩ := sayIf_eq_some_iff.mp hv
    simp only [Arguments.set, readLarge_ofNat h.ms, Except.map]
    rfl
  case logLevel => cases hv

/-- The restored arguments have the default values wherever nothing is said. -/
theorem copy_of_recoveryValue_eq_none {o : Opt} (h : recoveryValue a s o = none) :
    defaults.copy (restored a s) o = defaults := by
  cases o
  case rules | board | flickerMode | tick => cases h
  case dimensions | tiles | imageFormat | subtitle | renderEvery | zoom | fontSize | ms =>
    have hdefault := sayIf_eq_none_iff.mp h
    simp only [bne_eq_false_iff_eq] at hdefault
    simp only [Arguments.copy, restored, hdefault]
  case seed | fill | imageDir =>
    have hdefault := sayIf_eq_none_iff.mp h
    simp only [Arguments.copy, restored, hdefault, Bool.false_eq_true, if_false]
  case maxTicks =>
    have hnone := Option.map_eq_none_iff.mp h
    simp only [Arguments.copy, restored, hnone]
    rfl
  case postRules | postTicks =>
    have hnone := Option.map_eq_none_iff.mp h
    simp only [Arguments.copy, restored, hnone]
    rfl
  case renderImages =>
    have hnone : a.renderImages = none := h
    simp only [Arguments.copy, restored, hnone]
    rfl
  case fontPath =>
    have hnone : a.fontPath = none := h
    simp only [Arguments.copy, restored, hnone]
    rfl
  case logLevel => rfl

/-- No value of the recovery command is mistaken for an option. -/
theorem takes_recoveryValue {size : TerminalSize} {c : Simulation.Config} (hr : a.Repeatable)
    (hconfig : a.config size = .ok c) (hfill : 0 ≤ a.fill) {o : Opt} {v : Text}
    (hv : recoveryValue a s o = some v) : o.takes v = true := by
  -- Only the tick may start with a hyphen, and its option takes numbers below zero.
  cases o
  case rules | seed | postRules | renderImages => exact takes_any rfl v
  case dimensions =>
    obtain ⟨_, rfl⟩ := sayIf_eq_some_iff.mp hv
    obtain ⟨sides, hsides, _⟩ := bind_eq_ok_iff.mp hconfig
    exact takes_of_head? (head?_of_readDimensions hsides) _
  case tiles =>
    obtain ⟨_, rfl⟩ := sayIf_eq_some_iff.mp hv
    exact takes_of_not_looksLikeOption hr.tiles _
  case board =>
    cases hv
    exact takes_board _ s.board
  case fill =>
    obtain ⟨_, rfl⟩ := sayIf_eq_some_iff.mp hv
    exact takes_of_head? (Decimal.head?_render_of_nonneg hfill hr.fill) _
  case flickerMode =>
    cases hv
    exact takes_ofNat _ _
  case tick =>
    cases hv
    exact takes_ofInt rfl _
  case maxTicks | postTicks =>
    obtain ⟨_, _, rfl⟩ := Option.map_eq_some_iff.mp hv
    exact takes_ofNat _ _
  case renderEvery | zoom | fontSize | ms =>
    obtain ⟨_, rfl⟩ := sayIf_eq_some_iff.mp hv
    exact takes_ofNat _ _
  case imageDir =>
    obtain ⟨_, rfl⟩ := sayIf_eq_some_iff.mp hv
    exact takes_of_not_looksLikeOption hr.imageDir _
  case imageFormat =>
    obtain ⟨_, rfl⟩ := sayIf_eq_some_iff.mp hv
    exact takes_of_not_looksLikeOption hr.imageFormat _
  case fontPath => exact takes_of_not_looksLikeOption (hr.fontPath v hv) _
  case subtitle =>
    obtain ⟨_, rfl⟩ := sayIf_eq_some_iff.mp hv
    exact takes_of_not_looksLikeOption hr.subtitle _
  case logLevel => cases hv

theorem mem_settingOf_iff {o : Opt} {value : Option Text} {setting : Opt × Text} :
    setting ∈ settingOf o value ↔ ∃ v, value = some v ∧ setting = (o, v) := by
  cases value <;> simp [settingOf]

/-- The values of all options in the order of the recovery command are all that can be said of
arguments, apart from switches and the level of the journal. -/
theorem foldl_copy (t : Arguments) :
    recoveryOrder.foldl (fun b o => b.copy t o) defaults =
      { t with
        noExpand := false
        empty := false
        noSubtitle := false
        paused := false
        headless := false
        logLevel := .warn } := by
  simp only [recoveryOrder, List.foldl_cons, List.foldl_nil, Arguments.copy]
  rfl

theorem foldl_turnOn {b : Arguments} (h : b.noSubtitle = false) :
    (recoverySwitches a).foldl Arguments.turnOn b =
      { b with noSubtitle := a.noSubtitle, noExpand := true } := by
  obtain ⟨_⟩ := b
  cases h
  cases hno : a.noSubtitle <;> simp [recoverySwitches, hno, Arguments.turnOn]

/-- **The words of the recovery command are read as the restored arguments** if they can be given in
arguments of their own. -/
theorem parse_recoveryWords_of_repeatable {size : TerminalSize} {c : Simulation.Config}
    (h : a.InRange) (hr : a.Repeatable) (hconfig : a.config size = .ok c) (hfill : 0 ≤ a.fill)
    (htick : -((Numeral.maxI64 : Int) + 1) ≤ s.tick ∧ s.tick ≤ Numeral.maxI64) :
    parse (recoveryWords a s) = .ok (restored a s) := by
  have htakes : ∀ setting ∈ recoverySettings a s, setting.1.takes setting.2 = true := by
    intro setting hsetting
    rw [recoverySettings_eq] at hsetting
    obtain ⟨o, _, ho⟩ := List.mem_flatMap.mp hsetting
    obtain ⟨v, hv, rfl⟩ := mem_settingOf_iff.mp ho
    exact takes_recoveryValue hr hconfig hfill hv
  have hset : Arguments.setAll defaults (recoverySettings a s) =
      .ok (recoveryOrder.foldl (fun b o => b.copy (restored a s) o) defaults) := by
    rw [recoverySettings_eq]
    exact setAll_flatMap (fun o v hv b => set_recoveryValue h htick hv b)
      (fun o ho => copy_of_recoveryValue_eq_none ho)
  have hswitches : (recoverySwitches a).Nodup := by
    unfold recoverySwitches
    split <;> decide
  have hread := parse_settings htakes (nodup_recoverySettings a s) hswitches hset
  rw [recoveryWords, hread, foldl_copy, foldl_turnOn rfl]
  rfl

theorem parse_recoveryWords {size : TerminalSize} {c : Simulation.Config} (h : a.InRange)
    (hr : a.Recoverable) (hconfig : a.config size = .ok c) (hfill : 0 ≤ a.fill)
    (htick : -((Numeral.maxI64 : Int) + 1) ≤ s.tick ∧ s.tick ≤ Numeral.maxI64) :
    parse (recoveryWords a s) = .ok (restored a s) :=
  parse_recoveryWords_of_repeatable h hr.repeatable hconfig hfill htick

end Values

end TorusAutomaton.CommandLine
