import TorusAutomaton.Proofs.CommandLine.Acceptance

/-!
# The seed in the recovery command

A given board adds a question mark to the seed of a run, and the recovery command drops it again. It
drops all question marks at the end, also those that the seed had to begin with. So the command
names the seed of the run exactly if this does not end with a question mark, and what is left of a
seed may even be the text that asks for a fresh one.
-/

namespace TorusAutomaton.CommandLine

open TorusAutomaton Text Outcome
open TorusAutomaton.Simulation (Config generatedSeed Under)

/-! ## Question marks at the end -/

theorem bareSeed_append_marks (t : Text) (n : Nat) :
    bareSeed (t ++ List.replicate n '?') = bareSeed t := by
  induction n with
  | zero => simp
  | succ n ih => rw [List.replicate_succ', ← List.append_assoc, bareSeed_mark, ih]

theorem bareSeed_eq_self_iff {t : Text} : bareSeed t = t ↔ t.getLast? ≠ some '?' := by
  show t.rdropWhile _ = t ↔ _
  rw [List.rdropWhile_eq_self_iff]
  constructor
  · intro hlast hmark
    obtain ⟨before, rfl⟩ := List.getLast?_eq_some_iff.mp hmark
    simp at hlast
  · intro hlast hne hmark
    exact hlast (by rw [List.getLast?_eq_some_getLast hne, of_decide_eq_true hmark])

/-- Nothing but question marks is dropped. -/
theorem exists_marks (t : Text) : ∃ n, t = bareSeed t ++ List.replicate n '?' := by
  induction t using List.reverseRecOn with
  | nil => exact ⟨0, rfl⟩
  | append_singleton t c ih =>
      by_cases hc : c = '?'
      · obtain ⟨n, hn⟩ := ih
        refine ⟨n + 1, ?_⟩
        rw [hc, bareSeed_mark, List.replicate_succ', ← List.append_assoc, ← hn]
      · have hsame : bareSeed (t ++ [c]) = t ++ [c] := bareSeed_eq_self_iff.mpr (by simp [hc])
        exact ⟨0, by rw [hsame, List.replicate_zero, List.append_nil]⟩

theorem bareSeed_eq_iff {t u : Text} (hu : u.getLast? ≠ some '?') :
    bareSeed t = u ↔ ∃ n, t = u ++ List.replicate n '?' := by
  constructor
  · rintro rfl
    exact exists_marks t
  · rintro ⟨n, rfl⟩
    rw [bareSeed_append_marks, bareSeed_eq_self_iff.mpr hu]

/-! ## Settings of different options -/

/-- Among settings of different options, each is the only one of its option. -/
theorem filter_eq_singleton {settings : List (Opt × Text)}
    (hnodup : (settings.map Prod.fst).Nodup) {o : Opt} {v : Text} (hmem : (o, v) ∈ settings) :
    settings.filter (fun setting => setting.1 = o) = [(o, v)] := by
  have hnone {others : List (Opt × Text)} (hother : o ∉ others.map Prod.fst) :
      others.filter (fun setting => setting.1 = o) = [] := by
    rw [List.filter_eq_nil_iff]
    intro setting hsetting hsame
    exact hother (List.mem_map.mpr ⟨setting, hsetting, of_decide_eq_true hsame⟩)
  obtain ⟨before, after, rfl⟩ := List.append_of_mem hmem
  rw [List.map_append, List.map_cons, List.nodup_middle, List.nodup_cons, List.mem_append,
    not_or] at hnodup
  obtain ⟨⟨hbefore, hafter⟩, -⟩ := hnodup
  rw [List.filter_append, List.filter_cons_of_pos (by simp), hnone hbefore, hnone hafter,
    List.nil_append]

/-! ## The seed of a run -/

/-- The seed that a run is started with: the fresh one if the arguments ask for it. -/
def Arguments.ownSeed (a : Arguments) (fresh : Text) : Text :=
  if a.seed = generatedSeed then fresh else a.seed

section Seeds

variable {a : Arguments} {size : TerminalSize} {c : Config} {fresh : Text} {s : Simulation}

theorem seedGenerated_iff (h : s.Under c fresh) (hconfig : a.config size = .ok c) :
    s.seedGenerated = true ↔ a.seed = generatedSeed := by
  rw [h.seedGenerated, Config.chooseSeed, (settings_of_config hconfig).seed]
  dsimp only
  split
  · rename_i hseed
    exact iff_of_true rfl hseed
  · rename_i hseed
    exact iff_of_false Bool.false_ne_true hseed

/-- A seed is named as it is unless it ends with a question mark. The text that asks for a fresh
seed does not, and neither does a fresh seed. -/
theorem bareSeed_ownSeed_eq_self_iff (hletters : ∀ ch ∈ fresh, ch.isUpper = true) :
    bareSeed (a.ownSeed fresh) = a.ownSeed fresh ↔ a.seed.getLast? ≠ some '?' := by
  rw [bareSeed_eq_self_iff, Arguments.ownSeed]
  split
  · rename_i hseed
    have hfresh : fresh.getLast? ≠ some '?' := fun hmark =>
      absurd (hletters _ (List.mem_of_getLast? hmark)) (by decide)
    have hgiven : a.seed.getLast? ≠ some '?' := by
      rw [hseed]
      decide
    exact iff_of_true hfresh hgiven
  · rfl

/-- The text that asks for a fresh seed is named exactly if the seed is that text with more question
marks. -/
theorem bareSeed_ownSeed_eq_generatedSeed_iff (hletters : ∀ ch ∈ fresh, ch.isUpper = true) :
    bareSeed (a.ownSeed fresh) = generatedSeed ↔
      ∃ n, a.seed = generatedSeed ++ List.replicate (n + 1) '?' := by
  rw [bareSeed_eq_iff (by decide), Arguments.ownSeed]
  split
  · rename_i hseed
    rw [hseed]
    constructor
    · -- A fresh seed holds no hyphen.
      rintro ⟨n, rfl⟩
      exact absurd (hletters '-' List.mem_cons_self) (by decide)
    · rintro ⟨n, hn⟩
      simp at hn
  · rename_i hseed
    constructor
    · rintro ⟨n, hn⟩
      cases n with
      | zero => exact absurd (hn.trans (List.append_nil _)) hseed
      | succ n => exact ⟨n, hn⟩
    · rintro ⟨n, hn⟩
      exact ⟨n + 1, hn⟩

theorem filter_seed (h : s.Under c fresh) (hconfig : a.config size = .ok c) :
    (recoverySettings a s).filter (fun setting => setting.1 = .seed) =
      [(.seed, bareSeed (a.ownSeed fresh))] := by
  have hvalue : recoveryValue a s .seed = some (bareSeed (a.ownSeed fresh)) :=
    sayIf_eq_some_iff.mpr ⟨seed_wanted h hconfig, bareSeed_seed h hconfig⟩
  apply filter_eq_singleton (nodup_recoverySettings a s)
  rw [recoverySettings_eq]
  exact List.mem_flatMap.mpr ⟨.seed, by decide, mem_settingOf_iff.mpr ⟨_, hvalue, rfl⟩⟩

/-- A run from the restored arguments is given a fresh seed exactly if the text that asks for one is
what is left of the seed. -/
theorem seedGenerated_restored (h : s.Under c fresh) (hconfig : a.config size = .ok c)
    {size' : TerminalSize} {c' : Config} {fresh' : Text} {s' : Simulation}
    (hconfig' : (restored a s).config size' = .ok c')
    (hcreate' : Simulation.create c' fresh' = .ok s') :
    s'.seedGenerated = true ↔ bareSeed (a.ownSeed fresh) = generatedSeed := by
  rw [seedGenerated_iff (Simulation.under_of_create hcreate') hconfig', seed_restored h hconfig,
    bareSeed_seed h hconfig]
  rfl

end Seeds

/-! ## What the command names -/

/-- **The recovery command names the seed of the run exactly if this does not end with a question
mark.** Whatever has been done to a simulation since it was created, with or without a given board,
the command gives one seed, which lacks nothing but question marks at its end; and a run that is
started from it is given a fresh seed exactly if the seed asked for one with question marks behind
it. -/
theorem recoveryCommand_names_seed_iff {a : Arguments} {size : TerminalSize} {c : Config}
    {fresh : Text} {s₀ : Simulation} (hrange : a.InRange)
    (hletters : ∀ ch ∈ fresh, ch.isUpper = true) (hconfig : a.config size = .ok c)
    (hcreate : Simulation.create c fresh = .ok s₀) (ops : List Simulation.Operation)
    (htick : (ops.foldl Simulation.perform s₀).tick ≤ Numeral.maxI64) :
    let s := ops.foldl Simulation.perform s₀
    Shell.words (recoveryCommand a s) = some (programName :: recoveryWords a s) ∧
      ∃ v, (recoverySettings a s).filter (fun setting => setting.1 = .seed) = [(.seed, v)] ∧
        (∃ n, a.ownSeed fresh = v ++ List.replicate n '?') ∧
        (v = a.ownSeed fresh ↔ a.seed.getLast? ≠ some '?') ∧
        ∀ a' size' c' fresh' s', parse (recoveryWords a s) = .ok a' →
          a'.config size' = .ok c' → Simulation.create c' fresh' = .ok s' →
          (s'.seedGenerated = true ↔
            ∃ n, a.seed = generatedSeed ++ List.replicate (n + 1) '?') := by
  intro s
  have hunder : s.Under c fresh := (Simulation.under_of_create hcreate).performAll ops
  refine ⟨words_recoveryCommand a s, bareSeed (a.ownSeed fresh), filter_seed hunder hconfig,
    exists_marks _, bareSeed_ownSeed_eq_self_iff hletters, ?_⟩
  intro a' size' c' fresh' s' hparse hconfig' hcreate'
  rw [parse_recoveryWords_of_under hrange (repeatable_of_parse hparse) hunder hconfig htick]
    at hparse
  cases hparse
  rw [seedGenerated_restored hunder hconfig hconfig' hcreate',
    bareSeed_ownSeed_eq_generatedSeed_iff hletters]

/-- A run with a given board whose seed is made up. -/
def lone : Arguments where
  dimensions := "2x2".toList
  rules := "/".toList
  board := some "10.00".toList

/-- The letters that were made up are named, without the question mark of the given board, and are
kept. -/
theorem recoveryCommand_names_seed_iff_lone :
    ∃ c s₀, lone.config ⟨80, 24⟩ = .ok c ∧
      Simulation.create c "QWERTYUIOP".toList = .ok s₀ ∧
      s₀.seed = "QWERTYUIOP?".toList ∧
      (recoverySettings lone (s₀.perform .step)).filter (fun setting => setting.1 = .seed) =
        [(.seed, "QWERTYUIOP".toList)] ∧
      ∃ a' c' s', parse (recoveryWords lone (s₀.perform .step)) = .ok a' ∧
        a'.config ⟨80, 24⟩ = .ok c' ∧ Simulation.create c' "ASDFGHJKLZ".toList = .ok s' ∧
        s'.seedGenerated = false := by
  have hstarts : ((lone.config ⟨80, 24⟩).toOption.bind fun c =>
      (Simulation.create c "QWERTYUIOP".toList).toOption).map
        (fun s => (s.seed, (s.perform .step).tick)) = some ("QWERTYUIOP?".toList, 1) := by
    decide +kernel
  obtain ⟨s₀, hs₀, hfacts⟩ := Option.map_eq_some_iff.mp hstarts
  obtain ⟨hseed, htick⟩ := Prod.mk.inj hfacts
  obtain ⟨c, hc, hcreate⟩ := Option.bind_eq_some_iff.mp hs₀
  have hc := toOption_eq_some_iff.mp hc
  have hcreate := toOption_eq_some_iff.mp hcreate
  have hrange : lone.InRange := by
    constructor <;> decide
  have hrepeatable : lone.Repeatable := by
    decide +kernel
  have hlate : ([Simulation.Operation.step].foldl Simulation.perform s₀).tick ≤
      Numeral.maxI64 := by
    show (s₀.perform .step).tick ≤ Numeral.maxI64
    rw [htick]
    decide
  have hunder := (Simulation.under_of_create hcreate).perform .step
  obtain ⟨_, v, hfilter, _, hnamed, hrestored⟩ :=
    recoveryCommand_names_seed_iff hrange (by simp) hc hcreate [.step] hlate
  have hv : v = "QWERTYUIOP".toList := hnamed.mpr (by decide)
  have hparse := parse_recoveryWords_of_under hrange hrepeatable hunder hc hlate
  have hconfig' := config_restored hc (s₀.perform .step)
  have hcreate' := create_restored hunder hc "ASDFGHJKLZ".toList
  refine ⟨c, s₀, hc, hcreate, hseed, hv ▸ hfilter, _, _, _, hparse, hconfig', hcreate', ?_⟩
  rw [← Bool.not_eq_true, hrestored _ _ _ _ _ hparse hconfig' hcreate']
  rintro ⟨n, hn⟩
  cases hn

/-- A seed that is given, and asks for no fresh one, becomes one that does: the recovery command
gives `-1` for `-1?`. -/
theorem recoveryCommand_drops_mark :
    ∃ a s₀ argv' a' s',
      parse ["-d".toList, "2x2".toList, "-r".toList, "/".toList, "-e".toList, "-1?".toList,
        "-b".toList, "10.00".toList] = .ok a ∧
      (Session.start a ⟨80, 24⟩ [] { root := .empty, present := [] } []).outcome = .ok s₀ ∧
      a.seed = "-1?".toList ∧ s₀.sim.seedGenerated = false ∧
      Shell.words (recoveryCommand a s₀.sim) = some (programName :: argv') ∧
      ["--seed".toList, "-1".toList] <:+: argv' ∧
      parse argv' = .ok a' ∧
      (Session.start a' ⟨80, 24⟩ [] { root := .empty, present := [] } []).outcome = .ok s' ∧
      s'.sim.seedGenerated = true := by
  have hfacts : (started ["-d".toList, "2x2".toList, "-r".toList, "/".toList, "-e".toList,
      "-1?".toList, "-b".toList, "10.00".toList]).any (fun (a, s₀) =>
        decide (a.seed = "-1?".toList ∧ s₀.sim.seedGenerated = false ∧
          ["--seed".toList, "-1".toList] <:+: recoveryWords a s₀.sim) &&
        (started (recoveryWords a s₀.sim)).any fun (_, s') => s'.sim.seedGenerated) = true := by
    decide +kernel
  obtain ⟨⟨a, s₀⟩, hstarted, hfacts⟩ := (Option.any_eq_true _ _).mp hfacts
  obtain ⟨hgiven, hfresh⟩ := Bool.and_eq_true_iff.mp hfacts
  obtain ⟨hseed, hgenerated, hnamed⟩ := of_decide_eq_true hgiven
  obtain ⟨⟨a', s'⟩, hrestarted, hgenerated'⟩ := (Option.any_eq_true _ _).mp hfresh
  obtain ⟨hparse, hstart⟩ := started_eq_some_iff.mp hstarted
  obtain ⟨hparse', hstart'⟩ := started_eq_some_iff.mp hrestarted
  exact ⟨a, s₀, recoveryWords a s₀.sim, a', s', hparse, hstart, hseed, hgenerated,
    words_recoveryCommand a s₀.sim, hnamed, hparse', hstart', hgenerated'⟩

end TorusAutomaton.CommandLine
