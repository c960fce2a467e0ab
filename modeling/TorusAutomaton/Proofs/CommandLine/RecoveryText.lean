import TorusAutomaton.CommandLine.Recovery
import TorusAutomaton.Proofs.Shell.Words

/-!
# The recovery command as a shell reads it

The recovery command is one option a line, with quoted values. A shell reads from it the name of the
program, then every option and its value as they were, and then the switches.
-/

namespace TorusAutomaton.CommandLine

open TorusAutomaton Text Shell

/-- A setting as arguments: its name, and its value in an argument of its own. -/
def settingWords (setting : Opt × Text) : List Text :=
  ['-' :: '-' :: setting.1.long, setting.2]

/-- The arguments that the recovery command gives to the program. -/
def recoveryWords (a : Arguments) (s : Simulation) : List Text :=
  (recoverySettings a s).flatMap settingWords ++ (recoverySwitches a).map writeSwitch

/-! ## Parts of a command -/

/-- A text that a shell reads as these words, the last of which it has not finished. -/
def Spells (t : Text) (ws : List Text) : Prop :=
  ∃ before last, ws = before ++ [last] ∧ ∀ rest,
    wordsFrom .outside none (t ++ rest) =
      (wordsFrom .outside (some last) rest).map (before ++ ·)

theorem Spells.read {t : Text} {ws : List Text} (h : Spells t ws) :
    wordsFrom .outside none t = some ws := by
  obtain ⟨before, last, rfl, hread⟩ := h
  simpa [wordsFrom] using hread []

/-- The end of a line finishes the words before it and is no word. -/
theorem Spells.lineBreak {t : Text} {ws : List Text} (h : Spells t ws) (rest : Text) :
    wordsFrom .outside none (t ++ (lineBreak ++ rest)) =
      (wordsFrom .outside none rest).map (ws ++ ·) := by
  obtain ⟨before, last, rfl, hread⟩ := h
  have hbreak : wordsFrom .outside (some last) (CommandLine.lineBreak ++ rest) =
      (wordsFrom .outside none rest).map (last :: ·) := by
    change wordsFrom .outside (some last) (" \\\n    ".toList ++ rest) = _
    simp only [String.reduceToList, List.cons_append, List.nil_append]
    rw [wordsFrom_blank]
    -- The end of the line is gone with its backslash, and four blanks are left.
    show ((wordsFrom .outside none (' ' :: ' ' :: ' ' :: ' ' :: rest))).map _ = _
    simp only [wordsFrom_blank, Option.map_map]
    congr 1
  rw [hread, hbreak, Option.map_map]
  congr 1
  funext rest
  simp

theorem spells_plain {t : Text} (hne : t ≠ []) (ht : t.all isPlain = true) : Spells t [t] := by
  refine ⟨[], t, rfl, ?_⟩
  intro rest
  have hquote : quote t = t := by simp [quote, hne, ht]
  have hread := wordsFrom_quote t rest
  rw [hquote] at hread
  simp [hread]

theorem all_isPlain_long (o : Opt) : ('-' :: '-' :: o.long).all isPlain = true := by
  cases o <;> decide

theorem spells_writeSetting (setting : Opt × Text) :
    Spells (writeSetting setting) (settingWords setting) := by
  obtain ⟨o, value⟩ := setting
  refine ⟨['-' :: '-' :: o.long], value, rfl, ?_⟩
  intro rest
  obtain ⟨_, _, hwords, hname⟩ := spells_plain (List.cons_ne_nil _ _) (all_isPlain_long o)
  obtain ⟨rfl, hlast⟩ := List.append_inj' ((List.nil_append _).trans hwords) rfl
  cases hlast
  have hsplit : writeSetting (o, value) ++ rest =
      ('-' :: '-' :: o.long) ++ (' ' :: (quote value ++ rest)) := by
    simp [writeSetting]
  rw [hsplit, hname, wordsFrom_blank, wordsFrom_quote, Option.map_map]
  rfl

theorem spells_writeSwitch (s : Switch) : Spells (writeSwitch s) [writeSwitch s] := by
  apply spells_plain (List.cons_ne_nil _ _)
  cases s <;> decide

/-! ## The whole command -/

/-- Parts with ends of lines between them are read one after the other. -/
theorem wordsFrom_join {parts : List (Text × List Text)} (hne : parts ≠ [])
    (h : ∀ p ∈ parts, Spells p.1 p.2) :
    wordsFrom .outside none (join lineBreak (parts.map Prod.fst)) =
      some (parts.flatMap Prod.snd) := by
  induction parts with
  | nil => exact absurd rfl hne
  | cons p rest ih =>
      have hp := h p List.mem_cons_self
      cases rest with
      | nil => simpa [join] using hp.read
      | cons q rest =>
          have hrest := ih (List.cons_ne_nil _ _) fun r hr => h r (List.mem_cons_of_mem _ hr)
          rw [List.map_cons, List.map_cons, join, List.intercalate_cons_cons, List.append_assoc,
            hp.lineBreak]
          simp only [join, List.map_cons] at hrest
          rw [hrest]
          rfl

/-- **The words of the recovery command** are the program's name, every option followed by its
value, and the switches. -/
theorem words_recoveryCommand (a : Arguments) (s : Simulation) :
    words (recoveryCommand a s) = some (programName :: recoveryWords a s) := by
  let parts : List (Text × List Text) :=
    (programName, [programName]) ::
      ((recoverySettings a s).map (fun setting => (writeSetting setting, settingWords setting)) ++
        (recoverySwitches a).map fun switch => (writeSwitch switch, [writeSwitch switch]))
  have hparts : ∀ p ∈ parts, Spells p.1 p.2 := by
    intro p hp
    rcases List.mem_cons.mp hp with rfl | hp
    · exact spells_plain (by decide) (by decide)
    · rcases List.mem_append.mp hp with hp | hp
      · obtain ⟨setting, _, rfl⟩ := List.mem_map.mp hp
        exact spells_writeSetting setting
      · obtain ⟨switch, _, rfl⟩ := List.mem_map.mp hp
        exact spells_writeSwitch switch
  have hread := wordsFrom_join (List.cons_ne_nil _ _) hparts
  have htexts : parts.map Prod.fst = programName ::
      ((recoverySettings a s).map writeSetting ++ (recoverySwitches a).map writeSwitch) := by
    simp [parts, Function.comp_def]
  have hwords : parts.flatMap Prod.snd = programName :: recoveryWords a s := by
    simp [parts, recoveryWords, List.flatMap_map, ← List.map_eq_flatMap]
  rw [htexts, hwords] at hread
  exact hread

end TorusAutomaton.CommandLine
