import TorusAutomaton.Proofs.CommandLine.Restored
import TorusAutomaton.Proofs.Shell.Exposure

/-!
# Quoting in the recovery command

Any text may be the value of an option, and the recovery command has to bring it back as it was.
What a shell reads from the command is told here in full, together with what it does not find in it:
no value can end its word, end the command, or leave anything to be expanded, whatever is written in
it.
-/

namespace TorusAutomaton.CommandLine

open TorusAutomaton Text Shell

/-- The end of a line exposes nothing. -/
theorem inert_lineBreak : Inert lineBreak := ⟨[], rfl, fun _ => rfl⟩

theorem inert_writeSetting (setting : Opt × Text) : Inert (writeSetting setting) := by
  have hname : Inert ('-' :: '-' :: setting.1.long) :=
    inert_of_all_isPlain (all_isPlain_long setting.1)
  have hvalue : Inert ([' '] ++ quote setting.2) := inert_blank.append (inert_quote setting.2)
  have hsplit : writeSetting setting =
      ('-' :: '-' :: setting.1.long) ++ ([' '] ++ quote setting.2) := by
    simp [writeSetting]
  exact hsplit ▸ hname.append hvalue

theorem inert_writeSwitch (s : Switch) : Inert (writeSwitch s) := by
  apply inert_of_all_isPlain
  cases s <;> decide

theorem inert_recoveryCommand (a : Arguments) (s : Simulation) : Inert (recoveryCommand a s) := by
  apply inert_join inert_lineBreak
  intro p hp
  rcases List.mem_cons.mp hp with rfl | hp
  · exact inert_of_all_isPlain (by decide)
  · rcases List.mem_append.mp hp with hp | hp
    · obtain ⟨setting, _, rfl⟩ := List.mem_map.mp hp
      exact inert_writeSetting setting
    · obtain ⟨switch, _, rfl⟩ := List.mem_map.mp hp
      exact inert_writeSwitch switch

/-- **Quoting is exact.** A quoted value is one word, which is the value, and quoted values with
blanks between them are a word each. The recovery command is one command, whose words are the name
of the program, then in a fixed order each option that is said with its value as it was, and then
the switches. Only plain characters stand in them where a shell could expand them. -/
theorem quoting_exact :
    (∀ v : Text, words (quote v) = some [v] ∧ (exposed .outside (quote v)).all isPlain = true) ∧
    (∀ vs : List Text, words (join [' '] (vs.map quote)) = some vs ∧
      (exposed .outside (join [' '] (vs.map quote))).all isPlain = true) ∧
    ∀ (a : Arguments) (s : Simulation),
      words (recoveryCommand a s) =
        some (programName ::
          ((recoveryOrder.flatMap fun o => settingOf o (recoveryValue a s o)).flatMap
            (fun setting => ['-' :: '-' :: setting.1.long, setting.2]) ++
          (recoverySwitches a).map writeSwitch)) ∧
      (exposed .outside (recoveryCommand a s)).all isPlain = true := by
  refine ⟨?value, ?values, ?command⟩
  case value => exact fun v => ⟨words_quote v, (inert_quote v).all_isPlain⟩
  case values =>
    intro vs
    have hparts : ∀ p ∈ vs.map quote, Inert p := by
      intro p hp
      obtain ⟨v, _, rfl⟩ := List.mem_map.mp hp
      exact inert_quote v
    exact ⟨words_join_quote vs, (inert_join inert_blank hparts).all_isPlain⟩
  case command =>
    intro a s
    have hread := words_recoveryCommand a s
    rw [recoveryWords, recoverySettings_eq] at hread
    exact ⟨hread, (inert_recoveryCommand a s).all_isPlain⟩

end TorusAutomaton.CommandLine
