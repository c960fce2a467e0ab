import TorusAutomaton.Proofs.Shell.Words

/-!
# What a shell may expand

Between quotes, and behind a backslash, a character stands for itself. Anywhere else it is exposed
to the shell, which expands some characters there, and which ones depends on the shell. A text is
inert when it exposes plain characters only, so that this does not matter.
-/

namespace TorusAutomaton.Shell

open TorusAutomaton Text

/-- The characters that stand outside quotes without a backslash before them. Blanks are not among
them, since they only separate words. -/
def exposed : Quoting → Text → Text
  | _, [] => []
  | .outside, c :: rest =>
    if isBlank c then exposed .outside rest
    else if c = '\'' then exposed .single rest
    else if c = '\\' then exposed .escaped rest
    else c :: exposed .outside rest
  | .single, c :: rest => if c = '\'' then exposed .outside rest else exposed .single rest
  | .escaped, _ :: rest => exposed .outside rest

/-- A text exposes plain characters only, and leaves a shell outside quotes. -/
def Inert (t : Text) : Prop :=
  ∃ bare : Text, bare.all isPlain = true ∧
    ∀ rest, exposed .outside (t ++ rest) = bare ++ exposed .outside rest

variable {t u : Text}

theorem Inert.all_isPlain (h : Inert t) : (exposed .outside t).all isPlain = true := by
  obtain ⟨bare, hplain, hexposed⟩ := h
  have hexposed := hexposed []
  rw [List.append_nil, exposed, List.append_nil] at hexposed
  rw [hexposed, hplain]

theorem inert_nil : Inert [] := ⟨[], rfl, fun _ => rfl⟩

theorem Inert.append (ht : Inert t) (hu : Inert u) : Inert (t ++ u) := by
  obtain ⟨bare, hplain, hexposed⟩ := ht
  obtain ⟨bare', hplain', hexposed'⟩ := hu
  refine ⟨bare ++ bare', by rw [List.all_append, hplain, hplain', Bool.and_self], ?_⟩
  intro rest
  rw [List.append_assoc, hexposed, hexposed', List.append_assoc]

theorem inert_blank : Inert [' '] := ⟨[], rfl, fun _ => rfl⟩

theorem inert_of_all_isPlain (ht : t.all isPlain = true) : Inert t := by
  refine ⟨t, ht, ?_⟩
  intro rest
  induction t with
  | nil => rfl
  | cons c t ih =>
      rw [List.all_cons, Bool.and_eq_true] at ht
      have hquote : c ≠ '\'' := ne_of_isPlain ht.1 rfl
      have hbackslash : c ≠ '\\' := ne_of_isPlain ht.1 rfl
      simp [exposed, isBlank_of_isPlain ht.1, hquote, hbackslash, ih ht.2]

/-- Between quotes nothing is exposed, and neither is a quote that is written outside of them. -/
theorem exposed_quoted (v rest : Text) :
    exposed .single (v.flatMap quoteChar ++ '\'' :: rest) = exposed .outside rest := by
  induction v with
  | nil => rfl
  | cons c v ih =>
      by_cases hc : c = '\''
      · subst hc
        exact ih
      · rw [List.flatMap_cons, List.append_assoc, show quoteChar c = [c] by simp [quoteChar, hc],
          List.singleton_append, exposed, if_neg hc]
        exact ih

theorem inert_quote (v : Text) : Inert (quote v) := by
  unfold quote
  split
  · rename_i hplain
    rw [Bool.and_eq_true] at hplain
    exact inert_of_all_isPlain hplain.2
  · refine ⟨[], rfl, ?_⟩
    intro rest
    rw [List.cons_append, List.append_assoc]
    exact exposed_quoted v rest

theorem inert_join {sep : Text} {parts : List Text} (hsep : Inert sep)
    (h : ∀ p ∈ parts, Inert p) : Inert (join sep parts) := by
  induction parts with
  | nil => exact inert_nil
  | cons p rest ih =>
      have hp := h p List.mem_cons_self
      have hrest := ih fun q hq => h q (List.mem_cons_of_mem _ hq)
      cases rest with
      | nil => simpa [join] using hp
      | cons q rest =>
          rw [join, List.intercalate_cons_cons, List.append_assoc]
          exact hp.append (hsep.append hrest)

/-! ## Values in a row -/

theorem words_quote (v : Text) : words (quote v) = some [v] := by
  have hread := wordsFrom_quote v []
  rwa [List.append_nil] at hread

/-- Values that were quoted each for itself are read as a word each. -/
theorem words_join_quote (vs : List Text) : words (join [' '] (vs.map quote)) = some vs := by
  induction vs with
  | nil => rfl
  | cons v rest ih =>
      cases rest with
      | nil => simpa [join] using words_quote v
      | cons w rest =>
          rw [words, List.map_cons, List.map_cons, join, List.intercalate_cons_cons,
            List.append_assoc, wordsFrom_quote, List.singleton_append, wordsFrom_blank]
          rw [List.map_cons] at ih
          exact congrArg (Option.map (v :: ·)) ih

end TorusAutomaton.Shell
