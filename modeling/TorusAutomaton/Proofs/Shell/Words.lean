import TorusAutomaton.Text.Quotes

/-!
# What a shell reads

A shell takes a command apart into words. Blanks separate words; between single quotes every
character stands for itself; outside them a backslash makes the next character stand for itself, and
with the end of a line it is nothing at all. A command with a character that a shell would expand,
or that would end it, is not read here as words. The main statement is that a quoted value is read
as one word, which is the value.
-/

namespace TorusAutomaton.Shell

open TorusAutomaton

/-- Where a shell is inside a command. -/
inductive Quoting
  | outside
  | single
  | escaped
  deriving DecidableEq, Repr

def isBlank (c : Char) : Bool := c = ' ' || c = '\t'

/-- Characters that mean something else than themselves when they stand outside quotes. -/
def isActive (c : Char) : Bool := "|&;<>()$\x60\"*?[]#~=%!\x7b\x7d^\n".toList.contains c

/-- A word with one more character, which may be its first. -/
def extend (word : Option Text) (c : Char) : Option Text := some (word.getD [] ++ [c])

/-- Reads the rest of a command; `word` is what was read of the present word, if one was begun. -/
def wordsFrom : Quoting → Option Text → Text → Option (List Text)
  | .outside, word, [] => some word.toList
  | .single, _, [] => none
  | .escaped, _, [] => none
  | .outside, word, c :: rest =>
    if isBlank c then (wordsFrom .outside none rest).map (word.toList ++ ·)
    else if c = '\'' then wordsFrom .single (some (word.getD [])) rest
    else if c = '\\' then wordsFrom .escaped word rest
    else if isActive c then none
    else wordsFrom .outside (extend word c) rest
  | .single, word, c :: rest =>
    if c = '\'' then wordsFrom .outside word rest else wordsFrom .single (extend word c) rest
  | .escaped, word, c :: rest =>
    if c = '\n' then wordsFrom .outside word rest else wordsFrom .outside (extend word c) rest

/-- The words of a command. -/
def words (command : Text) : Option (List Text) := wordsFrom .outside none command

/-! ## Plain values -/

theorem ne_of_isPlain {c d : Char} (hc : isPlain c = true) (hd : isPlain d = false) : c ≠ d := by
  rintro rfl
  exact Bool.noConfusion (hc.symm.trans hd)

theorem isBlank_of_isPlain {c : Char} (hc : isPlain c = true) : isBlank c = false := by
  have hspace : c ≠ ' ' := ne_of_isPlain hc rfl
  have htab : c ≠ '\t' := ne_of_isPlain hc rfl
  simp [isBlank, hspace, htab]

/-- A plain character is a word's own: it neither ends the word nor starts anything. -/
theorem wordsFrom_plain_cons {c : Char} (hc : isPlain c = true) (word : Option Text) (rest : Text) :
    wordsFrom .outside word (c :: rest) = wordsFrom .outside (extend word c) rest := by
  have hquote : c ≠ '\'' := ne_of_isPlain hc rfl
  have hbackslash : c ≠ '\\' := ne_of_isPlain hc rfl
  have hactive : isActive c = false := by
    cases h : isActive c with
    | false => rfl
    | true =>
        -- None of the characters that mean something to a shell is plain.
        have hall : "|&;<>()$\x60\"*?[]#~=%!\x7b\x7d^\n".toList.all (!isPlain ·) = true := rfl
        have hmem : c ∈ "|&;<>()$\x60\"*?[]#~=%!\x7b\x7d^\n".toList := by
          simpa [isActive] using h
        have hplain := List.all_eq_true.mp hall c hmem
        rw [hc] at hplain
        exact Bool.noConfusion hplain
  simp [wordsFrom, isBlank_of_isPlain hc, hactive, hquote, hbackslash]

theorem wordsFrom_plain {v : Text} (hv : v.all isPlain = true) (word : Text) (rest : Text) :
    wordsFrom .outside (some word) (v ++ rest) = wordsFrom .outside (some (word ++ v)) rest := by
  induction v generalizing word with
  | nil => simp
  | cons c v ih =>
      have hv := List.all_cons ▸ hv
      rw [Bool.and_eq_true] at hv
      rw [List.cons_append, wordsFrom_plain_cons hv.1]
      simpa [extend] using ih hv.2 (word ++ [c])

/-! ## Values between quotes -/

/-- A quote inside a value leaves the quotes, is written behind a backslash, and goes back. -/
theorem wordsFrom_quoted (v word rest : Text) :
    wordsFrom .single (some word) (v.flatMap quoteChar ++ '\'' :: rest) =
      wordsFrom .outside (some (word ++ v)) rest := by
  induction v generalizing word with
  | nil => simp [wordsFrom]
  | cons c v ih =>
      by_cases hc : c = '\''
      · subst hc
        -- The shell leaves the quotes, takes the quote behind the backslash, and is back between
        -- quotes.
        have hstep : wordsFrom .single (some word)
            ("'\\''".toList ++ (v.flatMap quoteChar ++ '\'' :: rest)) =
              wordsFrom .single (some (word ++ ['\''])) (v.flatMap quoteChar ++ '\'' :: rest) := by
          rfl
        rw [List.flatMap_cons, List.append_assoc, show quoteChar '\'' = "'\\''".toList from rfl,
          hstep, ih, List.append_assoc, List.singleton_append]
      · rw [List.flatMap_cons, List.append_assoc, show quoteChar c = [c] by simp [quoteChar, hc],
          List.singleton_append, wordsFrom, if_neg hc]
        simpa [extend] using ih (word ++ [c])

/-- **A quoted value is one word.** Whatever the value and whatever follows, the shell has then read
the value, and is outside quotes again. -/
theorem wordsFrom_quote (v rest : Text) :
    wordsFrom .outside none (quote v ++ rest) = wordsFrom .outside (some v) rest := by
  unfold quote
  split
  · rename_i hplain
    rw [Bool.and_eq_true] at hplain
    cases v with
    | nil => simp at hplain
    | cons c v =>
        have hall := List.all_cons ▸ hplain.2
        rw [Bool.and_eq_true] at hall
        rw [List.cons_append, wordsFrom_plain_cons hall.1]
        exact wordsFrom_plain hall.2 [c] rest
  · have hopen : ∀ t : Text, wordsFrom .outside none ('\'' :: t) = wordsFrom .single (some []) t :=
      fun _ => rfl
    rw [List.cons_append, hopen, List.append_assoc]
    exact wordsFrom_quoted v [] rest

/-- A word that is followed by a blank is finished. -/
theorem wordsFrom_blank (word : Option Text) (rest : Text) :
    wordsFrom .outside word (' ' :: rest) =
      (wordsFrom .outside none rest).map (word.toList ++ ·) := rfl

end TorusAutomaton.Shell
