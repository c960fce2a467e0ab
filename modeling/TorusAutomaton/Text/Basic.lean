/-!
# Texts

A text is the list of its characters. Reading and writing are then recursions on the data, and
splitting, joining and counting are the operations on lists.
-/

namespace TorusAutomaton

abbrev Text := List Char

namespace Text

/-- The parts before and after the first `sep`, if there is one. -/
def cut (sep : Char) : Text → Option (Text × Text)
  | [] => none
  | c :: rest =>
    if c = sep then some ([], rest)
    else (cut sep rest).map fun parts => (c :: parts.1, parts.2)

theorem eq_of_cut {sep : Char} {t before after : Text} (h : cut sep t = some (before, after)) :
    t = before ++ sep :: after ∧ sep ∉ before := by
  induction t generalizing before with
  | nil => simp [cut] at h
  | cons c rest ih =>
    by_cases hc : c = sep
    · simp only [cut, hc, if_true, Option.some.injEq, Prod.mk.injEq] at h
      obtain ⟨rfl, rfl⟩ := h
      simp [hc]
    · simp only [cut, hc, if_false, Option.map_eq_some_iff, Prod.exists, Prod.mk.injEq] at h
      obtain ⟨b, a, hcut, rfl, rfl⟩ := h
      obtain ⟨rfl, hb⟩ := ih hcut
      exact ⟨rfl, by simp [hb, Ne.symm hc]⟩

theorem cut_append_cons {sep : Char} {before : Text} (h : sep ∉ before) (after : Text) :
    cut sep (before ++ sep :: after) = some (before, after) := by
  induction before with
  | nil => simp [cut]
  | cons c rest ih =>
    have hc : c ≠ sep := fun e => h (by simp [e])
    simp [cut, hc, ih (fun m => h (by simp [m]))]

theorem cut_eq_none_iff {sep : Char} {t : Text} : cut sep t = none ↔ sep ∉ t := by
  induction t with
  | nil => simp [cut]
  | cons c rest ih =>
    by_cases hc : c = sep
    · simp [cut, hc]
    · simp [cut, hc, ih, Ne.symm hc]

/-- Joins texts with `sep` between them. -/
def join (sep : Text) (parts : List Text) : Text := sep.intercalate parts

/-- Replaces every `old` by `new`. -/
def substitute (old new : Char) (t : Text) : Text := t.map fun c => if c = old then new else c

/-- Whether `word` begins the text. -/
def startsWith (word t : Text) : Bool := word.isPrefixOf t

/-- The pieces of a text, each of which ends where `mark` ends; what follows the last `mark` is a
piece too unless it is empty. -/
def piecesAfter (mark : Text) : Text → Text → List Text
  | [], [] => []
  | [], piece => [piece.reverse]
  | c :: rest, piece =>
    if mark.reverse.isPrefixOf (c :: piece) then (c :: piece).reverse :: piecesAfter mark rest []
    else piecesAfter mark rest (c :: piece)

/-- Cuts a text after every `mark`. No piece is empty. -/
def cutAfter (mark t : Text) : List Text := piecesAfter mark t []

end Text

end TorusAutomaton
