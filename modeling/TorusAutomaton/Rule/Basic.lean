import TorusAutomaton.Rule.Table
import TorusAutomaton.Text.Numeral

/-!
# Rules

A rule is a list of segments, each of which is one table in force for a number of ticks. The
tables follow one another and start again after the last. A rule keeps the text of each segment,
so that it can be written back as it was read.
-/

namespace TorusAutomaton

/-- A table in force for `copies` ticks. `multiplier` is the text in front of the letter x, and
`body` the two groups of digits. -/
structure Rule.Segment where
  multiplier : Option Text
  copies : Nat
  body : Text
  table : Rule.Table
  deriving DecidableEq

structure Rule where
  segments : List Rule.Segment
  deriving DecidableEq

namespace Rule

def Segment.render (s : Segment) : Text :=
  match s.multiplier with
  | some m => m ++ 'x' :: s.body
  | none => s.body

/-- The text that reads back as this rule, whatever is drawn. -/
def render (r : Rule) : Text := Text.join [','] (r.segments.map Segment.render)

/-- After how many ticks the rule starts again. -/
def length (r : Rule) : Nat := r.segments.foldr (fun s n => s.copies + n) 0

/-- The table of the segment that tick `n` falls into, counted from the first segment. -/
def pick : List Segment → Nat → Table
  | [], _ => .still
  | s :: rest, n => if n < s.copies then s.table else pick rest (n - s.copies)

/-- The table in force at a tick. Ticks before zero count back from the end. -/
def tableAt (r : Rule) (tick : Int) : Table := pick r.segments (tick % (r.length : Int)).toNat

/-- All tables, one for each tick until the rule starts again. -/
def tables (r : Rule) : List Table := r.segments.flatMap fun s => List.replicate s.copies s.table

theorem length_tables (r : Rule) : r.tables.length = r.length := by
  simp only [tables, length]
  induction r.segments with
  | nil => rfl
  | cons s rest ih => simp [ih]

theorem pick_eq_getElem? (segments : List Segment) (n : Nat) :
    pick segments n =
      (segments.flatMap fun s => List.replicate s.copies s.table)[n]?.getD .still := by
  induction segments generalizing n with
  | nil => simp [pick]
  | cons s rest ih =>
    by_cases h : n < s.copies
    · simp [pick, h, List.getElem?_append]
    · simp [pick, h, ih, List.getElem?_append]

end Rule

end TorusAutomaton
