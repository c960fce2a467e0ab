/-!
# Sets of ticks

A set of ticks is given by spans, each of which goes from a first to a last tick in equal steps.
Membership is decided span by span; the listing of all members is in ascending order.
-/

namespace TorusAutomaton

/-- The ticks `first`, `first + step`, ... up to `last`. -/
structure TickSet.Span where
  first : Nat
  last : Nat
  step : Nat
  deriving DecidableEq, Repr

structure TickSet where
  spans : List TickSet.Span
  deriving DecidableEq, Repr

namespace TickSet

def Span.covers (s : Span) (t : Nat) : Bool :=
  s.first ≤ t && t ≤ s.last && (t - s.first) % s.step == 0

/-- The ticks of a span in ascending order. -/
def Span.ticks (s : Span) : List Nat :=
  if s.first ≤ s.last then List.range' s.first ((s.last - s.first) / s.step + 1) s.step else []

/-- No tick before zero is ever a member. -/
def contains (ts : TickSet) (t : Int) : Bool := 0 ≤ t && ts.spans.any (·.covers t.toNat)

/-- Drops an element that equals the one after it. -/
def dropRepeats (ticks : List Nat) : List Nat :=
  ticks.foldr (fun t rest => if rest.head? = some t then rest else t :: rest) []

/-- All members in ascending order. -/
def toList (ts : TickSet) : List Nat := dropRepeats (ts.spans.flatMap Span.ticks).mergeSort

def size (ts : TickSet) : Nat := ts.toList.length

def first? (ts : TickSet) : Option Nat := ts.toList.head?

end TickSet

end TorusAutomaton
