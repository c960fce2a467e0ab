import TorusAutomaton.Rule.Basic
import TorusAutomaton.Rule.Draw

/-!
# Reading rules

A rule text is a list of segments between commas. A segment may start with a multiplier and the
letter x. Its body is either two groups of digits with a slash between them, or a random directive
`AB+CD`, which is replaced by a drawn rule and then read like any other. The segments are read from
the left, and the first fault is the one reported.
-/

namespace TorusAutomaton.Rule

open TorusAutomaton Text TorusAutomaton.Random

inductive Error
  | emptySegment (rule : Text)
  | missingSlash (segment : Text)
  | badDigit (segment : Text) (found : Char)
  | badMultiplier (multiplier : Text)
  | badDirective (directive : Text)
  | emptyRange (directive : Text) (low high : Nat)
  deriving DecidableEq, Repr

def Error.message : Error → String
  | .emptySegment rule => "empty rule segment in '" ++ String.ofList rule ++ "'"
  | .missingSlash segment =>
    "rule segment '" ++ String.ofList segment ++ "' must contain exactly one '/'"
  | .badDigit segment found =>
    "'" ++ String.ofList [found] ++ "' in rule segment '" ++ String.ofList segment
      ++ "' is not a neighbour count (0-8)"
  | .badMultiplier multiplier =>
    "bad multiplier '" ++ String.ofList multiplier ++ "', expected a positive integer"
  | .badDirective directive =>
    "random rule directive '" ++ String.ofList directive ++ "' must look like 'AB+CD'"
  | .emptyRange directive low high =>
    "random rule directive '" ++ String.ofList directive ++ "' has empty range "
      ++ toString low ++ ".." ++ toString high

def isCount (c : Char) : Bool := '0' ≤ c && c ≤ '8'

/-- The two groups of digits around the only slash, every one of them a count. -/
def readTable (body : Text) : Except Error Table :=
  match cut '/' body with
  | none => .error (.missingSlash body)
  | some (alive, dead) =>
    if dead.contains '/' then .error (.missingSlash body)
    else
      match (alive ++ dead).find? (!isCount ·) with
      | some c => .error (.badDigit body c)
      | none => .ok { dies := .ofDigits alive, born := .ofDigits dead }

/-- Two digits. -/
def readPair : Text → Option (Nat × Nat)
  | [a, b] =>
    if a.isDigit && b.isDigit then some (Numeral.digitValue a, Numeral.digitValue b) else none
  | _ => none

/-- The bounds of a directive `AB+CD`: both ranges are read before either is looked at. -/
def readBounds (directive : Text) : Except Error Bounds :=
  match cut '+' directive with
  | none => .error (.badDirective directive)
  | some (left, right) =>
    match readPair left, readPair right with
    | some (a, b), some (c, d) =>
      if b ≤ a then .error (.emptyRange directive a b)
      else if d ≤ c then .error (.emptyRange directive c d)
      else .ok { aliveLow := a, aliveHigh := b, deadLow := c, deadHigh := d }
    | _, _ => .error (.badDirective directive)

/-- The multiplier, if there is one, and the body. -/
def splitSegment (segment : Text) : Option Text × Text :=
  match cut 'x' segment with
  | some (multiplier, body) => (some multiplier, body)
  | none => (none, segment)

/-- How often a segment's table is repeated: once without a multiplier. -/
def readCopies : Option Text → Except Error Nat
  | none => .ok 1
  | some m =>
    match Numeral.readNat Numeral.maxU64 m with
    | .ok (n + 1) => .ok (n + 1)
    | _ => .error (.badMultiplier m)

variable {σ : Type} [Source σ]

/-- The body with a random directive replaced by a drawn rule. -/
def resolve (body : Text) (s : σ) : Except Error (Text × σ) :=
  if body.contains '+' then (readBounds body).map fun b => b.draw s else .ok (body, s)

/-- Reads one segment of the text `rule`. -/
def readSegment (rule segment : Text) (s : σ) : Except Error (Segment × σ) := do
  if segment.isEmpty then
    throw (.emptySegment rule)
  let (multiplier, body) := splitSegment segment
  let copies ← readCopies multiplier
  let (body, s) ← resolve body s
  let table ← readTable body
  return ({ multiplier, copies, body, table }, s)

/-- Reads segments in order, handing on the source of random words. -/
def readSegments (rule : Text) : List Text → σ → Except Error (List Segment × σ)
  | [], s => .ok ([], s)
  | t :: rest, s => do
    let (first, s) ← readSegment rule t s
    let (others, s) ← readSegments rule rest s
    return (first :: others, s)

/-- Reads a rule; what is left of the source of random words is part of the answer. -/
def parse (t : Text) (s : σ) : Except Error (Rule × σ) := do
  let (segments, s) ← readSegments t (t.splitOn ',') s
  return ({ segments }, s)

end TorusAutomaton.Rule
