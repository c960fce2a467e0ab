import TorusAutomaton.TickSet.Basic
import TorusAutomaton.Text.Blank
import TorusAutomaton.Text.Numeral

/-!
# Reading sets of ticks

The text is a list of tokens between commas: a tick, a range `start:end`, or a range with a step
`start:end:step`. Both ends belong to a range. A negative number counts back from the last tick of
the run, which is -1, and needs a last tick above zero to count from. Tokens are read from the left;
within a token all parts have to be numbers before any of them is counted back.

A set is kept as the spans it was read from, so how many ticks it has plays no part in whether it
can be read. A machine that keeps every tick by itself runs out of memory on the largest ones.
-/

namespace TorusAutomaton.TickSet

open TorusAutomaton Text

inductive Error
  | unboundedNegative (tick : Int)
  | malformed (token : Text)
  | badStep (token : Text)
  | maxTooLarge (max : Nat)
  deriving DecidableEq, Repr

def Error.message : Error → String
  | .unboundedNegative tick => "negative tick " ++ toString tick ++ " needs a known maximum tick"
  | .malformed token => "'" ++ String.ofList token ++ "' is not a tick, range or stepped range"
  | .badStep token => "step in '" ++ String.ofList token ++ "' must be positive"
  | .maxTooLarge max => "maximum tick " ++ toString max ++ " is too large to count back from"

/-- The number of ticks from 0 to the last tick, if there is a last tick above zero. -/
def cycle (max : Option Nat) : Except Error (Option Nat) :=
  match max with
  | none => .ok none
  | some m =>
    if m = 0 then .ok none
    else if m < Numeral.maxI64 then .ok (some (m + 1))
    else .error (.maxTooLarge m)

/-- The number in one part of a token; blanks around it do not matter. -/
def readPart (token part : Text) : Except Error Int :=
  match Numeral.readInt Numeral.maxI64 (trim part) with
  | .ok v => .ok v
  | .error _ => .error (.malformed token)

/-- Counts a negative number back; all others stay as they are. -/
def countBack (cycle : Option Nat) (v : Int) : Except Error Nat :=
  if 0 ≤ v then .ok v.toNat
  else
    match cycle with
    | some n => .ok (v % (n : Int)).toNat
    | none => .error (.unboundedNegative v)

def readToken (cycle : Option Nat) (token : Text) : Except Error Span := do
  let values ← (token.splitOn ':').mapM (readPart token)
  let parts ← values.mapM (countBack cycle)
  match parts with
  | [tick] => return { first := tick, last := tick, step := 1 }
  | [first, last] => return { first, last, step := 1 }
  | [first, last, step] =>
    if step = 0 then throw (.badStep token)
    return { first, last, step }
  | _ => throw (.malformed token)

/-- Reads a set of ticks of a run whose last tick is `max`. -/
def parse (t : Text) (max : Option Nat) : Except Error TickSet := do
  let cycle ← cycle max
  let spans ← (t.splitOn ',').mapM (readToken cycle)
  return { spans }

end TorusAutomaton.TickSet
