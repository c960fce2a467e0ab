import TorusAutomaton.Decimal.Nearest

/-!
# Shortest decimals

A floating point number is written with the fewest digits that still read back as the same number,
and of those the nearest to it, without an exponent; half way between two of them the one farther
from zero is taken. A number `n * 2 ^ q` is read back from every decimal between the midpoints to
its two neighbours; the midpoints themselves belong to it when `n` is even. The coarsest grid of
powers of ten that has a point there gives the digits.
-/

namespace TorusAutomaton.Decimal

open TorusAutomaton.Text

/-- The decimals that read as one number: from `low` to `high` in units of `2 ^ scale`, around
the number itself at `mid`. -/
structure Basin where
  low : Nat
  mid : Nat
  high : Nat
  scale : Int
  closed : Bool

/-- Basin of the positive finite number with these bits, in quarters of its last place. Below a
power of two the neighbour is only half as far away. -/
def Basin.ofBits (bits : Nat) : Basin :=
  let exponent : Nat := bits / leadingBit
  let fraction : Nat := bits % leadingBit
  let n := if exponent = 0 then fraction else leadingBit + fraction
  let q : Int := if exponent = 0 then -1074 else (exponent : Int) - 1075
  { low := if fraction = 0 && exponent > 1 then 4 * n - 1 else 4 * n - 2
    mid := 4 * n
    high := 4 * n + 2
    scale := q - 2
    closed := n % 2 = 0 }

/-- The multiple of `10 ^ place` in the basin that is nearest to its middle, if there is one; half
way between two of them the upper one. -/
def Basin.gridPoint (b : Basin) (place : Int) : Option Nat :=
  let unit := Nat.pow 10 (-place).toNat <<< b.scale.toNat
  let step := Nat.pow 10 place.toNat <<< (-b.scale).toNat
  let c := b.mid * unit / step
  let inside (k : Nat) : Bool :=
    if b.closed then b.low * unit ≤ k * step && k * step ≤ b.high * unit
    else b.low * unit < k * step && k * step < b.high * unit
  let below := b.mid * unit - c * step
  let above := (c + 1) * step - b.mid * unit
  if inside c && (below < above || !inside (c + 1)) then some c
  else if inside (c + 1) then some (c + 1)
  else none

/-- Digits and place of the point of the coarsest grid. Every finite number has one at or above
`10 ^ -324`. -/
def Basin.shortest (b : Basin) : Nat × Int :=
  ((List.range 660).findSome? fun i : Nat =>
    (b.gridPoint (309 - (i : Int))).map fun c => (c, 309 - (i : Int))).getD (0, 0)

/-- `digits * 10 ^ place` in positional notation. -/
def positional (digits : Nat) (place : Int) : Text :=
  if 0 ≤ place then Numeral.ofNat digits ++ List.replicate place.toNat '0'
  else
    let after := (-place).toNat
    let t := Numeral.ofNat digits
    let t := List.replicate (after + 1 - t.length) '0' ++ t
    t.take (t.length - after) ++ '.' :: t.drop (t.length - after)

def render (x : Float) : Text :=
  let bits := x.toBits.toNat
  let magnitude := bits % signBit
  let sign : Text := if bits / signBit = 1 then ['-'] else []
  if magnitude > infinityBits then "NaN".toList
  else if magnitude = infinityBits then sign ++ "inf".toList
  else if magnitude = 0 then sign ++ ['0']
  else
    let s := (Basin.ofBits magnitude).shortest
    sign ++ positional s.1 s.2

end TorusAutomaton.Decimal
