import TorusAutomaton.Text.Numeral

/-!
# Decimals read as binary floating point numbers

A decimal is a fraction of whole numbers; it is read as the nearest number of the double format,
and half way between two of them as the one whose last bit is zero. All rounding is done on whole
numbers, and the result is assembled from its bits.
-/

namespace TorusAutomaton.Decimal

open TorusAutomaton.Text

/-- Nearest whole number to `num / den`; a half goes to the even neighbour. -/
def roundHalfEven (num den : Nat) : Nat :=
  let q := num / den
  let r := num % den
  if 2 * r < den || (2 * r == den && q % 2 == 0) then q else q + 1

/-- Bits of positive infinity. Larger bit patterns below the sign bit are not numbers. -/
def infinityBits : Nat := 0x7FF0000000000000

/-- The bit of the sign. -/
def signBit : Nat := 0x8000000000000000

/-- The smallest count of units in the last place that takes 53 bits; the first is not stored. -/
def leadingBit : Nat := 0x10000000000000

/-- Exponent of two of the last bit of the double nearest to `num / den`: the one that leaves 53
bits, but not less than the smallest of the format. -/
def lastPlace (num den : Nat) : Int :=
  let q : Int := (num.log2 : Int) - den.log2 - 52
  let q := if num <<< (-q).toNat < leadingBit * (den <<< q.toNat) then q - 1 else q
  max q (-1074)

/-- Bits of the double nearest to `num / den`. A count of `2 ^ 53` units in the last place carries
over into the exponent, and an exponent past the largest gives infinity. -/
def nearestBits (num den : Nat) : Nat :=
  if num = 0 then 0
  else
    let q := lastPlace num den
    let n := roundHalfEven (num <<< (-q).toNat) (den <<< q.toNat)
    min ((q + 1074).toNat * leadingBit + n) infinityBits

/-- Bits of the double nearest to `digits * 10 ^ exponent`. Beyond 310 places before the point
all is infinite, and with 330 zeros after it nothing is left. -/
def bitsOfScientific (digits : Nat) (exponent : Int) : Nat :=
  let places : Int := (Numeral.ofNat digits).length + exponent
  if digits = 0 || places < -330 then 0
  else if places > 310 then infinityBits
  else nearestBits (digits * Nat.pow 10 exponent.toNat) (Nat.pow 10 (-exponent).toNat)

def ofBits (negative : Bool) (bits : Nat) : Float :=
  Float.ofBits (UInt64.ofNat (if negative then signBit + bits else bits))

/-- The whole number that a list of digits writes. -/
def digitsValue (t : Text) : Nat := t.foldl (fun n c => 10 * n + Numeral.digitValue c) 0

/-- What follows the mantissa: nothing, or `e`, an optional sign and digits. -/
def readExponent : Text → Option Int
  | [] => some 0
  | c :: rest =>
    if c = 'e' || c = 'E' then
      let (negative, digits) : Bool × Text :=
        match rest with
        | '-' :: r => (true, r)
        | '+' :: r => (false, r)
        | r => (false, r)
      if digits.isEmpty || !digits.all Char.isDigit then none
      else some (if negative then -(digitsValue digits : Int) else digitsValue digits)
    else none

/-- A number without sign: digits with at most one point among, before or after them, and then
an exponent or nothing. -/
def readUnsigned (t : Text) : Option Nat :=
  let whole := t.takeWhile Char.isDigit
  let afterWhole := t.dropWhile Char.isDigit
  let (fraction, rest) : Text × Text :=
    match afterWhole with
    | '.' :: r => (r.takeWhile Char.isDigit, r.dropWhile Char.isDigit)
    | r => ([], r)
  if (whole ++ fraction).isEmpty then none
  else (readExponent rest).map fun e =>
    bitsOfScientific (digitsValue (whole ++ fraction)) (e - fraction.length)

/-- A sign if there is one, then a number or one of the words `inf`, `infinity` and `nan` in
upper or lower case. -/
def read (t : Text) : Option Float :=
  let (negative, body) : Bool × Text :=
    match t with
    | '-' :: r => (true, r)
    | '+' :: r => (false, r)
    | r => (false, r)
  let word := body.map Char.toLower
  if word = "inf".toList || word = "infinity".toList then some (ofBits negative infinityBits)
  else if word = "nan".toList then some (ofBits negative (infinityBits + leadingBit / 2))
  else (readUnsigned body).map (ofBits negative)

end TorusAutomaton.Decimal
