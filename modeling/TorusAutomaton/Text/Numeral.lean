import TorusAutomaton.Text.Basic

/-!
# Whole numbers

Reading takes an optional sign and ASCII digits, at least one. Digits are read from the left, so
of two faults the one further left is reported. Leading zeros are allowed, blanks are not.
-/

namespace TorusAutomaton.Text.Numeral

/-- Why a text is not a number of the wanted range. -/
inductive Fault
  | empty
  | invalidDigit
  | tooLarge
  | tooSmall
  deriving DecidableEq, Repr

def Fault.message : Fault → String
  | .empty => "cannot parse integer from empty string"
  | .invalidDigit => "invalid digit found in string"
  | .tooLarge => "number too large to fit in target type"
  | .tooSmall => "number too small to fit in target type"

def maxU8 : Nat := 0xFF

def maxU32 : Nat := 0xFFFFFFFF

def maxU64 : Nat := 0xFFFFFFFFFFFFFFFF

def maxI64 : Nat := 0x7FFFFFFFFFFFFFFF

/-- Value of an ASCII digit. -/
def digitValue (c : Char) : Nat := c.toNat - '0'.toNat

/-- Continues a number with value `value`; no value on the way may exceed `bound`. -/
def scan (bound : Nat) : Nat → Text → Except Fault Nat
  | value, [] => .ok value
  | value, c :: rest =>
    if c.isDigit then
      let next := 10 * value + digitValue c
      if next ≤ bound then scan bound next rest else .error .tooLarge
    else .error .invalidDigit

/-- Digits alone, at least one. -/
def readDigits (bound : Nat) (t : Text) : Except Fault Nat :=
  if t.isEmpty then .error .invalidDigit else scan bound 0 t

/-- A number from 0 to `bound`; a plus sign may stand in front. -/
def readNat (bound : Nat) : Text → Except Fault Nat
  | [] => .error .empty
  | '+' :: rest => readDigits bound rest
  | t => readDigits bound t

/-- A number from `-(bound + 1)` to `bound`; either sign may stand in front. -/
def readInt (bound : Nat) : Text → Except Fault Int
  | [] => .error .empty
  | '-' :: rest =>
    match readDigits (bound + 1) rest with
    | .ok n => .ok (-(n : Int))
    | .error .tooLarge => .error .tooSmall
    | .error fault => .error fault
  | '+' :: rest => (readDigits bound rest).map Int.ofNat
  | t => (readDigits bound t).map Int.ofNat

/-- Decimal digits without leading zeros. -/
def ofNat (n : Nat) : Text := Nat.toDigits 10 n

def ofInt (i : Int) : Text := if i < 0 then '-' :: ofNat i.natAbs else ofNat i.natAbs

/-- Fills up with zeros to `width` characters; a minus sign counts as one of them. -/
def padded (width : Nat) (i : Int) : Text :=
  let digits := ofNat i.natAbs
  if i < 0 then '-' :: (List.replicate (width - 1 - digits.length) '0' ++ digits)
  else List.replicate (width - digits.length) '0' ++ digits

end TorusAutomaton.Text.Numeral
