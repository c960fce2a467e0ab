import TorusAutomaton.Text.Hidden

/-!
# Texts in quotes

Messages show a text between double quotes. Quotes and backslashes get a backslash, the usual
control characters their letter, and every other character that is not visible by itself its code
point in braces. A command for a shell has a value between single quotes unless it consists of
characters that no shell splits or expands; a single quote in it is written outside the quotes,
after a backslash.
-/

namespace TorusAutomaton

/-! ## In messages -/

namespace Text

/-- One character as it stands between the quotes. -/
def escapeChar (c : Char) : Text :=
  if c = '"' then ['\\', '"']
  else if c = '\\' then ['\\', '\\']
  else if c = '\n' then ['\\', 'n']
  else if c = '\t' then ['\\', 't']
  else if c = '\r' then ['\\', 'r']
  else if c.toNat = 0 then ['\\', '0']
  else if isHidden c then ['\\', 'u', '\x7b'] ++ Nat.toDigits 16 c.toNat ++ ['\x7d']
  else [c]

def escaped (t : Text) : Text := ['"'] ++ t.flatMap escapeChar ++ ['"']

end Text

/-! ## In commands -/

namespace Shell

/-- Characters that need no quoting: ASCII letters and digits, and a few signs. -/
def isPlain (c : Char) : Bool := c.isAlphanum || "/,.:-_+x".toList.contains c

/-- A character between single quotes. -/
def quoteChar (c : Char) : Text := if c = '\'' then "'\\''".toList else [c]

def quote (value : Text) : Text :=
  if !value.isEmpty && value.all isPlain then value
  else '\'' :: (value.flatMap quoteChar ++ ['\''])

end Shell

end TorusAutomaton
