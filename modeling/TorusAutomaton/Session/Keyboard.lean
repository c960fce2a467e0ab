import TorusAutomaton.Text.Numeral

/-!
# Keys

A terminal sends keys as characters. Most keys are one character, some are a sequence that starts
with an escape character, and some sequences tell of other things than keys. The characters that
have come since the last key are read again with every character, until they are a key or cannot
become one.
-/

namespace TorusAutomaton.Session

open TorusAutomaton Text

/-- A key that was typed, or something else that the terminal tells of. -/
inductive Key
  | char (c : Char)
  | escape
  | other
  deriving DecidableEq, Repr

/-- What a sequence comes to: more has to follow, it is given up, or it is a key. -/
inductive Reading
  | unfinished
  | dropped
  | key (key : Key)
  deriving DecidableEq, Repr

namespace Keyboard

def other : Reading := .key .other

/-- The key of one character. With the control key held, a letter or a digit comes as a control
character, and the space bar as the first of them. -/
def ofChar (c : Char) : Key :=
  let n := c.toNat
  if n = 0 then .char ' '
  else if c = '\t' || c = '\r' || n = 0x7F then .other
  else if n ≤ 0x1A then .char (Char.ofNat (n - 1 + 'a'.toNat))
  else if 0x1C ≤ n && n ≤ 0x1F then .char (Char.ofNat (n - 0x1C + '4'.toNat))
  else .char c

/-- The number in a field, if it is at most `bound`. -/
def number (bound : Nat) (field : Text) : Option Nat := (Numeral.readNat bound field).toOption

/-- The character with a code. -/
def character (code : Nat) : Option Char :=
  if code.isValidChar then some (Char.ofNat code) else none

/-- A key that was pressed; one that is held or let go does nothing. -/
def pressed (kind : Nat) (key : Key) : Reading := if kind = 2 || kind = 3 then other else .key key

/-- The keys held down and what was done to the key, from a field of one or two numbers. -/
def modifiers (field : Text) : Option (Nat × Nat) :=
  match field.splitOn ':' with
  | [] => none
  | mask :: kind =>
    (number 255 mask).map fun m => (m, (kind.head?.bind (number 255)).getD 1)

/-- Whether a number is the code of what was done with which button of a mouse. -/
def isButton (code : Nat) : Bool :=
  let button := code % 4 + code / 64 * 4
  button ≤ 5 || (button ≤ 7 && code / 32 % 2 = 0)

/-- A report of the mouse: the code of the button, a column and a line. -/
def mouse (code : Option Nat) (place : List Text) : Reading :=
  match code, place with
  | some c, column :: line :: _ =>
    if isButton c && (number 65535 column).isSome && (number 65535 line).isSome then other
    else .dropped
  | _, _ => .dropped

/-- Numbers of keys that have no character. -/
def isNamedKey (n : Nat) : Bool :=
  n ∈ [1, 2, 3, 4, 5, 6, 7, 8, 11, 12, 13, 14, 15, 17, 18, 19, 20, 21, 23, 24, 25, 26, 28, 29, 31,
    32, 33, 34]

/-- Codes of the two shift keys, left and right. -/
def shiftKeys : List Nat := [57441, 57447]

/-- Whether the shift key is held, or is the key itself. -/
def isShifted (code mask : Nat) : Bool := (mask - 1) % 2 = 1 || shiftKeys.contains code

/-- A key told by its code, which is that of its character if it has one. With the shift key held, a
second code tells what the key then stands for. -/
def coded (codes : List Text) (mask kind : Nat) : Reading :=
  let code := codes.head?.bind (number Numeral.maxU32)
  match code, code.bind character with
  | some n, some c =>
    let shifted := if isShifted n mask then codes[1]? else none
    match (shifted.bind (number Numeral.maxU32)).bind character with
    | some s => pressed kind (.char s)
    | none =>
      if c = '\x1b' then pressed kind .escape
      else if c = '\t' || c = '\r' || c = '\x7f' then other
      else pressed kind (.char c)
  | _, _ => .dropped

/-- A sequence of fields with semicolons between them, by its last character. -/
def numbered (body : Text) (last : Char) : Reading :=
  let fields := body.splitOn ';'
  let first := fields.headD []
  let held := (fields[1]?).bind modifiers
  match last with
  | 'M' =>
    let code := (number 255 first).bind fun n => if 32 ≤ n then some (n - 32) else none
    mouse code fields.tail
  | 'R' => .dropped
  | '~' => if ((number 255 first).map isNamedKey).getD false then other else .dropped
  | 'u' =>
    let (mask, kind) := held.getD (1, 1)
    coded (first.splitOn ':') mask kind
  | last =>
    let known := "ABCDFHPQS".toList.contains last
    if known && (held.isSome || (body.getLast?.map Char.isDigit).getD false) then other
    else .dropped

/-- The bytes of a text. -/
def size (t : Text) : Nat := t.foldr (fun c n => c.utf8Size + n) 0

/-- A report of the mouse in three bytes. -/
def mouseBytes (body : Text) : Reading :=
  if size body < 3 then .unfinished
  else
    match body.head? with
    | some c =>
      if 32 ≤ c.toNat && c.toNat < 128 && isButton (c.toNat - 32) then other else .dropped
    | none => .dropped

/-- A report of the mouse in fields. -/
def mouseFields (body : Text) : Reading :=
  match body.getLast? with
  | some 'M' | some 'm' =>
    let fields := body.dropLast.splitOn ';'
    mouse (fields.head?.bind (number 255)) fields.tail
  | _ => .unfinished

/-- An answer of the terminal, which nobody asked for. -/
def answer (body : Text) : Reading :=
  match body.getLast? with
  | some 'u' => if 2 ≤ body.length then .dropped else .unfinished
  | some 'c' => .dropped
  | _ => .unfinished

/-- Pasted text is no key. It lasts to a mark of its own. -/
def pasted (body : Text) : Reading :=
  if "\x1b[201~".toList.isSuffixOf body then other else .unfinished

/-- What follows an escape character and a bracket. A sequence that starts with a digit lasts to a
letter or a sign from `@` to `~`. -/
def bracketed : Text → Reading
  | [] => .unfinished
  | '[' :: rest =>
    match rest.head? with
    | none => .unfinished
    | some c => if "ABCDE".toList.contains c then other else .dropped
  | 'M' :: rest => mouseBytes rest
  | '<' :: rest => mouseFields rest
  | '?' :: rest => answer rest
  | c :: rest =>
    if c.isDigit then
      match rest.getLast? with
      | none => .unfinished
      | some last =>
        if 64 ≤ last.toNat && last.toNat ≤ 126 then
          if startsWith "200~".toList (c :: rest) then pasted rest
          else numbered (c :: rest.dropLast) last
        else .unfinished
    else if "ABCDFHIOPQSZ".toList.contains c then other
    else .dropped

/-- Reads the characters that have come since the last key. An escape character is the escape key if
nothing follows it (`last`) or another one does; otherwise it belongs to what follows. -/
def read (typed : Text) (last : Bool) : Reading :=
  match typed with
  | [] => .unfinished
  | ['\x1b'] => if last then .key .escape else .unfinished
  | '\x1b' :: '\x1b' :: _ => .key .escape
  | '\x1b' :: '[' :: rest => bracketed rest
  | '\x1b' :: 'O' :: rest =>
    match rest.head? with
    | none => .unfinished
    | some c => if "ABCDFHPQRS".toList.contains c then other else .dropped
  | '\x1b' :: c :: _ | c :: _ => .key (ofChar c)

/-- The keys behind further characters, `typed` being those that have come since the last key. -/
def keysFrom (typed : Text) : Text → List Key
  | [] => []
  | c :: rest =>
    let typed := typed ++ [c]
    match read typed rest.isEmpty with
    | .unfinished => keysFrom typed rest
    | .dropped => keysFrom [] rest
    | .key k => k :: keysFrom [] rest

/-- The keys behind typed characters. -/
def keys (t : Text) : List Key := keysFrom [] t

end Keyboard

end TorusAutomaton.Session
