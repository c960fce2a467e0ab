import TorusAutomaton.Text.Numeral

/-!
# Templates

Subtitles and file names are templates in which a percent sign and a key stand for a value. The
template is read once from the left: a percent sign with a key after it is replaced, one without is
kept, and values are not read again. Two-letter keys go before one-letter ones.
-/

namespace TorusAutomaton.Template

open TorusAutomaton Text

inductive Key
  | postRule
  | postRuleName
  | postTicks
  | rule
  | ruleName
  | size
  | sizeName
  | modeNumber
  | modeLetter
  | seed
  | seedName
  | tick
  | paddedTick
  | inverted
  | selected
  deriving DecidableEq, Repr

/-- What the keys stand for. The rule and the number of ticks of post-processing are absent when
it is off. -/
structure Bindings where
  rule : Text
  width : Nat
  height : Nat
  modeNumber : Nat
  modeLetter : Char
  seed : Text
  tick : Int
  inverted : Bool
  selected : Bool
  post : Option (Text × Nat)

/-- A rule as part of a file name. -/
def withoutSlashes (t : Text) : Text := substitute '/' '-' t

def value (b : Bindings) : Key → Text
  | .rule => b.rule
  | .ruleName => withoutSlashes b.rule
  | .size => Numeral.ofNat b.width ++ 'x' :: Numeral.ofNat b.height
  | .sizeName => Numeral.ofNat b.width ++ '-' :: Numeral.ofNat b.height
  | .modeNumber => Numeral.ofNat b.modeNumber
  | .modeLetter => [b.modeLetter]
  | .seed => b.seed
  | .seedName => b.seed.filter fun c => c != '[' && c != ']'
  | .tick => Numeral.ofInt b.tick
  | .paddedTick => Numeral.padded 8 b.tick
  | .inverted => if b.inverted then ['i'] else [' ']
  | .selected => if b.selected then ['s'] else [' ']
  | .postRule => (b.post.map fun p => p.1).getD []
  | .postRuleName => (b.post.map fun p => withoutSlashes p.1).getD []
  | .postTicks => (b.post.map fun p => Numeral.ofNat p.2 ++ ['x']).getD []

def Key.letters : Key → Text
  | .postRule => ['p', 'r']
  | .postRuleName => ['P', 'R']
  | .postTicks => ['p', 't']
  | .rule => ['r']
  | .ruleName => ['R']
  | .size => ['d']
  | .sizeName => ['D']
  | .modeNumber => ['f']
  | .modeLetter => ['a']
  | .seed => ['s']
  | .seedName => ['S']
  | .tick => ['t']
  | .paddedTick => ['T']
  | .inverted => ['i']
  | .selected => ['o']

def Key.all : List Key :=
  [.postRule, .postRuleName, .postTicks, .rule, .ruleName, .size, .sizeName, .modeNumber,
   .modeLetter, .seed, .seedName, .tick, .paddedTick, .inverted, .selected]

/-- The key that a text starts with. -/
def keyAt (t : Text) : Option Key := Key.all.find? fun k => k.letters.isPrefixOf t

/-- Goes through the template; the first `skip` characters belong to a key and are left out. -/
def expandFrom (b : Bindings) : Nat → Text → Text
  | _, [] => []
  | skip + 1, _ :: rest => expandFrom b skip rest
  | 0, c :: rest =>
    if c = '%' then
      match keyAt rest with
      | some key => value b key ++ expandFrom b key.letters.length rest
      | none => '%' :: expandFrom b 0 rest
    else c :: expandFrom b 0 rest

def expand (template : Text) (b : Bindings) : Text := expandFrom b 0 template

end TorusAutomaton.Template
