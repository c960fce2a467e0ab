import TorusAutomaton.CommandLine.Arguments

/-!
# Reading command lines

The arguments are read from the left. A value given in an argument of its own is only looked at when
the next option is met or the line ends; an unknown argument in between is reported instead. Letters
can be put together behind one hyphen, and the first that takes a value takes the rest of the
argument. Nothing but options is allowed, and none of them twice.
-/

namespace TorusAutomaton.CommandLine

open TorusAutomaton Text

/-- How far reading has come: the values so far, the names that are settled, the option met last
with the value it has got, if any, and whether two hyphens have ended the options. -/
structure Reading where
  args : Arguments
  given : List Name
  pending : Option (Opt × Option Text)
  ended : Bool

namespace Reading

def start : Reading := { args := {}, given := [], pending := none, ended := false }

/-- Gives an option its value; it may not have one already. -/
def assign (r : Reading) (o : Opt) (value : Text) : Except Usage Reading :=
  if r.given.contains (.opt o) then .error .repeated
  else (r.args.set o value).map fun args => { r with args, given := .opt o :: r.given }

/-- Settles the option met last, which has to have got a value. -/
def settle (r : Reading) : Except Usage Reading :=
  match r.pending with
  | none => .ok r
  | some (_, none) => .error .missingValue
  | some (o, some value) => assign { r with pending := none } o value

/-- Turns a switch on; it may not be on already. -/
def turnOn (r : Reading) (s : Switch) : Except Usage Reading :=
  if r.given.contains (.switch s) then .error .repeated
  else .ok { r with args := r.args.turnOn s, given := .switch s :: r.given }

/-- Meets a name, with the value attached to it if there is one. -/
def meet (r : Reading) (name : Name) (attached : Option Text) : Except Usage Reading :=
  match name, attached with
  | .opt o, some value => do (← r.settle).assign o value
  | .opt o, none => do
    let r ← r.settle
    return { r with pending := some (o, none) }
  | .switch s, none => do (← r.settle).turnOn s
  | .help, none => do
    let _ ← r.settle
    throw .help
  | .version, none => do
    let _ ← r.settle
    throw .version
  | _, some _ => .error .unwantedValue

/-- Reads letters behind one hyphen. An equals sign before an attached value is left out. -/
def letters (r : Reading) : Text → Except Usage Reading
  | [] => .ok r
  | c :: rest =>
    match Name.ofLetter c with
    | none => .error .unknownArgument
    | some (.opt o) =>
      match rest with
      | [] => r.meet (.opt o) none
      | '=' :: value => r.meet (.opt o) (some value)
      | value => r.meet (.opt o) (some value)
    | some name => do (← r.meet name none).letters rest

/-- Reads what follows two hyphens: a name, and a value after an equals sign. -/
def longName (r : Reading) (t : Text) : Except Usage Reading :=
  let (name, attached) : Text × Option Text :=
    match cut '=' t with
    | some (name, value) => (name, some value)
    | none => (t, none)
  match Name.ofLong name with
  | none => .error .unknownArgument
  | some n => r.meet n attached

end Reading

/-- Goes through a number: digits, a point after the first character and before the exponent, and
an exponent that is not the end. -/
def numberFrom (first dotted exponent : Bool) : Text → Bool
  | [] => true
  | c :: rest =>
    if c.isDigit then numberFrom false dotted exponent rest
    else if c = '.' && !dotted && !exponent && !first then numberFrom false true exponent rest
    else if (c = 'e' || c = 'E') && !exponent && !first then
      !rest.isEmpty && numberFrom false dotted true rest
    else false

/-- Whether what follows a hyphen makes it the sign of a number. -/
def looksLikeNumber (t : Text) : Bool := numberFrom true false false t

/-- Whether an option that waits for its value takes it from this argument. A hyphen alone is a
value like any other. -/
def Opt.takes (o : Opt) : Text → Bool
  | ['-'] => true
  | '-' :: rest =>
    match o.hyphens with
    | .any => true
    | .numbers => looksLikeNumber rest
    | .refused => false
  | _ => true

/-- Takes an argument that is not the value of the option before it. -/
def Reading.takeName (r : Reading) : Text → Except Usage Reading
  | ['-', '-'] => .ok { r with ended := true }
  | '-' :: '-' :: name => r.longName name
  | '-' :: c :: more => r.letters (c :: more)
  | _ => .error .unknownArgument

/-- Takes the next argument. -/
def Reading.take (r : Reading) (word : Text) : Except Usage Reading :=
  if r.ended then .error .unknownArgument
  else
    match r.pending with
    | some (o, none) =>
      if o.takes word then .ok { r with pending := some (o, some word) } else r.takeName word
    | _ => r.takeName word

/-- Reads a command line without the program's name. -/
def parse (argv : List Text) : Except Usage Arguments := do
  let r ← argv.foldlM Reading.take .start
  return (← r.settle).args

end TorusAutomaton.CommandLine
