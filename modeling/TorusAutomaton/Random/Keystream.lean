import TorusAutomaton.Random.Source

/-!
# The keystream

The words come from ChaCha with twelve rounds: a key of eight words, a 64-bit block counter that
starts at zero and a stream number that is zero. The output is the sequence of all words of block
0, 1, 2 and so on. A seed is a text; its hash is spread over the key.
-/

namespace TorusAutomaton.Random

/-- The sixteen words of a block. -/
abbrev Block := Vector UInt32 16

def rotateLeft (w : UInt32) (n : UInt32) : UInt32 := (w <<< n) ||| (w >>> (32 - n))

def rotateRight (w : UInt32) (n : UInt32) : UInt32 := (w >>> n) ||| (w <<< (32 - n))

def quarterRound (v : Block) (a b c d : Fin 16) : Block :=
  let v := v.set a (v[a] + v[b])
  let v := v.set d (rotateLeft (v[d] ^^^ v[a]) 16)
  let v := v.set c (v[c] + v[d])
  let v := v.set b (rotateLeft (v[b] ^^^ v[c]) 12)
  let v := v.set a (v[a] + v[b])
  let v := v.set d (rotateLeft (v[d] ^^^ v[a]) 8)
  let v := v.set c (v[c] + v[d])
  v.set b (rotateLeft (v[b] ^^^ v[c]) 7)

/-- Four columns, then four diagonals. -/
def doubleRound (v : Block) : Block :=
  let v := quarterRound v 0 4 8 12
  let v := quarterRound v 1 5 9 13
  let v := quarterRound v 2 6 10 14
  let v := quarterRound v 3 7 11 15
  let v := quarterRound v 0 5 10 15
  let v := quarterRound v 1 6 11 12
  let v := quarterRound v 2 7 8 13
  quarterRound v 3 4 9 14

/-- Block number `counter` under a key: twelve rounds, and the starting words added back. -/
def block (key : Vector UInt32 8) (counter : UInt64) : Block :=
  let start : Block :=
    #v[0x61707865, 0x3320646e, 0x79622d32, 0x6b206574,
       key[0], key[1], key[2], key[3], key[4], key[5], key[6], key[7],
       counter.toUInt32, (counter >>> 32).toUInt32, 0, 0]
  let mixed := (List.range 6).foldl (fun v _ => doubleRound v) start
  Vector.ofFn fun i => mixed[i] + start[i]

/-- A place in the output: what is left of the present block, and the number of the next. -/
structure Keystream where
  key : Vector UInt32 8
  next : UInt64
  rest : List UInt32

instance : Source Keystream where
  word k :=
    match k.rest with
    | w :: rest => (w, { k with rest })
    | [] =>
      let b := block k.key k.next
      (b[0], { k with next := k.next + 1, rest := b.toList.tail })

/-- One step of the linear generator that spreads a number over the key. -/
def spreadStep (state : UInt64) : UInt64 := state * 6364136223846793005 + 11634580027462260723

/-- The word shown by a state of that generator. -/
def spreadWord (state : UInt64) : UInt32 :=
  rotateRight (((state >>> 18) ^^^ state) >>> 27).toUInt32 (state >>> 59).toUInt32

/-- The start of the keystream of a number. -/
def Keystream.ofNumber (n : UInt64) : Keystream :=
  let state (i : Fin 8) : UInt64 := (List.range (i + 1)).foldl (fun s _ => spreadStep s) n
  { key := Vector.ofFn fun i => spreadWord (state i), next := 0, rest := [] }

/-- Hash of a text over its UTF-8 bytes, which are mixed in from the left (FNV-1a, 64 bits). -/
def seedNumber (seed : List Char) : UInt64 :=
  (String.ofList seed).toUTF8.toList.foldl (fun h b => (h ^^^ b.toUInt64) * 1099511628211)
    14695981039346656037

def Keystream.ofSeed (seed : List Char) : Keystream := .ofNumber (seedNumber seed)

end TorusAutomaton.Random
