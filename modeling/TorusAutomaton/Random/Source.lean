/-!
# Random words

Whatever draws at random draws from a source of 32-bit words, one word after the other. Nothing
here depends on which source it is: a bounded draw stays within its bound for every source, because
a value is only accepted or refused, never trusted.
-/

namespace TorusAutomaton.Random

/-- A state from which one word can be taken at a time. -/
class Source (σ : Type) where
  word : σ → UInt32 × σ

variable {σ : Type}

/-- How often a bounded draw is repeated at most. Each attempt is refused at most half of the time,
so the words that refuse them all come once in two to the power of this number; the answer is zero
then. Otherwise no further attempt would change it, as `drawBelow_of_not_refusedAll` tells. -/
def attempts : Nat := 4096

/-- A number below `range` from draws of `bits` bits. The product of a draw and the range has its
answer in the high half; low halves past the largest multiple of a power of two times the range are
refused, so that every answer is equally likely. -/
def drawBelow (bits : Nat) (draw : σ → Nat × σ) (range : Nat) : Nat → σ → Nat × σ
  | 0, s => (0, s)
  | n + 1, s =>
    let (v, s) := draw s
    let product := v * range
    if product % Nat.pow 2 bits < range <<< (bits - 1 - range.log2) then (product >>> bits, s)
    else drawBelow bits draw range n s

theorem drawBelow_lt {bits range : Nat} {draw : σ → Nat × σ} (hrange : 0 < range)
    (hdraw : ∀ s, (draw s).1 < Nat.pow 2 bits) (n : Nat) (s : σ) :
    (drawBelow bits draw range n s).1 < range := by
  induction n generalizing s with
  | zero => simpa [drawBelow] using hrange
  | succ n ih =>
    simp only [drawBelow]
    split
    · rw [Nat.shiftRight_eq_div_pow, Nat.div_lt_iff_lt_mul (Nat.two_pow_pos bits), Nat.mul_comm]
      exact (Nat.mul_lt_mul_left hrange).2 (hdraw s)
    · exact ih _

/-- Whether a draw is refused. -/
def refused (bits range v : Nat) : Prop :=
  range <<< (bits - 1 - range.log2) ≤ v * range % Nat.pow 2 bits

/-- Whether the first `n` draws are all refused. -/
def refusedAll (bits : Nat) (draw : σ → Nat × σ) (range : Nat) : Nat → σ → Prop
  | 0, _ => True
  | n + 1, s => refused bits range (draw s).1 ∧ refusedAll bits draw range n (draw s).2

/-- Unless all attempts are refused, more of them would come to the same. -/
theorem drawBelow_of_not_refusedAll {bits range : Nat} {draw : σ → Nat × σ} {n : Nat} {s : σ}
    (h : ¬ refusedAll bits draw range n s) (more : Nat) :
    drawBelow bits draw range (n + more) s = drawBelow bits draw range n s := by
  induction n generalizing s with
  | zero => exact absurd trivial h
  | succ n ih =>
    rw [Nat.succ_add]
    simp only [drawBelow]
    split
    · rfl
    · rename_i hrefused
      exact ih fun hrest => h ⟨Nat.le_of_not_lt hrefused, hrest⟩

variable [Source σ]

/-- The next word as a number. -/
def draw32 (s : σ) : Nat × σ :=
  let (w, s) := Source.word s
  (w.toNat, s)

/-- The next two words as one number, the first word being its low half. -/
def draw64 (s : σ) : Nat × σ :=
  let (low, s) := draw32 s
  let (high, s) := draw32 s
  (low + 0x100000000 * high, s)

/-- A number below `range` from 32-bit draws. -/
def below32 (range : Nat) (s : σ) : Nat × σ := drawBelow 32 draw32 range attempts s

/-- A number below `range` from 64-bit draws. -/
def below64 (range : Nat) (s : σ) : Nat × σ := drawBelow 64 draw64 range attempts s

/-- A floating point number from 0 up to 1: the upper 53 bits of a 64-bit draw as a fraction. -/
def fraction (s : σ) : Float × σ :=
  let (v, s) := draw64 s
  ((v >>> 11).toUInt64.toFloat / (Nat.pow 2 53).toUInt64.toFloat, s)

theorem draw32_lt (s : σ) : (draw32 s).1 < Nat.pow 2 32 :=
  UInt32.toNat_lt (Source.word s).1

theorem draw64_lt (s : σ) : (draw64 s).1 < Nat.pow 2 64 := by
  have low := draw32_lt s
  have high := draw32_lt (draw32 s).2
  simp only [Nat.pow_eq] at low high ⊢
  simp only [draw64]
  omega

theorem below32_lt {range : Nat} (hrange : 0 < range) (s : σ) : (below32 range s).1 < range :=
  drawBelow_lt hrange draw32_lt attempts s

theorem below64_lt {range : Nat} (hrange : 0 < range) (s : σ) : (below64 range s).1 < range :=
  drawBelow_lt hrange draw64_lt attempts s

end TorusAutomaton.Random
