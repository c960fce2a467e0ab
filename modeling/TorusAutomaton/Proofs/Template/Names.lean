import Mathlib.Algebra.Order.BigOperators.Group.List
import Mathlib.Algebra.Order.Group.Nat
import TorusAutomaton.Files.Path
import TorusAutomaton.Proofs.Template.Expansion
import TorusAutomaton.Proofs.Text.Numerals

/-!
# Names that tell ticks apart

The frames of a run get their names from one template. From one frame to a later one some values
stay what they are, others change but always take one character, and the tick never gets shorter. So
if two names are equal, they are equal value by value, and a template with the tick in it gives
different names to different ticks, whatever stands around it.
-/

namespace TorusAutomaton.Template

open TorusAutomaton Text

/-! ## Where a key stands -/

theorem stands_of_append {c : Char} {u front rest : Text} (hfront : c ∉ front)
    (h : c :: u <:+: front ++ rest) : c :: u <:+: rest := by
  induction front with
  | nil => exact h
  | cons d front ih =>
      obtain ⟨hd, hfront⟩ := not_or.mp (mt List.mem_cons.mpr hfront)
      rcases List.infix_cons_iff.mp h with hstart | hlater
      · exact absurd (List.cons_prefix_cons.mp hstart).1 hd
      · exact ih hfront hlater

/-- A percent sign with the letters of a key after it is read as that key wherever it stands, since
no percent sign is lost to the letters of another key. -/
theorem Reads.key_mem {t : Text} {pieces : List Piece} (h : Reads t pieces) {k : Key}
    (hk : '%' :: k.letters <:+: t) : .key k ∈ pieces := by
  induction h with
  | nil => exact absurd (List.eq_nil_of_infix_nil hk) (List.cons_ne_nil _ _)
  | @key k' rest pieces h ih =>
      rcases List.infix_cons_iff.mp hk with hstart | hlater
      · have hfits := (List.cons_prefix_cons.mp hstart).2
        rw [Key.eq_of_fits hfits (List.prefix_append _ _)]
        exact List.mem_cons_self
      · exact List.mem_cons_of_mem _ (ih (stands_of_append k'.percent_not_mem_letters hlater))
  | @kept c rest pieces noKey h ih =>
      rcases List.infix_cons_iff.mp hk with hstart | hlater
      · obtain ⟨rfl, hfits⟩ := List.cons_prefix_cons.mp hstart
        exact absurd hfits (noKey rfl k)
      · exact List.mem_cons_of_mem _ (ih hlater)

/-! ## Values of one run -/

/-- The values that a run never changes. -/
structure Constant where
  rule : Text
  width : Nat
  height : Nat
  seed : Text
  post : Option (Text × Nat)

def Bindings.constant (b : Bindings) : Constant where
  rule := b.rule
  width := b.width
  height := b.height
  seed := b.seed
  post := b.post

/-- Bindings as a frame in a file has them. -/
structure Bindings.Regular (b : Bindings) : Prop where
  modeNumber : b.modeNumber < 10
  modeLetter : b.modeLetter ≠ '/'
  tick : 0 ≤ b.tick

/-- Whether the value of a key may change during a run. -/
def Key.varies : Key → Bool
  | .modeNumber | .modeLetter | .tick | .paddedTick | .inverted | .selected => true
  | .postRule | .postRuleName | .postTicks | .rule | .ruleName | .size | .sizeName | .seed
  | .seedName => false

section Run

variable {b b' : Bindings} {k : Key}

theorem value_eq_of_constant (h : b.constant = b'.constant) (hk : k.varies = false) :
    value b k = value b' k := by
  simp only [Bindings.constant, Constant.mk.injEq] at h
  obtain ⟨hrule, hwidth, hheight, hseed, hpost⟩ := h
  cases k with
  | modeNumber | modeLetter | tick | paddedTick | inverted | selected => cases hk
  | _ => simp only [value, hrule, hwidth, hheight, hseed, hpost]

theorem length_flag (p : Bool) (c d : Char) : (if p then [c] else [d]).length = 1 := by
  cases p <;> rfl

/-- No value gets shorter when time goes on. -/
theorem length_value_le (h : b.constant = b'.constant) (hb : b.Regular) (hb' : b'.Regular)
    (hle : b.tick ≤ b'.tick) (k : Key) : (value b k).length ≤ (value b' k).length := by
  obtain ⟨m, hm⟩ := Int.eq_ofNat_of_zero_le hb.tick
  obtain ⟨n, hn⟩ := Int.eq_ofNat_of_zero_le hb'.tick
  have hdigits : (Numeral.ofNat m).length ≤ (Numeral.ofNat n).length :=
    Numeral.length_ofNat_le (by omega)
  cases k with
  | modeNumber =>
      have hone : (Numeral.ofNat b.modeNumber).length ≤ 1 :=
        (Nat.length_toDigits_le_iff (by decide) (by decide)).mpr hb.modeNumber
      exact Nat.le_trans hone Nat.length_toDigits_pos
  | modeLetter => exact Nat.le_refl 1
  | inverted => exact Nat.le_of_eq ((length_flag _ _ _).trans (length_flag _ _ _).symm)
  | selected => exact Nat.le_of_eq ((length_flag _ _ _).trans (length_flag _ _ _).symm)
  | tick =>
      simp only [value, hm, hn, Numeral.ofInt_natCast]
      exact hdigits
  | paddedTick =>
      simp only [value, hm, hn, Numeral.length_padded]
      omega
  | _ => rw [value_eq_of_constant h rfl]

/-- A tick can be read off the text that it is written as. -/
theorem tick_eq_of_value_eq (hb : b.Regular) (hb' : b'.Regular) (hk : k = .tick ∨ k = .paddedTick)
    (heq : value b k = value b' k) : b.tick = b'.tick := by
  obtain ⟨m, hm⟩ := Int.eq_ofNat_of_zero_le hb.tick
  obtain ⟨n, hn⟩ := Int.eq_ofNat_of_zero_le hb'.tick
  have hvalue := congrArg Numeral.value heq
  have hsame : m = n := by
    rcases hk with rfl | rfl
    · simpa only [value, hm, hn, Numeral.ofInt_natCast, Numeral.value_ofNat] using hvalue
    · simpa only [value, hm, hn, Numeral.value_padded] using hvalue
  rw [hm, hn, hsame]

/-! ## Equal names -/

/-- Texts that are put together alike from parts, none of which is longer in the first, can only be
equal if all parts are. -/
theorem eq_of_flatMap_eq {α : Type} {f g : α → Text} {l : List α}
    (hle : ∀ a ∈ l, (f a).length ≤ (g a).length) (h : l.flatMap f = l.flatMap g) :
    ∀ a ∈ l, f a = g a := by
  induction l with
  | nil => exact fun a ha => absurd ha List.not_mem_nil
  | cons a rest ih =>
      have hrest : ∀ c ∈ rest, (f c).length ≤ (g c).length :=
        fun c hc => hle c (List.mem_cons_of_mem _ hc)
      have hsum : (rest.flatMap f).length ≤ (rest.flatMap g).length := by
        rw [List.length_flatMap, List.length_flatMap]
        exact List.sum_le_sum hrest
      have htotal := congrArg List.length h
      simp only [List.flatMap_cons, List.length_append] at h htotal
      have hfirst : (f a).length = (g a).length := by
        have := hle a List.mem_cons_self
        omega
      obtain ⟨ha, hflat⟩ := List.append_inj h hfirst
      intro c hc
      rcases List.mem_cons.mp hc with rfl | hc
      · exact ha
      · exact ih hrest hflat c hc

/-- A template in which the tick stands tells ticks apart. -/
theorem tick_eq_of_expand_eq {t : Text} (ht : ['%', 't'] <:+: t ∨ ['%', 'T'] <:+: t)
    (h : b.constant = b'.constant) (hb : b.Regular) (hb' : b'.Regular)
    (heq : expand t b = expand t b') : b.tick = b'.tick := by
  obtain ⟨pieces, hreads⟩ := exists_reads t
  obtain ⟨k, hk, hmem⟩ : ∃ k : Key, (k = .tick ∨ k = .paddedTick) ∧ .key k ∈ pieces := by
    rcases ht with ht | ht
    · exact ⟨.tick, .inl rfl, hreads.key_mem ht⟩
    · exact ⟨.paddedTick, .inr rfl, hreads.key_mem ht⟩
  rw [expand_of_reads hreads, expand_of_reads hreads] at heq
  -- Of the two ticks one is not greater, and no value of its name is longer.
  have hlonger : ∀ {b b' : Bindings}, b.constant = b'.constant → b.Regular → b'.Regular →
      b.tick ≤ b'.tick → ∀ p ∈ pieces, (p.value b).length ≤ (p.value b').length := by
    intro b b' h hb hb' hle p _
    cases p with
    | kept c => exact Nat.le_refl _
    | key k => exact length_value_le h hb hb' hle k
  rcases Int.le_total b.tick b'.tick with hle | hle
  · exact tick_eq_of_value_eq hb hb' hk (eq_of_flatMap_eq (hlonger h hb hb' hle) heq _ hmem)
  · exact (tick_eq_of_value_eq hb' hb hk
      (eq_of_flatMap_eq (hlonger h.symm hb' hb hle) heq.symm _ hmem)).symm

/-! ## Paths -/

/-- A text that is not empty and does not start with a slash. -/
def Unrooted (t : Text) : Prop := ∃ c rest, t = c :: rest ∧ c ≠ '/'

theorem Unrooted.append {t : Text} (h : Unrooted t) (rest : Text) :
    Path.isRooted (t ++ rest) = false := by
  obtain ⟨c, t, rfl, hc⟩ := h
  simp [Path.isRooted, hc]

theorem unrooted_of_isDigits {t : Text} (h : Numeral.IsDigits t) : Unrooted t := by
  obtain ⟨c, rest, rfl⟩ := List.exists_cons_of_ne_nil h.1
  refine ⟨c, rest, rfl, ?_⟩
  rintro rfl
  exact absurd (h.2 '/' List.mem_cons_self) (by decide)

theorem unrooted_value (hb : b.Regular) (hk : k.varies = true) : Unrooted (value b k) := by
  obtain ⟨m, hm⟩ := Int.eq_ofNat_of_zero_le hb.tick
  have hflag : ∀ (p : Bool) (c d : Char), c ≠ '/' → d ≠ '/' →
      Unrooted (if p then [c] else [d]) := by
    intro p c d hc hd
    cases p with
    | true => exact ⟨c, [], rfl, hc⟩
    | false => exact ⟨d, [], rfl, hd⟩
  cases k with
  | modeNumber => exact unrooted_of_isDigits (Numeral.isDigits_ofNat _)
  | modeLetter => exact ⟨_, [], rfl, hb.modeLetter⟩
  | inverted => exact hflag _ _ _ (by decide) (by decide)
  | selected => exact hflag _ _ _ (by decide) (by decide)
  | tick =>
      simp only [value, hm, Numeral.ofInt_natCast]
      exact unrooted_of_isDigits (Numeral.isDigits_ofNat m)
  | paddedTick =>
      simp only [value, hm]
      exact unrooted_of_isDigits (Numeral.isDigits_padded 8 m)
  | _ => cases hk

/-- Either all names of a run lead from the root or none does. -/
theorem isRooted_expand (t : Text) (h : b.constant = b'.constant) (hb : b.Regular)
    (hb' : b'.Regular) : Path.isRooted (expand t b) = Path.isRooted (expand t b') := by
  obtain ⟨pieces, hreads⟩ := exists_reads t
  rw [expand_of_reads hreads, expand_of_reads hreads]
  clear hreads
  -- The first piece with a value that is not empty decides.
  induction pieces with
  | nil => rfl
  | cons p rest ih =>
      rw [List.flatMap_cons, List.flatMap_cons]
      cases p with
      | kept c => rfl
      | key k =>
          simp only [Piece.value]
          cases hk : k.varies with
          | true => rw [(unrooted_value hb hk).append, (unrooted_value hb' hk).append]
          | false =>
              rw [value_eq_of_constant h hk]
              cases value b' k with
              | nil => exact ih
              | cons c v => rfl

end Run

end TorusAutomaton.Template

namespace TorusAutomaton.Path

/-- Names that lead to the same path below a directory are equal, if both lead from the root or
neither does. -/
theorem join_cancel {directory name name' : Text} (hroot : isRooted name = isRooted name')
    (h : join directory name = join directory name') : name = name' := by
  unfold join at h
  rw [← hroot] at h
  split at h
  · exact h
  · split at h
    · exact List.append_cancel_left h
    · exact (List.cons.inj (List.append_cancel_left h)).2

end TorusAutomaton.Path
