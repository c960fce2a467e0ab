import TorusAutomaton.Text.Numeral
import TorusAutomaton.Proofs.Outcome

/-!
# Reading what was written

What the readers of whole numbers accept, said without the scan: digits, at least one, whose value
does not exceed the bound, with at most one sign in front. A number that is written in digits is
therefore read back as itself wherever it is in range.
-/

namespace TorusAutomaton.Text.Numeral

/-- A text of digits alone, at least one. -/
def IsDigits (t : Text) : Prop := t ≠ [] ∧ ∀ c ∈ t, c.isDigit = true

/-- The number that a text of digits writes. -/
def value (t : Text) : Nat := Nat.ofDigitChars 10 t 0

/-! ## Digits -/

/-- The first `n` digits are the characters in one range of codes. -/
theorem exists_digitChar_iff {n : Nat} (hn : n ≤ 10) {c : Char} :
    (∃ d : Fin n, c = Nat.digitChar d) ↔ 48 ≤ c.toNat ∧ c.toNat < 48 + n := by
  constructor
  · rintro ⟨d, rfl⟩
    rw [Nat.toNat_digitChar_of_lt_ten (by omega)]
    omega
  · rintro ⟨hlow, hhigh⟩
    refine ⟨⟨c.toNat - 48, by omega⟩, Char.toNat_inj.mp ?_⟩
    rw [Nat.toNat_digitChar_of_lt_ten (by omega)]
    exact (Nat.add_sub_of_le hlow).symm

theorem isDigit_iff {c : Char} : c.isDigit = true ↔ ∃ d : Fin 10, c = Nat.digitChar d := by
  have hzero : '0'.toNat = 48 := rfl
  have hnine : '9'.toNat = 57 := rfl
  rw [exists_digitChar_iff (Nat.le_refl 10), Char.isDigit_iff_toNat]
  omega

theorem digitChar_injective {a b : Nat} (ha : a < 10) (hb : b < 10)
    (h : Nat.digitChar a = Nat.digitChar b) : a = b := by
  have hcodes := congrArg Char.toNat h
  rw [Nat.toNat_digitChar_of_lt_ten ha, Nat.toNat_digitChar_of_lt_ten hb] at hcodes
  omega

@[simp] theorem digitValue_digitChar (d : Fin 10) : digitValue (Nat.digitChar d) = d :=
  Nat.toNat_digitChar_sub_48_of_lt_ten d.isLt

/-! ## The scan -/

theorem le_ofDigitChars (t : Text) (v : Nat) : v ≤ Nat.ofDigitChars 10 t v := by
  induction t generalizing v with
  | nil => simp
  | cons c rest ih =>
      rw [Nat.ofDigitChars_cons]
      exact Nat.le_trans (by omega) (ih _)

/-- Values only grow during a scan, so the bound on the way is a bound on the result. -/
theorem scan_eq_ok_iff {bound v n : Nat} {t : Text} (hv : v ≤ bound) :
    scan bound v t = .ok n ↔
      (∀ c ∈ t, c.isDigit = true) ∧ Nat.ofDigitChars 10 t v = n ∧ n ≤ bound := by
  induction t generalizing v with
  | nil =>
      simp only [scan, Except.ok.injEq, List.not_mem_nil, false_implies, implies_true, true_and,
        Nat.ofDigitChars_nil]
      constructor
      · rintro rfl
        exact ⟨rfl, hv⟩
      · exact fun h => h.1
  | cons c rest ih =>
      rw [Nat.ofDigitChars_cons]
      change _ ↔ _ ∧ Nat.ofDigitChars 10 rest (10 * v + digitValue c) = n ∧ _
      by_cases hc : c.isDigit = true
      · by_cases hle : 10 * v + digitValue c ≤ bound
        · simp [scan, hc, hle, ih hle]
        · -- The scan stops here; the value that it would have come to is not below this one.
          have hgrow := le_ofDigitChars rest (10 * v + digitValue c)
          simp only [scan, hc, if_true, if_neg hle, reduceCtorEq, false_iff]
          rintro ⟨_, rfl, hn⟩
          omega
      · simp [scan, hc]

theorem readDigits_eq_ok_iff {bound n : Nat} {t : Text} :
    readDigits bound t = .ok n ↔ IsDigits t ∧ value t = n ∧ n ≤ bound := by
  cases t with
  | nil => simp [readDigits, IsDigits]
  | cons c rest => simp [readDigits, IsDigits, value, scan_eq_ok_iff (Nat.zero_le bound)]

/-! ## Numbers without a minus sign -/

theorem not_isDigits_sign {c : Char} (hc : c.isDigit = false) (t : Text) : ¬ IsDigits (c :: t) := by
  rintro ⟨_, hall⟩
  simp [hc] at hall

/-- A number is read from digits, with at most a plus sign in front. -/
theorem readNat_eq_ok_iff {bound n : Nat} {t : Text} :
    readNat bound t = .ok n ↔
      ∃ digits, (t = digits ∨ t = '+' :: digits) ∧ IsDigits digits ∧ value digits = n ∧
        n ≤ bound := by
  constructor
  · intro h
    unfold readNat at h
    split at h
    · cases h
    · exact ⟨_, .inr rfl, readDigits_eq_ok_iff.mp h⟩
    · exact ⟨_, .inl rfl, readDigits_eq_ok_iff.mp h⟩
  · rintro ⟨digits, rfl | rfl, hdigits⟩
    · unfold readNat
      split
      · exact absurd rfl hdigits.1.1
      · exact absurd hdigits.1 (not_isDigits_sign rfl _)
      · exact readDigits_eq_ok_iff.mpr hdigits
    · exact readDigits_eq_ok_iff.mpr hdigits

theorem readNat_chars {bound n : Nat} {t : Text} (h : readNat bound t = .ok n) :
    ∀ c ∈ t, c.isDigit = true ∨ c = '+' := by
  obtain ⟨digits, rfl | rfl, hdigits, _⟩ := readNat_eq_ok_iff.mp h
  · exact fun c hc => .inl (hdigits.2 c hc)
  · intro c hc
    rcases List.mem_cons.mp hc with rfl | hc
    · exact .inr rfl
    · exact .inl (hdigits.2 c hc)

theorem readNat_le {bound n : Nat} {t : Text} (h : readNat bound t = .ok n) : n ≤ bound := by
  obtain ⟨_, _, _, _, hn⟩ := readNat_eq_ok_iff.mp h
  exact hn

/-! ## Numbers with either sign -/

/-- A text that writes a whole number: digits, with at most one sign in front. -/
inductive Writes : Text → Int → Prop
  | unsigned {digits : Text} (h : IsDigits digits) : Writes digits (value digits)
  | plus {digits : Text} (h : IsDigits digits) : Writes ('+' :: digits) (value digits)
  | minus {digits : Text} (h : IsDigits digits) : Writes ('-' :: digits) (-(value digits : Int))

theorem Writes.chars {t : Text} {i : Int} (h : Writes t i) :
    ∀ c ∈ t, c.isDigit = true ∨ c = '+' ∨ c = '-' := by
  intro c hc
  cases h with
  | unsigned hdigits => exact .inl (hdigits.2 c hc)
  | plus hdigits =>
      rcases List.mem_cons.mp hc with rfl | hc
      · exact .inr (.inl rfl)
      · exact .inl (hdigits.2 c hc)
  | minus hdigits =>
      rcases List.mem_cons.mp hc with rfl | hc
      · exact .inr (.inr rfl)
      · exact .inl (hdigits.2 c hc)

theorem readUnsigned_eq_ok_iff {bound : Nat} {i : Int} {t : Text} :
    (readDigits bound t).map Int.ofNat = .ok i ↔
      IsDigits t ∧ (value t : Int) = i ∧ i ≤ bound := by
  rw [Outcome.map_eq_ok_iff]
  constructor
  · rintro ⟨n, hn, rfl⟩
    obtain ⟨hdigits, rfl, hle⟩ := readDigits_eq_ok_iff.mp hn
    exact ⟨hdigits, rfl, Int.ofNat_le.mpr hle⟩
  · rintro ⟨hdigits, rfl, hle⟩
    exact ⟨value t, readDigits_eq_ok_iff.mpr ⟨hdigits, rfl, Int.ofNat_le.mp hle⟩, rfl⟩

theorem readInt_minus_eq_ok_iff {bound : Nat} {i : Int} {t : Text} :
    readInt bound ('-' :: t) = .ok i ↔
      IsDigits t ∧ -(value t : Int) = i ∧ -((bound : Int) + 1) ≤ i := by
  simp only [readInt]
  constructor
  · intro h
    split at h
    · rename_i n hn
      obtain ⟨hdigits, rfl, hle⟩ := readDigits_eq_ok_iff.mp hn
      cases h
      exact ⟨hdigits, rfl, by omega⟩
    · cases h
    · cases h
  · rintro ⟨hdigits, rfl, hle⟩
    have hread : readDigits (bound + 1) t = .ok (value t) :=
      readDigits_eq_ok_iff.mpr ⟨hdigits, rfl, by omega⟩
    simp only [hread]

/-- A number is read from digits with at most one sign in front, if it is in range. -/
theorem readInt_eq_ok_iff {bound : Nat} {i : Int} {t : Text} :
    readInt bound t = .ok i ↔ Writes t i ∧ -((bound : Int) + 1) ≤ i ∧ i ≤ bound := by
  constructor
  · intro h
    unfold readInt at h
    split at h
    · cases h
    · obtain ⟨hdigits, rfl, hlow⟩ := readInt_minus_eq_ok_iff.mp h
      exact ⟨.minus hdigits, hlow, by omega⟩
    · obtain ⟨hdigits, rfl, hhigh⟩ := readUnsigned_eq_ok_iff.mp h
      exact ⟨.plus hdigits, by omega, hhigh⟩
    · obtain ⟨hdigits, rfl, hhigh⟩ := readUnsigned_eq_ok_iff.mp h
      exact ⟨.unsigned hdigits, by omega, hhigh⟩
  · rintro ⟨hwrites, hlow, hhigh⟩
    cases hwrites with
    | unsigned hdigits =>
        unfold readInt
        split
        · exact absurd rfl hdigits.1
        · exact absurd hdigits (not_isDigits_sign rfl _)
        · exact absurd hdigits (not_isDigits_sign rfl _)
        · exact readUnsigned_eq_ok_iff.mpr ⟨hdigits, rfl, hhigh⟩
    | plus hdigits => exact readUnsigned_eq_ok_iff.mpr ⟨hdigits, rfl, hhigh⟩
    | minus hdigits => exact readInt_minus_eq_ok_iff.mpr ⟨hdigits, rfl, hlow⟩

theorem readInt_range {bound : Nat} {i : Int} {t : Text} (h : readInt bound t = .ok i) :
    -((bound : Int) + 1) ≤ i ∧ i ≤ bound :=
  (readInt_eq_ok_iff.mp h).2

/-! ## Written numbers -/

theorem isDigits_ofNat (n : Nat) : IsDigits (ofNat n) :=
  ⟨Nat.toDigits_ne_nil, fun _ hc => Nat.isDigit_of_mem_toDigits (by decide) (by decide) hc⟩

@[simp] theorem value_ofNat (n : Nat) : value (ofNat n) = n := Nat.ofDigitChars_ten_toDigits

theorem readDigits_ofNat {bound n : Nat} (h : n ≤ bound) : readDigits bound (ofNat n) = .ok n :=
  readDigits_eq_ok_iff.mpr ⟨isDigits_ofNat n, value_ofNat n, h⟩

theorem readNat_ofNat {bound n : Nat} (h : n ≤ bound) : readNat bound (ofNat n) = .ok n :=
  readNat_eq_ok_iff.mpr ⟨ofNat n, .inl rfl, isDigits_ofNat n, value_ofNat n, h⟩

/-- A written number does not start with a sign. -/
theorem ofNat_ne_sign_cons {c : Char} (hc : c.isDigit = false) (n : Nat) (t : Text) :
    ofNat n ≠ c :: t :=
  fun h => not_isDigits_sign hc t (h ▸ isDigits_ofNat n)

theorem readInt_ofNat {bound n : Nat} (h : n ≤ bound) :
    readInt bound (ofNat n) = .ok (n : Int) := by
  unfold readInt
  split
  · exact absurd ‹_› (isDigits_ofNat n).1
  · exact absurd ‹_› (ofNat_ne_sign_cons rfl n _)
  · exact absurd ‹_› (ofNat_ne_sign_cons rfl n _)
  · rw [readDigits_ofNat h]
    rfl

theorem readInt_ofInt {bound : Nat} {i : Int} (hlow : -((bound : Int) + 1) ≤ i)
    (hhigh : i ≤ bound) : readInt bound (ofInt i) = .ok i := by
  unfold ofInt
  split
  · have habs : i.natAbs ≤ bound + 1 := by omega
    simp only [readInt, readDigits_ofNat habs, Except.ok.injEq]
    omega
  · rw [readInt_ofNat (by omega)]
    simp only [Except.ok.injEq]
    omega

/-! ## Lengths of written numbers -/

/-- A number is written in no fewer digits than a smaller one. -/
theorem length_ofNat_le {m n : Nat} (h : m ≤ n) : (ofNat m).length ≤ (ofNat n).length := by
  have hlength : ∀ k, (ofNat k).length ≤ (ofNat n).length ↔ k < 10 ^ (ofNat n).length :=
    fun k => Nat.length_toDigits_le_iff (by decide) Nat.length_toDigits_pos
  have hn := (hlength n).mp (Nat.le_refl _)
  exact (hlength m).mpr (Nat.lt_of_le_of_lt h hn)

theorem ofInt_natCast (n : Nat) : ofInt n = ofNat n :=
  if_neg (Int.not_lt.mpr (Int.natCast_nonneg n))

theorem padded_natCast (width n : Nat) :
    padded width n = List.replicate (width - (ofNat n).length) '0' ++ ofNat n := by
  unfold padded
  rw [if_neg (Int.not_lt.mpr (Int.natCast_nonneg n))]
  rfl

theorem isDigits_padded (width n : Nat) : IsDigits (padded width n) := by
  have hdigits := isDigits_ofNat n
  rw [padded_natCast]
  refine ⟨List.append_ne_nil_of_right_ne_nil _ hdigits.1, ?_⟩
  intro c hc
  rcases List.mem_append.mp hc with hc | hc
  · rw [List.eq_of_mem_replicate hc]
    rfl
  · exact hdigits.2 c hc

/-- Zeros in front do not count. -/
@[simp] theorem value_padded (width n : Nat) : value (padded width n) = n := by
  rw [padded_natCast, value, Nat.ofDigitChars_append, Nat.ofDigitChars_replicate_zero, Nat.mul_zero]
  exact value_ofNat n

theorem length_padded (width n : Nat) :
    (padded width n).length = max width (ofNat n).length := by
  rw [padded_natCast, List.length_append, List.length_replicate]
  omega

end TorusAutomaton.Text.Numeral
