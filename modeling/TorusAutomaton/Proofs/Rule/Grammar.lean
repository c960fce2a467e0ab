import TorusAutomaton.Proofs.Rule.Canonical

/-!
# The grammar of rules

What a rule text is, said without reading it. A rule is a list of phrases with commas between them.
A phrase is a body, with or without a multiplier in front of it, and a body is two groups of counts
or a directive. A segment that is no phrase has a fault; which one, and what is reported of it, is
said here too, and it is shown that a segment is either a phrase or at fault.
-/

namespace TorusAutomaton.Rule

open TorusAutomaton Text Outcome

/-! ## Phrases -/

/-- Counts written as digits. -/
def digits {n : Nat} (counts : List (Fin n)) : Text := counts.map fun c => Nat.digitChar c.val

/-- Digits, perhaps after a plus sign, for a positive number of 64 bits. -/
structure Multiplier where
  plus : Bool
  digits : Text
  isDigits : Numeral.IsDigits digits
  positive : 0 < Numeral.value digits
  fits : Numeral.value digits ≤ Numeral.maxU64

def Multiplier.text (m : Multiplier) : Text := if m.plus then '+' :: m.digits else m.digits

def Multiplier.copies (m : Multiplier) : Nat := Numeral.value m.digits

/-- The text of a directive with these four digits, be its ranges empty or not. -/
def directiveText (a b c d : Fin 10) : Text :=
  [Nat.digitChar a, Nat.digitChar b, '+', Nat.digitChar c, Nat.digitChar d]

/-- Two ranges for the numbers of counts, neither of them empty. -/
structure Directive where
  aliveLow : Fin 10
  aliveHigh : Fin 10
  deadLow : Fin 10
  deadHigh : Fin 10
  alive : aliveLow < aliveHigh
  dead : deadLow < deadHigh

def Directive.text (d : Directive) : Text :=
  directiveText d.aliveLow d.aliveHigh d.deadLow d.deadHigh

inductive Body
  | counts (alive dead : List (Fin 9))
  | directive (d : Directive)

def Body.text : Body → Text
  | .counts alive dead => digits alive ++ '/' :: digits dead
  | .directive d => d.text

structure Phrase where
  multiplier : Option Multiplier
  body : Body

/-- What stands in front of the body. -/
def Phrase.opening (p : Phrase) : Text :=
  match p.multiplier with
  | some m => m.text ++ ['x']
  | none => []

def Phrase.text (p : Phrase) : Text := p.opening ++ p.body.text

def Phrase.copies (p : Phrase) : Nat :=
  match p.multiplier with
  | some m => m.copies
  | none => 1

/-! ## Faults -/

/-- What a body has against it, when it is none. With a plus sign anywhere it is meant as a
directive, and the first range is looked at before the second. Otherwise the slash matters first,
and then the digits from left to right. -/
inductive BodyFault : Text → Error → Prop
  | form {body : Text} (plus : '+' ∈ body)
      (bad : ∀ a b c d : Fin 10, body ≠ directiveText a b c d) :
      BodyFault body (.badDirective body)
  | aliveRange {a b c d : Fin 10} (bad : b ≤ a) :
      BodyFault (directiveText a b c d) (.emptyRange (directiveText a b c d) a b)
  | deadRange {a b c d : Fin 10} (alive : a < b) (bad : d ≤ c) :
      BodyFault (directiveText a b c d) (.emptyRange (directiveText a b c d) c d)
  | slash {body : Text} (plus : '+' ∉ body) (bad : body.count '/' ≠ 1) :
      BodyFault body (.missingSlash body)
  | aliveDigit {body rest dead : Text} {good : List (Fin 9)} {found : Char} (plus : '+' ∉ body)
      (slash : body.count '/' = 1) (form : body = digits good ++ found :: rest ++ '/' :: dead)
      (bad : ∀ n : Fin 9, found ≠ Nat.digitChar n) :
      BodyFault body (.badDigit body found)
  | deadDigit {body rest : Text} {alive good : List (Fin 9)} {found : Char} (plus : '+' ∉ body)
      (slash : body.count '/' = 1)
      (form : body = digits alive ++ '/' :: (digits good ++ found :: rest))
      (bad : ∀ n : Fin 9, found ≠ Nat.digitChar n) :
      BodyFault body (.badDigit body found)

/-- The body of a segment with nothing wrong in front of it. -/
inductive HasBody : Text → Text → Prop
  | bare {body : Text} (nonempty : body ≠ []) (noMultiplier : 'x' ∉ body) : HasBody body body
  | times (m : Multiplier) (body : Text) : HasBody (m.text ++ 'x' :: body) body

/-- What a segment of the text `rule` has against it, when it is no phrase. -/
inductive Fault (rule : Text) : Text → Error → Prop
  | empty : Fault rule [] (.emptySegment rule)
  | multiplier {front rest : Text} (first : 'x' ∉ front) (bad : ∀ m : Multiplier, front ≠ m.text) :
      Fault rule (front ++ 'x' :: rest) (.badMultiplier front)
  | body {segment body : Text} {e : Error} (h : HasBody segment body) (bad : BodyFault body e) :
      Fault rule segment e

/-! ## Digits -/

theorem isCount_iff {c : Char} : isCount c = true ↔ ∃ n : Fin 9, c = Nat.digitChar n := by
  have hrange : isCount c = true ↔ 48 ≤ c.toNat ∧ c.toNat ≤ 56 := by
    simp [isCount, Char.le_def, UInt32.le_iff_toNat_le]
  rw [Numeral.exists_digitChar_iff (by decide), hrange]
  omega

theorem isCount_of_mem_digits {n : Nat} (hn : n ≤ 9) {counts : List (Fin n)} {c : Char}
    (h : c ∈ digits counts) : isCount c = true := by
  obtain ⟨d, _, rfl⟩ := List.mem_map.mp h
  exact isCount_iff.mpr ⟨d.castLE hn, rfl⟩

theorem not_mem_digits {n : Nat} (hn : n ≤ 9) {counts : List (Fin n)} {c : Char}
    (hc : isCount c = false) : c ∉ digits counts :=
  fun h => Bool.noConfusion (hc.symm.trans (isCount_of_mem_digits hn h))

/-- A text is all counts, or there is a first character in it that is none. -/
theorem digits_or_bad (t : Text) :
    (∃ counts : List (Fin 9), t = digits counts) ∨
      ∃ (good : List (Fin 9)) (found : Char) (rest : Text),
        t = digits good ++ found :: rest ∧ ∀ n : Fin 9, found ≠ Nat.digitChar n := by
  induction t with
  | nil => exact .inl ⟨[], rfl⟩
  | cons c rest ih =>
      by_cases hc : ∃ n : Fin 9, c = Nat.digitChar n
      · obtain ⟨n, rfl⟩ := hc
        rcases ih with ⟨counts, rfl⟩ | ⟨good, found, after, rfl, hbad⟩
        · exact .inl ⟨n :: counts, rfl⟩
        · exact .inr ⟨n :: good, found, after, rfl, hbad⟩
      · exact .inr ⟨[], c, rest, rfl, fun n hn => hc ⟨n, hn⟩⟩

/-! ## Phrase or fault -/

theorem count_eq_one_iff {t : Text} {sep : Char} :
    t.count sep = 1 ↔ ∃ before after, t = before ++ sep :: after ∧ sep ∉ before ∧ sep ∉ after := by
  constructor
  · intro h
    have hmem : sep ∈ t := List.count_pos_iff.mp (by omega)
    obtain ⟨before, after, rfl, hbefore⟩ := List.eq_append_cons_of_mem hmem
    rw [List.count_append, List.count_cons_self, List.count_eq_zero.mpr hbefore] at h
    exact ⟨before, after, rfl, hbefore, List.count_eq_zero.mp (by omega)⟩
  · rintro ⟨before, after, rfl, hbefore, hafter⟩
    rw [List.count_append, List.count_cons_self, List.count_eq_zero.mpr hbefore,
      List.count_eq_zero.mpr hafter]

theorem body_or_fault (body : Text) : (∃ b : Body, body = b.text) ∨ ∃ e, BodyFault body e := by
  by_cases hplus : '+' ∈ body
  · by_cases hform : ∃ a b c d : Fin 10, body = directiveText a b c d
    · obtain ⟨a, b, c, d, rfl⟩ := hform
      by_cases halive : a < b
      · by_cases hdead : c < d
        · exact .inl ⟨.directive ⟨a, b, c, d, halive, hdead⟩, rfl⟩
        · exact .inr ⟨_, .deadRange halive (Fin.not_lt.mp hdead)⟩
      · exact .inr ⟨_, .aliveRange (Fin.not_lt.mp halive)⟩
    · exact .inr ⟨_, .form hplus fun a b c d h => hform ⟨a, b, c, d, h⟩⟩
  · by_cases hslash : body.count '/' = 1
    · obtain ⟨alive, dead, hbody, _, _⟩ := count_eq_one_iff.mp hslash
      rcases digits_or_bad alive with ⟨counts, rfl⟩ | ⟨good, found, rest, rfl, hbad⟩
      · rcases digits_or_bad dead with ⟨counts', rfl⟩ | ⟨good, found, rest, rfl, hbad⟩
        · exact .inl ⟨.counts counts counts', hbody⟩
        · exact .inr ⟨_, .deadDigit hplus hslash hbody hbad⟩
      · exact .inr ⟨_, .aliveDigit hplus hslash hbody hbad⟩
    · exact .inr ⟨_, .slash hplus hslash⟩

theorem Multiplier.not_mem_text (m : Multiplier) {c : Char} (hdigit : c.isDigit = false)
    (hplus : c ≠ '+') : c ∉ m.text := by
  have hc : c ∉ m.digits := fun h => Bool.noConfusion (hdigit.symm.trans (m.isDigits.2 c h))
  unfold text
  split
  · simp [hc, hplus]
  · exact hc

theorem Body.not_mem_text (b : Body) {c : Char} (hdigit : c.isDigit = false) (hplus : c ≠ '+')
    (hslash : c ≠ '/') : c ∉ b.text := by
  have hne : ∀ d : Fin 10, c ≠ Nat.digitChar d := by
    rintro d rfl
    exact Bool.noConfusion (hdigit.symm.trans (Numeral.isDigit_iff.mpr ⟨d, rfl⟩))
  cases b with
  | counts alive dead =>
      have hcounts : ∀ counts : List (Fin 9), c ∉ digits counts := by
        intro counts hmem
        obtain ⟨n, _, rfl⟩ := List.mem_map.mp hmem
        exact hne n.castSucc rfl
      simp [text, hcounts, hslash]
  | directive d => simp [text, Directive.text, directiveText, hne, hplus]

theorem Body.text_ne_nil (b : Body) : b.text ≠ [] := by
  cases b <;> simp [text, Directive.text, directiveText]

namespace Phrase

theorem comma_not_mem_text (p : Phrase) : ',' ∉ p.text := by
  have hbody : ',' ∉ p.body.text := p.body.not_mem_text rfl (by decide) (by decide)
  cases hm : p.multiplier with
  | none => simp [text, opening, hm, hbody]
  | some m => simp [text, opening, hm, hbody, m.not_mem_text (c := ',') rfl (by decide)]

theorem hasBody (p : Phrase) : HasBody p.text p.body.text := by
  cases hm : p.multiplier with
  | none =>
      simp only [text, opening, hm, List.nil_append]
      exact .bare p.body.text_ne_nil (p.body.not_mem_text rfl (by decide) (by decide))
  | some m =>
      simp only [text, opening, hm, List.append_assoc, List.cons_append, List.nil_append]
      exact .times m p.body.text

end Phrase

theorem exists_phrase_of_hasBody {segment : Text} {b : Body} (h : HasBody segment b.text) :
    ∃ p : Phrase, segment = p.text := by
  generalize hbody : b.text = body at h
  cases h with
  | bare _ _ => exact ⟨⟨none, b⟩, by simp [Phrase.text, Phrase.opening, hbody]⟩
  | times m body => exact ⟨⟨some m, b⟩, by simp [Phrase.text, Phrase.opening, hbody]⟩

/-- A segment is a phrase, or it has a fault. -/
theorem phrase_or_fault (rule segment : Text) :
    (∃ p : Phrase, segment = p.text) ∨ ∃ e, Fault rule segment e := by
  have hbodied : ∀ body, HasBody segment body →
      (∃ p : Phrase, segment = p.text) ∨ ∃ e, Fault rule segment e := by
    intro body h
    rcases body_or_fault body with ⟨b, rfl⟩ | ⟨e, he⟩
    · exact .inl (exists_phrase_of_hasBody h)
    · exact .inr ⟨e, .body h he⟩
  by_cases hx : 'x' ∈ segment
  · obtain ⟨front, rest, rfl, hfront⟩ := List.eq_append_cons_of_mem hx
    by_cases hm : ∃ m : Multiplier, front = m.text
    · obtain ⟨m, rfl⟩ := hm
      exact hbodied rest (.times m rest)
    · exact .inr ⟨_, .multiplier hfront fun m h => hm ⟨m, h⟩⟩
  · by_cases hempty : segment = []
    · subst hempty
      exact .inr ⟨_, .empty⟩
    · exact hbodied segment (.bare hempty hx)

end TorusAutomaton.Rule
