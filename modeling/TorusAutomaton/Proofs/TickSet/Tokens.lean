import Mathlib.Data.List.Forall2
import TorusAutomaton.Proofs.Text.Numerals
import TorusAutomaton.Proofs.TickSet.Members
import TorusAutomaton.TickSet.Parser

/-!
# What tick expressions mean

A token is a list of numbers between colons: one is a tick, two are a range, and a third is the step
of a range. A negative number, a step included, stands for what it comes to when counted back from
the last tick. Here faults and meanings of tokens are said by their numbers, and reading is shown to
report the one of the first token at fault, or else to give the set of all that some token selects.
-/

namespace TorusAutomaton.TickSet

open TorusAutomaton Text Outcome

/-! ## Meanings and faults -/

/-- A part of a token that is a number of 64 bits with a sign, perhaps with blanks around it. -/
inductive IsNumber : Text → Int → Prop
  | padded {before numeral after : Text} {v : Int} (blankBefore : ∀ c ∈ before, isBlank c = true)
      (writes : Numeral.Writes numeral v) (blankAfter : ∀ c ∈ after, isBlank c = true)
      (low : -((Numeral.maxI64 : Int) + 1) ≤ v) (high : v ≤ Numeral.maxI64) :
      IsNumber (before ++ numeral ++ after) v

/-- A token whose parts are these numbers. -/
def HasNumbers (token : Text) (values : List Int) : Prop :=
  List.Forall₂ IsNumber (token.splitOn ':') values

/-- What a number stands for in a run with a last tick. -/
def place (max : Option Nat) (v : Int) : Int :=
  match max with
  | some last => if v < 0 then v % ((last : Int) + 1) else v
  | none => v

/-- Numbers can be counted if none of them is negative, or back from a last tick above zero. -/
def Countable (max : Option Nat) (values : List Int) : Prop :=
  (∃ last ∈ max, 0 < last) ∨ ∀ v ∈ values, 0 ≤ v

/-- What is wrong with a token: a part that is no number matters first, then a negative number that
nothing counts back from, then how many there are, and then a step that comes to zero. -/
inductive Fault (max : Option Nat) (token : Text) : Error → Prop
  | notNumber {part : Text} (mem : part ∈ token.splitOn ':') (bad : ∀ v, ¬ IsNumber part v) :
      Fault max token (.malformed token)
  | unbounded {before after : List Int} {v : Int}
      (numbers : HasNumbers token (before ++ v :: after))
      (noMax : ∀ last ∈ max, last = 0) (first : ∀ u ∈ before, 0 ≤ u) (negative : v < 0) :
      Fault max token (.unboundedNegative v)
  | shape {values : List Int} (numbers : HasNumbers token values) (countable : Countable max values)
      (bad : ¬ (1 ≤ values.length ∧ values.length ≤ 3)) : Fault max token (.malformed token)
  | step {first last step : Int} (numbers : HasNumbers token [first, last, step])
      (countable : Countable max [first, last, step]) (bad : place max step = 0) :
      Fault max token (.badStep token)

/-- What numbers select: one is a tick, two are the ends of a range, and a third is its step. -/
def Within : List Int → Int → Prop
  | [v], tick => tick = v
  | [first, last], tick => first ≤ tick ∧ tick ≤ last
  | [first, last, step], tick => first ≤ tick ∧ tick ≤ last ∧ step ∣ tick - first
  | _, _ => False

/-- A token selects what its numbers select, once those below zero have been counted back. -/
def Selects (max : Option Nat) (token : Text) (tick : Int) : Prop :=
  ∃ values, HasNumbers token values ∧ Within (values.map (place max)) tick

/-- A set with exactly these ticks, listed in ascending order. -/
structure Denotes (ts : TickSet) (ticks : Set Int) : Prop where
  contains : ∀ tick : Int, ts.contains tick = true ↔ tick ∈ ticks
  finite : ticks.Finite
  size : ts.size = ticks.ncard
  listed : ∀ n : Nat, n ∈ ts.toList ↔ (n : Int) ∈ ticks
  ascending : ts.toList.Pairwise (· < ·)

/-! ## Numbers -/

theorem isBlank_of_sign {c : Char} (h : c.isDigit = true ∨ c = '+' ∨ c = '-') :
    isBlank c = false := by
  rcases h with h | rfl | rfl
  · obtain ⟨d, rfl⟩ := Numeral.isDigit_iff.mp h
    revert d
    decide
  · decide
  · decide

theorem readPart_eq_ok_iff {token part : Text} {v : Int} :
    readPart token part = .ok v ↔ IsNumber part v := by
  constructor
  · intro h
    unfold readPart at h
    split at h
    · rename_i hread
      cases h
      obtain ⟨hwrites, hlow, hhigh⟩ := Numeral.readInt_eq_ok_iff.mp hread
      obtain ⟨before, after, hpart, hbefore, hafter⟩ := exists_trim part
      rw [hpart]
      exact .padded hbefore hwrites hafter hlow hhigh
    · cases h
  · rintro ⟨hbefore, hwrites, hafter, hlow, hhigh⟩
    have hcore := trim_append hbefore (fun c hc => isBlank_of_sign (hwrites.chars c hc)) hafter
    simp only [readPart, hcore, Numeral.readInt_eq_ok_iff.mpr ⟨hwrites, hlow, hhigh⟩]

theorem readPart_eq_error {token part : Text} {e : Error} (h : readPart token part = .error e) :
    e = .malformed token ∧ ∀ v, ¬ IsNumber part v := by
  constructor
  · unfold readPart at h
    split at h <;> cases h
    rfl
  · intro v hv
    cases h.symm.trans (readPart_eq_ok_iff.mpr hv)

theorem readParts_eq_ok_iff {token : Text} {values : List Int} :
    (token.splitOn ':').mapM (readPart token) = .ok values ↔ HasNumbers token values := by
  rw [mapM_eq_ok_iff, ← List.forall₂_eq_eq_eq, List.forall₂_map_left_iff,
    List.forall₂_map_right_iff, HasNumbers]
  simp only [readPart_eq_ok_iff]

theorem readParts_eq_error_iff {token : Text} {e : Error} :
    (token.splitOn ':').mapM (readPart token) = .error e ↔
      e = .malformed token ∧ ∃ part ∈ token.splitOn ':', ∀ v, ¬ IsNumber part v := by
  constructor
  · intro h
    obtain ⟨before, bad, after, hsplit, _, hbad⟩ := mapM_eq_error_iff.mp h
    obtain ⟨he, hnumber⟩ := readPart_eq_error hbad
    exact ⟨he, bad, by simp [hsplit], hnumber⟩
  · rintro ⟨rfl, part, hmem, hbad⟩
    cases hread : (token.splitOn ':').mapM (readPart token) with
    | error e =>
        obtain ⟨before, bad, after, _, _, hfault⟩ := mapM_eq_error_iff.mp hread
        rw [(readPart_eq_error hfault).1]
    | ok values =>
        have hresult : readPart token part ∈ values.map Except.ok :=
          mapM_eq_ok_iff.mp hread ▸ List.mem_map_of_mem hmem
        obtain ⟨v, _, hv⟩ := List.mem_map.mp hresult
        exact absurd (readPart_eq_ok_iff.mp hv.symm) (hbad v)

theorem HasNumbers.unique {token : Text} {values values' : List Int} (h : HasNumbers token values)
    (h' : HasNumbers token values') : values = values' :=
  Except.ok.inj ((readParts_eq_ok_iff.mpr h).symm.trans (readParts_eq_ok_iff.mpr h'))

/-! ## Counting back -/

section Counting

variable {max : Option Nat} {n : Option Nat}

theorem cycle_maxTooLarge {last : Nat} (h : Numeral.maxI64 ≤ last) :
    cycle (some last) = .error (.maxTooLarge last) := by
  have hpositive : last ≠ 0 := by
    rintro rfl
    exact absurd h (by decide)
  simp only [cycle, if_neg hpositive, if_neg (Nat.not_lt.mpr h)]

theorem exists_cycle (h : ∀ last ∈ max, last < Numeral.maxI64) : ∃ n, cycle max = .ok n := by
  cases max with
  | none => exact ⟨none, rfl⟩
  | some last =>
      by_cases hzero : last = 0
      · exact ⟨none, by simp only [cycle, if_pos hzero]⟩
      · exact ⟨some (last + 1), by simp only [cycle, if_neg hzero, if_pos (h last rfl)]⟩

theorem cycle_of_positive {last : Nat} (hcycle : cycle (some last) = .ok n) (h : 0 < last) :
    n = some (last + 1) := by
  simp only [cycle, if_neg (Nat.ne_of_gt h)] at hcycle
  split at hcycle
  · exact (Except.ok.inj hcycle).symm
  · cases hcycle

theorem cycle_of_zero (hcycle : cycle max = .ok n) (h : ∀ last ∈ max, last = 0) : n = none := by
  cases max with
  | none => exact (Except.ok.inj hcycle).symm
  | some last =>
      simp only [cycle, if_pos (h last rfl)] at hcycle
      exact (Except.ok.inj hcycle).symm

theorem place_of_nonneg {v : Int} (h : 0 ≤ v) : place max v = v := by
  unfold place
  split
  · exact if_neg (Int.not_lt.mpr h)
  · rfl

/-- A number that can be counted is counted, and stands for a tick that is not before zero. -/
theorem countBack_countable (hcycle : cycle max = .ok n) {v : Int}
    (h : (∃ last ∈ max, 0 < last) ∨ 0 ≤ v) :
    countBack n v = .ok (place max v).toNat ∧ 0 ≤ place max v := by
  by_cases hv : 0 ≤ v
  · rw [place_of_nonneg hv]
    exact ⟨if_pos hv, hv⟩
  · obtain ⟨last, rfl, hlast⟩ := h.resolve_right hv
    obtain rfl := cycle_of_positive hcycle hlast
    have hplace : place (some last) v = v % ((last : Int) + 1) := if_pos (Int.not_le.mp hv)
    rw [hplace]
    exact ⟨if_neg hv, Int.emod_nonneg v (by omega)⟩

theorem countBack_unbounded (hcycle : cycle max = .ok n) (hmax : ∀ last ∈ max, last = 0) {v : Int}
    (hv : v < 0) : countBack n v = .error (.unboundedNegative v) := by
  obtain rfl := cycle_of_zero hcycle hmax
  exact if_neg (Int.not_le.mpr hv)

theorem Countable.of_mem {values : List Int} (h : Countable max values) {v : Int}
    (hv : v ∈ values) : (∃ last ∈ max, 0 < last) ∨ 0 ≤ v :=
  h.imp_right fun hall => hall v hv

theorem mapM_countBack (hcycle : cycle max = .ok n) {values : List Int}
    (h : Countable max values) :
    values.mapM (countBack n) = .ok (values.map fun v => (place max v).toNat) := by
  rw [mapM_eq_ok_iff, List.map_map]
  exact List.map_congr_left fun v hv => (countBack_countable hcycle (h.of_mem hv)).1

theorem countable_or_unbounded (max : Option Nat) (values : List Int) :
    Countable max values ∨ (∀ last ∈ max, last = 0) ∧ ∃ before v after,
      values = before ++ v :: after ∧ (∀ u ∈ before, 0 ≤ u) ∧ v < 0 := by
  by_cases hmax : ∃ last ∈ max, 0 < last
  · exact .inl (.inl hmax)
  · have hzero : ∀ last ∈ max, last = 0 :=
      fun last hlast => Nat.eq_zero_of_not_pos fun hpos => hmax ⟨last, hlast, hpos⟩
    cases hfind : values.find? (· < 0) with
    | none =>
        refine .inl (.inr fun v hv => ?_)
        simpa using List.find?_eq_none.mp hfind v hv
    | some v =>
        obtain ⟨hv, before, after, hvalues, hbefore⟩ := List.find?_eq_some_iff_append.mp hfind
        refine .inr ⟨hzero, before, v, after, hvalues, ?_, by simpa using hv⟩
        intro u hu
        simpa using hbefore u hu

/-! ## Tokens -/

theorem readToken_of_numbers (hcycle : cycle max = .ok n) {token : Text} {values : List Int}
    (hnumbers : HasNumbers token values) (hcountable : Countable max values) :
    readToken n token =
      match values.map fun v => (place max v).toNat with
      | [tick] => .ok { first := tick, last := tick, step := 1 }
      | [first, last] => .ok { first, last, step := 1 }
      | [first, last, step] =>
        if step = 0 then .error (.badStep token) else .ok { first, last, step }
      | _ => .error (.malformed token) := by
  simp only [readToken, readParts_eq_ok_iff.mpr hnumbers, mapM_countBack hcycle hcountable, ok_bind]
  rcases values with _ | ⟨a, _ | ⟨b, _ | ⟨c, _ | ⟨d, rest⟩⟩⟩⟩
  · rfl
  · rfl
  · rfl
  · simp only [List.map_cons, List.map_nil]
    split <;> rfl
  · rfl

theorem Fault.read (hcycle : cycle max = .ok n) {token : Text} {e : Error}
    (h : Fault max token e) : readToken n token = .error e := by
  cases h with
  | notNumber hmem hbad =>
      have hread := readParts_eq_error_iff.mpr ⟨rfl, _, hmem, hbad⟩
      simp only [readToken, hread, error_bind]
  | @unbounded before after v hnumbers hmax hbefore hv =>
      have hcount : (before ++ v :: after).mapM (countBack n) = .error (.unboundedNegative v) := by
        refine mapM_eq_error_iff.mpr ⟨before, v, after, rfl, ?_, countBack_unbounded hcycle hmax hv⟩
        exact fun u hu => ⟨_, (countBack_countable hcycle (.inr (hbefore u hu))).1⟩
      simp only [readToken, readParts_eq_ok_iff.mpr hnumbers, hcount, ok_bind, error_bind]
  | @shape values hnumbers hcountable hbad =>
      rw [readToken_of_numbers hcycle hnumbers hcountable]
      rcases values with _ | ⟨a, _ | ⟨b, _ | ⟨c, _ | ⟨d, rest⟩⟩⟩⟩
      · rfl
      · simp at hbad
      · simp at hbad
      · simp at hbad
      · rfl
  | step hnumbers hcountable hbad =>
      rw [readToken_of_numbers hcycle hnumbers hcountable]
      simp only [List.map_cons, List.map_nil, hbad, Int.toNat_zero, if_true]

theorem selects_iff {token : Text} {values : List Int} (h : HasNumbers token values) {tick : Int} :
    Selects max token tick ↔ Within (values.map (place max)) tick := by
  constructor
  · rintro ⟨values', hnumbers, hwithin⟩
    exact hnumbers.unique h ▸ hwithin
  · exact fun hwithin => ⟨values, h, hwithin⟩

/-- A token is at fault, or it is read as a span of all the ticks that it selects. -/
theorem read_or_fault (hcycle : cycle max = .ok n) (token : Text) :
    (∃ span, readToken n token = .ok span ∧
      ∀ t : Nat, span.covers t = true ↔ Selects max token t) ∨ ∃ e, Fault max token e := by
  cases hread : (token.splitOn ':').mapM (readPart token) with
  | error e =>
      obtain ⟨_, part, hmem, hbad⟩ := readParts_eq_error_iff.mp hread
      exact .inr ⟨_, .notNumber hmem hbad⟩
  | ok values =>
      have hnumbers := readParts_eq_ok_iff.mp hread
      rcases countable_or_unbounded max values with hcountable | ⟨hmax, before, v, after, rfl,
        hbefore, hv⟩
      · have htoken := readToken_of_numbers hcycle hnumbers hcountable
        have hplace : ∀ v ∈ values, ((place max v).toNat : Int) = place max v :=
          fun v hv => Int.toNat_of_nonneg (countBack_countable hcycle (hcountable.of_mem hv)).2
        rcases values with _ | ⟨a, _ | ⟨b, _ | ⟨c, _ | ⟨d, rest⟩⟩⟩⟩
        · exact .inr ⟨_, .shape hnumbers hcountable (by simp)⟩
        · refine .inl ⟨_, htoken, fun t => ?_⟩
          rw [Span.covers_iff_int, hplace a (by simp), Nat.cast_one, selects_iff hnumbers]
          simp only [one_dvd, and_true, List.map_cons, List.map_nil, Within]
          omega
        · refine .inl ⟨_, htoken, fun t => ?_⟩
          rw [Span.covers_iff_int, hplace a (by simp), hplace b (by simp), Nat.cast_one,
            selects_iff hnumbers]
          simp only [one_dvd, and_true, List.map_cons, List.map_nil, Within]
        · by_cases hstep : place max c = 0
          · exact .inr ⟨_, .step hnumbers hcountable hstep⟩
          · have hpositive : (place max c).toNat ≠ 0 := by
              intro h
              exact hstep ((hplace c (by simp)).symm.trans (congrArg Nat.cast h))
            refine .inl ⟨_, htoken.trans (if_neg hpositive), fun t => ?_⟩
            rw [Span.covers_iff_int, hplace a (by simp), hplace b (by simp), hplace c (by simp),
              selects_iff hnumbers]
            rfl
        · exact .inr ⟨_, .shape hnumbers hcountable (by simp)⟩
      · exact .inr ⟨_, .unbounded hnumbers hmax hbefore hv⟩

theorem readToken_eq_error_iff (hcycle : cycle max = .ok n) {token : Text} {e : Error} :
    readToken n token = .error e ↔ Fault max token e := by
  constructor
  · intro h
    rcases read_or_fault hcycle token with ⟨span, hread, _⟩ | ⟨e', hfault⟩
    · cases h.symm.trans hread
    · cases h.symm.trans (hfault.read hcycle)
      exact hfault
  · exact Fault.read hcycle

theorem exists_readToken_iff (hcycle : cycle max = .ok n) {token : Text} :
    (∃ span, readToken n token = .ok span) ↔ ∀ e, ¬ Fault max token e := by
  constructor
  · rintro ⟨span, hread⟩ e hfault
    cases hread.symm.trans (hfault.read hcycle)
  · intro hsound
    rcases read_or_fault hcycle token with ⟨span, hread, _⟩ | ⟨e, hfault⟩
    · exact ⟨span, hread⟩
    · exact absurd hfault (hsound e)

theorem covers_iff_selects (hcycle : cycle max = .ok n) {token : Text} {span : Span}
    (h : readToken n token = .ok span) (t : Nat) :
    span.covers t = true ↔ Selects max token t := by
  rcases read_or_fault hcycle token with ⟨span', hread, hcovers⟩ | ⟨e, hfault⟩
  · cases h.symm.trans hread
    exact hcovers t
  · cases h.symm.trans (hfault.read hcycle)

/-! ## Expressions -/

theorem parse_eq_error_iff (hcycle : cycle max = .ok n) {t : Text} {e : Error} :
    parse t max = .error e ↔ (t.splitOn ',').mapM (readToken n) = .error e := by
  rw [parse, hcycle, ok_bind, bind_eq_error_iff]
  simp

theorem parse_eq_ok_iff (hcycle : cycle max = .ok n) {t : Text} {ts : TickSet} :
    parse t max = .ok ts ↔ (t.splitOn ',').map (readToken n) = ts.spans.map .ok := by
  rw [parse, hcycle, ok_bind, bind_eq_ok_iff]
  constructor
  · rintro ⟨spans, hspans, hts⟩
    cases hts
    exact mapM_eq_ok_iff.mp hspans
  · exact fun h => ⟨ts.spans, mapM_eq_ok_iff.mpr h, rfl⟩

theorem contains_parse_iff (hcycle : cycle max = .ok n) {t : Text} {ts : TickSet}
    (h : parse t max = .ok ts) (tick : Nat) :
    ts.contains tick = true ↔ ∃ token ∈ t.splitOn ',', Selects max token tick := by
  have hread := (parse_eq_ok_iff hcycle).mp h
  rw [contains_natCast]
  constructor
  · rintro ⟨span, hmem, hcovers⟩
    have hresult : .ok span ∈ (t.splitOn ',').map (readToken n) := hread ▸ List.mem_map_of_mem hmem
    obtain ⟨token, htoken, hspan⟩ := List.mem_map.mp hresult
    exact ⟨token, htoken, (covers_iff_selects hcycle hspan tick).mp hcovers⟩
  · rintro ⟨token, htoken, hselects⟩
    have hresult : readToken n token ∈ ts.spans.map .ok := hread ▸ List.mem_map_of_mem htoken
    obtain ⟨span, hmem, hspan⟩ := List.mem_map.mp hresult
    exact ⟨span, hmem, (covers_iff_selects hcycle hspan.symm tick).mpr hselects⟩

end Counting

/-- A set is given by its members, since the listing and the size follow them. -/
theorem Denotes.of_contains {ts : TickSet} {ticks : Set Int}
    (h : ∀ tick : Int, ts.contains tick = true ↔ tick ∈ ticks) : ts.Denotes ticks := by
  have hticks : ticks = {tick : Int | ts.contains tick = true} := (Set.ext h).symm
  refine ⟨h, ?_, ?_, ?_, pairwise_toList ts⟩
  · rw [hticks]
    exact finite_contains ts
  · rw [hticks]
    exact (ncard_contains ts).symm
  · exact fun n => mem_toList.trans (h n)

/-- A last tick out of range to count back from is refused before any token is read. Otherwise the
fault of the first token that has one is reported. If none has, then the set that is read is that of
the ticks from zero on that some token selects: they are what membership, the size and the ascending
listing are about. -/
theorem parse_denotes (t : Text) (max : Option Nat) :
    (∀ last ∈ max, Numeral.maxI64 ≤ last → parse t max = .error (.maxTooLarge last)) ∧
    ((∀ last ∈ max, last < Numeral.maxI64) →
      (∀ e, parse t max = .error e ↔ ∃ before bad after, t.splitOn ',' = before ++ bad :: after ∧
        (∀ token ∈ before, ∀ e', ¬ Fault max token e') ∧ Fault max bad e) ∧
      ((∀ token ∈ t.splitOn ',', ∀ e, ¬ Fault max token e) → ∃ ts, parse t max = .ok ts ∧
        ts.Denotes {tick | 0 ≤ tick ∧ ∃ token ∈ t.splitOn ',', Selects max token tick})) := by
  refine ⟨?_, fun hmax => ?_⟩
  · rintro last rfl hlarge
    rw [parse, cycle_maxTooLarge hlarge, error_bind]
  · obtain ⟨n, hcycle⟩ := exists_cycle hmax
    have herrors : ∀ e, parse t max = .error e ↔ ∃ before bad after,
        t.splitOn ',' = before ++ bad :: after ∧
          (∀ token ∈ before, ∀ e', ¬ Fault max token e') ∧ Fault max bad e := by
      intro e
      rw [parse_eq_error_iff hcycle, mapM_eq_error_iff]
      simp only [exists_readToken_iff hcycle, readToken_eq_error_iff hcycle]
    refine ⟨herrors, fun hsound => ?_⟩
    cases hparse : parse t max with
    | error e =>
        obtain ⟨before, bad, after, hsplit, _, hfault⟩ := (herrors e).mp hparse
        exact absurd hfault (hsound bad (by simp [hsplit]) e)
    | ok ts =>
        refine ⟨ts, rfl, .of_contains fun tick => ?_⟩
        constructor
        · intro htick
          obtain ⟨m, rfl⟩ := Int.eq_ofNat_of_zero_le (nonneg_of_contains htick)
          exact ⟨Int.natCast_nonneg m, (contains_parse_iff hcycle hparse m).mp htick⟩
        · rintro ⟨hnonneg, hselected⟩
          obtain ⟨m, rfl⟩ := Int.eq_ofNat_of_zero_le hnonneg
          exact (contains_parse_iff hcycle hparse m).mpr hselected

/-- Counted back from ten, the range goes from seven to ten, and its step is three. -/
theorem parse_denotes_counted_back :
    parse "4".toList (some Numeral.maxI64) = .error (.maxTooLarge Numeral.maxI64) ∧
    parse "9,2::x,-3".toList none = .error (.malformed "2::x".toList) ∧
    ∃ ts, parse " -4 :-1: -8".toList (some 10) = .ok ts ∧ ts.Denotes {7, 10} := by
  refine ⟨(parse_denotes _ _).1 _ rfl (Nat.le_refl _), ?_, ?_⟩
  · have hnine : ∀ e, ¬ Fault none "9".toList e :=
      (exists_readToken_iff (n := none) rfl).mp ⟨⟨9, 9, 1⟩, by decide⟩
    have hbad : Fault none "2::x".toList (.malformed "2::x".toList) :=
      (readToken_eq_error_iff (n := none) rfl).mp (by decide)
    exact (((parse_denotes _ _).2 (by simp)).1 _).mpr
      ⟨["9".toList], _, ["-3".toList], by decide, by simpa using hnine, hbad⟩
  · have hsplit : " -4 :-1: -8".toList.splitOn ',' = [" -4 :-1: -8".toList] := by decide
    have hnumbers : HasNumbers " -4 :-1: -8".toList [-4, -1, -8] :=
      readParts_eq_ok_iff.mp (by decide)
    have hsound : ∀ e, ¬ Fault (some 10) " -4 :-1: -8".toList e :=
      (exists_readToken_iff (n := some 11) rfl).mp ⟨⟨7, 10, 3⟩, by decide⟩
    obtain ⟨ts, hts, hdenotes⟩ := ((parse_denotes " -4 :-1: -8".toList (some 10)).2
      (by decide)).2 (hsplit ▸ List.forall_mem_singleton.mpr hsound)
    refine ⟨ts, hts, ?_⟩
    have hticks : {tick | 0 ≤ tick ∧ ∃ token ∈ " -4 :-1: -8".toList.splitOn ',',
        Selects (some 10) token tick} = {7, 10} := by
      have hfirst : place (some 10) (-4) = 7 := by decide
      have hlast : place (some 10) (-1) = 10 := by decide
      have hstep : place (some 10) (-8) = 3 := by decide
      ext tick
      simp only [hsplit, List.mem_singleton, exists_eq_left, selects_iff hnumbers, List.map_cons,
        List.map_nil, Within, hfirst, hlast, hstep, Set.mem_ofPred_eq, Set.mem_insert_iff,
        Set.mem_singleton_iff]
      omega
    exact hticks ▸ hdenotes

end TorusAutomaton.TickSet
