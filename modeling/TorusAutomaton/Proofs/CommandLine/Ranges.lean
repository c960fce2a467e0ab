import TorusAutomaton.CommandLine.Parser
import TorusAutomaton.Proofs.Text.Numerals

/-!
# Values in range

Every value that a command line sets is checked when it is read: numbers have to fit the type they
are kept in, and a path may not be empty. So whatever is read from a command line is in range, and
whatever is in range can be written and read again.
-/

namespace TorusAutomaton.CommandLine

open TorusAutomaton Text Outcome

/-- Numbers fit their types, and paths are not empty. -/
structure Arguments.InRange (a : Arguments) : Prop where
  flickerMode : a.flickerMode ≤ Numeral.maxU8
  tick : -((Numeral.maxI64 : Int) + 1) ≤ a.tick ∧ a.tick ≤ Numeral.maxI64
  maxTicks : ∀ n ∈ a.maxTicks, n ≤ Numeral.maxU64
  renderEvery : a.renderEvery ≤ Numeral.maxU64
  postTicks : a.postTicks ≤ Numeral.maxU32
  imageDir : a.imageDir ≠ []
  zoom : a.zoom ≤ Numeral.maxU32
  fontPath : a.fontPath ≠ some []
  fontSize : a.fontSize ≤ Numeral.maxU32
  ms : a.ms ≤ Numeral.maxU64

/-! ## Single values -/

theorem orBad_eq_ok_iff {α : Type} {x : Option α} {v : α} : orBad x = .ok v ↔ x = some v := by
  cases x <;> simp [orBad]

theorem readSmall_le {max v : Nat} {t : Text} (h : readSmall max t = some v) : v ≤ max := by
  unfold readSmall at h
  split at h
  · split at h
    · cases h
      omega
    · cases h
  · cases h

theorem readLarge_eq_some_iff {v : Nat} {t : Text} :
    readLarge t = some v ↔ Numeral.readNat Numeral.maxU64 t = .ok v :=
  toOption_eq_some_iff

theorem readPath_eq_ok_iff {t v : Text} : readPath t = .ok v ↔ t ≠ [] ∧ v = t := by
  cases t with
  | nil => simp [readPath]
  | cons c rest => simp [readPath, eq_comm]

/-- An option takes only values in range. -/
theorem Arguments.InRange.set {a a' : Arguments} (h : a.InRange) {o : Opt} {value : Text}
    (hset : a.set o value = .ok a') : a'.InRange := by
  cases o
  case dimensions | rules | tiles | seed | board | postRules | renderImages | imageFormat |
      subtitle =>
    cases hset
    exact { h with }
  case fill | logLevel =>
    obtain ⟨v, _, rfl⟩ := map_eq_ok_iff.mp hset
    exact { h with }
  case flickerMode =>
    obtain ⟨v, hv, rfl⟩ := map_eq_ok_iff.mp hset
    exact { h with flickerMode := readSmall_le (orBad_eq_ok_iff.mp hv) }
  case tick =>
    obtain ⟨v, hv, rfl⟩ := map_eq_ok_iff.mp hset
    have hread := toOption_eq_some_iff.mp (orBad_eq_ok_iff.mp hv)
    exact { h with tick := Numeral.readInt_range hread }
  case maxTicks =>
    obtain ⟨v, hv, rfl⟩ := map_eq_ok_iff.mp hset
    have hread := readLarge_eq_some_iff.mp (orBad_eq_ok_iff.mp hv)
    refine { h with maxTicks := ?_ }
    rintro n ⟨⟩
    exact Numeral.readNat_le hread
  case renderEvery =>
    obtain ⟨v, hv, rfl⟩ := map_eq_ok_iff.mp hset
    have hread := readLarge_eq_some_iff.mp (orBad_eq_ok_iff.mp hv)
    exact { h with renderEvery := Numeral.readNat_le hread }
  case postTicks =>
    obtain ⟨v, hv, rfl⟩ := map_eq_ok_iff.mp hset
    exact { h with postTicks := readSmall_le (orBad_eq_ok_iff.mp hv) }
  case imageDir =>
    obtain ⟨v, hv, rfl⟩ := map_eq_ok_iff.mp hset
    obtain ⟨hne, rfl⟩ := readPath_eq_ok_iff.mp hv
    exact { h with imageDir := hne }
  case zoom =>
    obtain ⟨v, hv, rfl⟩ := map_eq_ok_iff.mp hset
    exact { h with zoom := readSmall_le (orBad_eq_ok_iff.mp hv) }
  case fontPath =>
    obtain ⟨v, hv, rfl⟩ := map_eq_ok_iff.mp hset
    obtain ⟨hne, rfl⟩ := readPath_eq_ok_iff.mp hv
    refine { h with fontPath := ?_ }
    exact fun hnil => hne (Option.some.inj hnil)
  case fontSize =>
    obtain ⟨v, hv, rfl⟩ := map_eq_ok_iff.mp hset
    exact { h with fontSize := readSmall_le (orBad_eq_ok_iff.mp hv) }
  case ms =>
    obtain ⟨v, hv, rfl⟩ := map_eq_ok_iff.mp hset
    have hread := readLarge_eq_some_iff.mp (orBad_eq_ok_iff.mp hv)
    exact { h with ms := Numeral.readNat_le hread }

theorem Arguments.InRange.turnOn {a : Arguments} (h : a.InRange) (s : Switch) :
    (a.turnOn s).InRange := by
  cases s <;> exact { h with }

theorem Arguments.InRange.default : ({} : Arguments).InRange where
  flickerMode := by decide
  tick := by decide
  maxTicks := by simp
  renderEvery := by decide
  postTicks := by decide
  imageDir := by decide
  zoom := by decide
  fontPath := by decide
  fontSize := by decide
  ms := by decide

/-! ## Reading -/

namespace Reading

variable {r r' : Reading}

theorem inRange_assign (h : r.args.InRange) {o : Opt} {value : Text}
    (hassign : r.assign o value = .ok r') : r'.args.InRange := by
  obtain ⟨_, hset⟩ := check_eq_ok_iff.mp hassign
  obtain ⟨a, ha, rfl⟩ := map_eq_ok_iff.mp hset
  exact h.set ha

theorem inRange_settle (h : r.args.InRange) (hsettle : r.settle = .ok r') :
    r'.args.InRange := by
  unfold settle at hsettle
  split at hsettle
  · cases hsettle
    exact h
  · cases hsettle
  · exact inRange_assign (r := { r with pending := none }) h hsettle

theorem inRange_turnOn (h : r.args.InRange) {s : Switch} (hon : r.turnOn s = .ok r') :
    r'.args.InRange := by
  obtain ⟨_, hon⟩ := check_eq_ok_iff.mp hon
  cases hon
  exact h.turnOn s

theorem inRange_meet (h : r.args.InRange) {name : Name} {attached : Option Text}
    (hmeet : r.meet name attached = .ok r') : r'.args.InRange := by
  unfold meet at hmeet
  split at hmeet
  · obtain ⟨r₁, hsettle, hassign⟩ := bind_eq_ok_iff.mp hmeet
    exact inRange_assign (inRange_settle h hsettle) hassign
  · obtain ⟨r₁, hsettle, hpending⟩ := bind_eq_ok_iff.mp hmeet
    cases hpending
    exact (inRange_settle h hsettle :)
  · obtain ⟨r₁, hsettle, hon⟩ := bind_eq_ok_iff.mp hmeet
    exact inRange_turnOn (inRange_settle h hsettle) hon
  · obtain ⟨_, _, hthrow⟩ := bind_eq_ok_iff.mp hmeet
    cases hthrow
  · obtain ⟨_, _, hthrow⟩ := bind_eq_ok_iff.mp hmeet
    cases hthrow
  · cases hmeet

theorem inRange_letters {t : Text} (h : r.args.InRange) (hletters : r.letters t = .ok r') :
    r'.args.InRange := by
  induction t generalizing r with
  | nil =>
      cases hletters
      exact h
  | cons c rest ih =>
      unfold letters at hletters
      split at hletters
      · cases hletters
      · split at hletters <;> exact inRange_meet h hletters
      · obtain ⟨r₁, hmeet, hrest⟩ := bind_eq_ok_iff.mp hletters
        exact ih (inRange_meet h hmeet) hrest

theorem inRange_longName {t : Text} (h : r.args.InRange) (hlong : r.longName t = .ok r') :
    r'.args.InRange := by
  simp only [longName] at hlong
  split at hlong
  · cases hlong
  · exact inRange_meet h hlong

theorem inRange_take (h : r.args.InRange) {word : Text} (htake : r.take word = .ok r') :
    r'.args.InRange := by
  have hname : r.takeName word = .ok r' → r'.args.InRange := by
    intro htake
    unfold takeName at htake
    split at htake
    · cases htake
      exact h
    · exact inRange_longName h htake
    · exact inRange_letters h htake
    · cases htake
  obtain ⟨_, htake⟩ := check_eq_ok_iff.mp htake
  split at htake
  · split at htake
    · cases htake
      exact h
    · exact hname htake
  · exact hname htake

end Reading

/-- **Whatever is read from a command line is in range.** -/
theorem inRange_of_parse {argv : List Text} {a : Arguments} (h : parse argv = .ok a) :
    a.InRange := by
  obtain ⟨r, htake, h⟩ := bind_eq_ok_iff.mp h
  obtain ⟨r', hsettle, h⟩ := bind_eq_ok_iff.mp h
  cases h
  have hr : r.args.InRange :=
    foldlM_keeps (P := fun r : Reading => r.args.InRange)
      (fun r word r' h htake => Reading.inRange_take h htake) Arguments.InRange.default htake
  exact Reading.inRange_settle hr hsettle

end TorusAutomaton.CommandLine
