import TorusAutomaton.CommandLine.Parser
import TorusAutomaton.Proofs.CommandLine.RecoveryText
import TorusAutomaton.Proofs.Outcome

/-!
# Settings read one after another

A command line that gives options by their long names, each once and with its value in an argument
of its own, and then switches, sets one value after the other, starting from the defaults. A value
that its option does not take is read as an option itself, and then nothing is set at all.
-/

namespace TorusAutomaton.CommandLine

open TorusAutomaton Text Outcome

/-- The arguments that result when options are given these values from left to right. -/
def Arguments.setAll (a : Arguments) (settings : List (Opt × Text)) : Except Usage Arguments :=
  settings.foldlM (fun a setting => a.set setting.1 setting.2) a

/-! ## Names -/

theorem Name.mem_all (n : Name) : n ∈ Name.all := by
  rcases n with o | s | _ | _
  · cases o <;> decide
  · cases s <;> decide
  · decide
  · decide

/-- A long name is not empty, holds no equals sign, and is found again among all names. -/
theorem long_spec (n : Name) : n.long ≠ [] ∧ '=' ∉ n.long ∧ Name.ofLong n.long = some n := by
  have hall : ∀ n ∈ Name.all, n.long ≠ [] ∧ '=' ∉ n.long ∧ Name.ofLong n.long = some n := by
    decide +kernel
  exact hall n n.mem_all

namespace Reading

theorem longName_long (r : Reading) (n : Name) : r.longName n.long = r.meet n none := by
  obtain ⟨_, hequals, hfound⟩ := long_spec n
  simp [longName, cut_eq_none_iff.mpr hequals, hfound]

theorem takeName_long (r : Reading) (n : Name) :
    r.takeName ('-' :: '-' :: n.long) = r.meet n none := by
  obtain ⟨c, rest, hlong⟩ := List.exists_cons_of_ne_nil (long_spec n).1
  rw [← longName_long, hlong]
  rfl

/-- While no option waits for its value, an argument that is a long name is met as a name. -/
theorem take_long {r : Reading} (hopen : r.ended = false)
    (hvalued : ∀ o, r.pending ≠ some (o, none)) (n : Name) :
    r.take ('-' :: '-' :: n.long) = r.meet n none := by
  rw [← takeName_long]
  simp only [take, hopen, Bool.false_eq_true, if_false]

/-! ## One option or switch -/

/-- Everything met so far is settled, apart from the value of the option met last, and settling that
one too gives these arguments and names. -/
structure Settles (r : Reading) (a : Arguments) (given : List Name) : Prop where
  open_ : r.ended = false
  valued : ∀ o, r.pending ≠ some (o, none)
  settled : r.settle = .ok { args := a, given, pending := none, ended := false }

theorem settles_start : start.Settles {} [] where
  open_ := rfl
  valued := by simp [start]
  settled := rfl

namespace Settles

variable {r : Reading} {a : Arguments} {given : List Name}

theorem setting (h : r.Settles a given) {o : Opt} {value : Text} {a' : Arguments}
    (htakes : o.takes value = true) (hnew : Name.opt o ∉ given) (hset : a.set o value = .ok a') :
    ∃ r', (settingWords (o, value)).foldlM take r = .ok r' ∧ r'.Settles a' (.opt o :: given) := by
  refine ⟨{ args := a, given, pending := some (o, some value), ended := false }, ?_, ?_⟩
  · have hname : r.take ('-' :: '-' :: o.long) =
        .ok { args := a, given, pending := some (o, none), ended := false } := by
      show r.take ('-' :: '-' :: (Name.opt o).long) = _
      rw [take_long h.open_ h.valued]
      simp [meet, h.settled]
    simp only [settingWords, List.foldlM_cons, List.foldlM_nil, hname, ok_bind, pure_eq_ok]
    simp [take, htakes]
  · constructor
    · rfl
    · simp
    · simp [settle, assign, hnew, hset, Except.map]

theorem switch (h : r.Settles a given) {s : Switch} (hnew : Name.switch s ∉ given) :
    ∃ r', r.take (writeSwitch s) = .ok r' ∧ r'.Settles (a.turnOn s) (.switch s :: given) := by
  refine ⟨{ args := a.turnOn s, given := .switch s :: given, pending := none, ended := false },
    ?_, ?_⟩
  · show r.take ('-' :: '-' :: (Name.switch s).long) = _
    rw [take_long h.open_ h.valued]
    simp [meet, h.settled, Reading.turnOn, hnew]
  · exact ⟨rfl, by simp, rfl⟩

/-! ## All of them -/

theorem settings {settings : List (Opt × Text)} (h : r.Settles a given) {a' : Arguments}
    (htakes : ∀ setting ∈ settings, setting.1.takes setting.2 = true)
    (hnodup : (settings.map Prod.fst).Nodup)
    (hnew : ∀ setting ∈ settings, Name.opt setting.1 ∉ given)
    (hset : a.setAll settings = .ok a') :
    ∃ r', (settings.flatMap settingWords).foldlM take r = .ok r' ∧
      r'.Settles a' ((settings.map fun setting => Name.opt setting.1).reverse ++ given) := by
  induction settings generalizing r a given with
  | nil =>
      cases hset
      exact ⟨r, rfl, h⟩
  | cons first rest ih =>
      obtain ⟨a₁, hfirst, hrest⟩ := bind_eq_ok_iff.mp hset
      obtain ⟨hfresh, hnodup⟩ := List.nodup_cons.mp hnodup
      obtain ⟨r₁, htake, h₁⟩ := h.setting (htakes first List.mem_cons_self)
        (hnew first List.mem_cons_self) hfirst
      -- The names that are still to come differ from the first one too.
      have hnew₁ : ∀ setting ∈ rest, Name.opt setting.1 ∉ Name.opt first.1 :: given := by
        intro setting hsetting hmem
        rcases List.mem_cons.mp hmem with heq | hmem
        · exact hfresh (Name.opt.inj heq ▸ List.mem_map_of_mem hsetting)
        · exact hnew setting (List.mem_cons_of_mem _ hsetting) hmem
      obtain ⟨r', htakes', h'⟩ := ih h₁
        (fun setting hsetting => htakes setting (List.mem_cons_of_mem _ hsetting)) hnodup hnew₁
        hrest
      refine ⟨r', ?_, by simpa using h'⟩
      rw [List.flatMap_cons, List.foldlM_append, htake, ok_bind, htakes']

theorem switches {switches : List Switch} (h : r.Settles a given) (hnodup : switches.Nodup)
    (hnew : ∀ s ∈ switches, Name.switch s ∉ given) :
    ∃ r' given', (switches.map writeSwitch).foldlM take r = .ok r' ∧
      r'.Settles (switches.foldl Arguments.turnOn a) given' := by
  induction switches generalizing r a given with
  | nil => exact ⟨r, given, rfl, h⟩
  | cons first rest ih =>
      obtain ⟨hfresh, hnodup⟩ := List.nodup_cons.mp hnodup
      obtain ⟨r₁, htake, h₁⟩ := h.switch (hnew first List.mem_cons_self)
      have hnew₁ : ∀ s ∈ rest, Name.switch s ∉ Name.switch first :: given := by
        intro s hs hmem
        rcases List.mem_cons.mp hmem with heq | hmem
        · cases heq
          exact hfresh hs
        · exact hnew s (List.mem_cons_of_mem _ hs) hmem
      obtain ⟨r', given', htakes', h'⟩ := ih h₁ hnodup hnew₁
      refine ⟨r', given', ?_, h'⟩
      rw [List.map_cons, List.foldlM_cons, htake, ok_bind, htakes']

end Settles

end Reading

/-- **Options with their values and then switches are read as what they say**, provided that no
value looks like an option and nothing is given twice. -/
theorem parse_settings {settings : List (Opt × Text)} {switches : List Switch} {a : Arguments}
    (htakes : ∀ setting ∈ settings, setting.1.takes setting.2 = true)
    (hoptions : (settings.map Prod.fst).Nodup) (hswitches : switches.Nodup)
    (hset : Arguments.setAll {} settings = .ok a) :
    parse (settings.flatMap settingWords ++ switches.map writeSwitch) =
      .ok (switches.foldl Arguments.turnOn a) := by
  obtain ⟨r, hr, hsettles⟩ :=
    Reading.settles_start.settings htakes hoptions (by simp) hset
  obtain ⟨r', _, hr', hsettles'⟩ := hsettles.switches hswitches (by simp)
  simp only [parse, List.foldlM_append, hr, ok_bind, hr', hsettles'.settled, pure_eq_ok]

/-! ## Values that are not taken -/

namespace Reading

variable {r r' : Reading} {o : Opt}

theorem ended_of_settle (h : r.settle = .ok r') : r'.ended = r.ended := by
  unfold settle at h
  split at h
  · cases h
    rfl
  · cases h
  · obtain ⟨_, hset⟩ := check_eq_ok_iff.mp h
    obtain ⟨_, _, rfl⟩ := map_eq_ok_iff.mp hset
    rfl

/-- No name is met while an option waits for its value. -/
theorem meet_of_waiting (hwaits : r.pending = some (o, none)) (n : Name) (attached : Option Text) :
    r.meet n attached ≠ .ok r' := by
  have hsettle : r.settle = .error .missingValue := by simp [settle, hwaits]
  rcases n with o' | s | _ | _ <;> cases attached <;> simp [meet, hsettle]

theorem letters_of_waiting (hwaits : r.pending = some (o, none)) (c : Char) (rest : Text) :
    r.letters (c :: rest) ≠ .ok r' := by
  intro h
  unfold letters at h
  split at h
  · cases h
  · split at h <;> exact meet_of_waiting hwaits _ _ h
  · obtain ⟨_, hmeet, _⟩ := bind_eq_ok_iff.mp h
    exact meet_of_waiting hwaits _ _ hmeet

theorem longName_of_waiting (hwaits : r.pending = some (o, none)) (t : Text) :
    r.longName t ≠ .ok r' := by
  intro h
  simp only [longName] at h
  split at h
  · cases h
  · exact meet_of_waiting hwaits _ _ h

/-- An option waits for its value, but no value can follow. -/
structure Stuck (r : Reading) (o : Opt) : Prop where
  waits : r.pending = some (o, none)
  ended : r.ended = true

/-- An argument that is not taken by the option that waits for it is wrong, unless it ends the
options, and then the option never gets a value. -/
theorem stuck_of_take (hwaits : r.pending = some (o, none)) {word : Text}
    (hrefused : o.takes word = false) (h : r.take word = .ok r') : r'.Stuck o := by
  obtain ⟨_, h⟩ := check_eq_ok_iff.mp h
  simp only [hwaits, hrefused, Bool.false_eq_true, if_false] at h
  unfold takeName at h
  split at h
  · cases h
    exact ⟨hwaits, rfl⟩
  · exact absurd h (longName_of_waiting hwaits _)
  · exact absurd h (letters_of_waiting hwaits _ _)
  · cases h

theorem Stuck.not_settled (hstuck : r.Stuck o) {words : List Text}
    (h : words.foldlM take r = .ok r') (r'' : Reading) : r'.settle ≠ .ok r'' := by
  cases words with
  | nil =>
      cases h
      simp [settle, hstuck.waits]
  | cons word rest =>
      obtain ⟨r₁, hfirst, _⟩ := bind_eq_ok_iff.mp h
      simp [take, hstuck.ended] at hfirst

/-- Options with their values are read to the end only if every option takes its value. -/
theorem takes_of_foldlM {settings : List (Opt × Text)} {words : List Text} {r'' : Reading}
    (hopen : r.ended = false) (hvalued : ∀ o, r.pending ≠ some (o, none))
    (h : (settings.flatMap settingWords ++ words).foldlM take r = .ok r')
    (hsettle : r'.settle = .ok r'') :
    ∀ setting ∈ settings, setting.1.takes setting.2 = true := by
  induction settings generalizing r with
  | nil => simp
  | cons first rest ih =>
      obtain ⟨o, value⟩ := first
      obtain ⟨r₁, hname, h⟩ := bind_eq_ok_iff.mp h
      obtain ⟨r₂, hvalue, hrest⟩ := bind_eq_ok_iff.mp h
      -- The name settles what came before and waits for the value.
      have hmeet := take_long hopen hvalued (.opt o)
      obtain ⟨r₀, hsettle₀, hpending⟩ := bind_eq_ok_iff.mp (hmeet.symm.trans hname)
      cases hpending
      have hopen₀ : r₀.ended = false := (ended_of_settle hsettle₀).trans hopen
      cases htakes : o.takes value with
      | false =>
          have hstuck : r₂.Stuck o := stuck_of_take rfl htakes hvalue
          exact absurd hsettle (hstuck.not_settled hrest r'')
      | true =>
          simp only [take, hopen₀, htakes, Bool.false_eq_true, if_false, if_true] at hvalue
          have hrest' := ih (r := r₂) (by cases hvalue; rfl) (by cases hvalue; simp) hrest
          intro setting hsetting
          rcases List.mem_cons.mp hsetting with rfl | hsetting
          · exact htakes
          · exact hrest' setting hsetting

end Reading

/-- **Options are only read if they take their values**, whatever follows them. -/
theorem takes_of_parse {settings : List (Opt × Text)} {words : List Text} {a : Arguments}
    (h : parse (settings.flatMap settingWords ++ words) = .ok a) :
    ∀ setting ∈ settings, setting.1.takes setting.2 = true := by
  obtain ⟨r, hread, h⟩ := bind_eq_ok_iff.mp h
  obtain ⟨r', hsettle, _⟩ := bind_eq_ok_iff.mp h
  exact Reading.takes_of_foldlM rfl (by simp [Reading.start]) hread hsettle

end TorusAutomaton.CommandLine
