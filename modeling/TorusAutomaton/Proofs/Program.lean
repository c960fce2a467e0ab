import TorusAutomaton.Program
import TorusAutomaton.Proofs.Session.Ending
import TorusAutomaton.Proofs.Session.SavedFiles

/-!
# What the program leaves behind

The exit code tells whether anything was complained about, and a command line that cannot be read
has a code of its own. Files that were there before are there afterwards, whatever the command line
says. A result that is not that of a run that has ended is that of a run on a terminal which will
not be done while nobody types.
-/

namespace TorusAutomaton.Program

open TorusAutomaton Text CommandLine Session

/-! ## Complaints -/

theorem complaintText_ne_nil {outermost : String} {causes : List String} :
    complaintText (outermost :: causes) ≠ [] := by
  have hline : "Error: ".toList ++ outermost.toList ++ ['\n'] ≠ [] :=
    List.append_ne_nil_of_right_ne_nil _ (List.cons_ne_nil _ _)
  exact List.append_ne_nil_of_left_ne_nil hline _

theorem complaint_of_start (e : StartError) : complaintText e.chain ≠ [] := by
  cases e <;> exact complaintText_ne_nil

theorem complaint_of_failure (f : Failure) : complaintText f.chain ≠ [] := by
  cases f <;> exact complaintText_ne_nil

/-! ## Sessions -/

/-- A session that another one has come to in a run, or that one itself. -/
def LeftBy (s s' : Session) : Prop :=
  s' = s ∨ s' = s.headless.1 ∨ ∃ keys, s' = (s.terminal keys).1

/-- What is left behind of a session that was started. -/
structure Leaves (s : Session) (terminal : Option (List Key)) (r : Result) : Prop where
  session : ∃ s', LeftBy s s' ∧ r.files = s'.files ∧ r.written = s'.written
  code : r.code ≤ 1
  complaint : r.code = 0 ↔ r.complaint = []
  ended : r.ended = false ↔
    s.args.headless = false ∧ ∃ keys ∈ terminal, (s.terminal keys).2.2 = .running

variable {s s' : Session} {terminal : Option (List Key)} {before : List Journal.Event}
  {output : Text}

theorem leaves_failed (h : LeftBy s s')
    (hruns : s.args.headless = false → ∀ keys ∈ terminal, (s.terminal keys).2.2 ≠ .running)
    (f : Failure) : Leaves s terminal (failed s' before output f) where
  session := ⟨s', h, rfl, rfl⟩
  code := Nat.le_refl 1
  complaint := by simp [failed, complaint_of_failure f]
  ended := by
    constructor
    · exact fun hended => by cases hended
    · exact fun ⟨hheadless, keys, hkeys, hrunning⟩ => absurd hrunning (hruns hheadless keys hkeys)

theorem leaves_finish (h : LeftBy s s')
    (hruns : s.args.headless = false → ∀ keys ∈ terminal, (s.terminal keys).2.2 ≠ .running)
    (exit : Exit) : Leaves s terminal (finish s' before output exit) where
  session := ⟨s', h, rfl, rfl⟩
  code := Nat.zero_le 1
  complaint := by simp [finish]
  ended := by
    constructor
    · exact fun hended => by cases hended
    · exact fun ⟨hheadless, keys, hkeys, hrunning⟩ => absurd hrunning (hruns hheadless keys hkeys)

theorem leaves_runSession (s : Session) (terminal : Option (List Key))
    (before : List Journal.Event) : Leaves s terminal (runSession s terminal before) := by
  unfold runSession
  cases hheadless : s.args.headless with
  | true =>
      have hruns : s.args.headless = false →
          ∀ keys ∈ terminal, (s.terminal keys).2.2 ≠ .running :=
        fun hfalse => by cases hheadless.symm.trans hfalse
      have hleft : LeftBy s s.headless.1 := .inr (.inl rfl)
      rw [if_pos rfl]
      split
      · rename_i exit hresult
        rw [hresult] at hleft
        exact leaves_finish hleft hruns exit
      · rename_i f hresult
        rw [hresult] at hleft
        exact leaves_failed hleft hruns f
  | false =>
      rw [if_neg Bool.false_ne_true]
      cases terminal with
      | none => exact leaves_failed (.inl rfl) (fun _ _ hkeys => by cases hkeys) .noTerminal
      | some keys =>
          have hleft : LeftBy s (s.terminal keys).1 := .inr (.inr ⟨keys, rfl⟩)
          have hruns : (s.terminal keys).2.2 ≠ .running → s.args.headless = false →
              ∀ keys' ∈ some keys, (s.terminal keys').2.2 ≠ .running := by
            rintro hended - _ ⟨⟩
            exact hended
          dsimp only
          split
          · rename_i exit hresult
            rw [hresult] at hleft hruns
            exact leaves_finish hleft (hruns (by simp)) exit
          · rename_i f hresult
            rw [hresult] at hleft hruns
            exact leaves_failed hleft (hruns (by simp)) f
          · rename_i hresult
            rw [hresult] at hleft
            refine ⟨⟨_, hleft, rfl, rfl⟩, Nat.zero_le 1, by simp [unfinished], ?_⟩
            refine ⟨fun _ => ⟨hheadless, keys, rfl, by rw [hresult]⟩, fun _ => rfl⟩

/-! ## Runs of the program -/

/-- The size that boards are fitted to. -/
def sizeIn (around : Surroundings) : TerminalSize :=
  (around.terminal.map Prod.fst).getD assumedSize

/-- What is noted before anything is started. -/
def notesIn (around : Surroundings) : List Journal.Event :=
  if around.terminal.isSome then [] else [.noTerminal assumedSize.columns assumedSize.lines]

/-- What is started for arguments that have been read. -/
def startedIn (around : Surroundings) (args : Arguments) : Journal.Kept StartError Session :=
  Session.start args (sizeIn around) args.imageDir around.files around.fresh around.fonts

variable {argv : List Text} {around : Surroundings} {args : Arguments}

theorem run_of_parse (h : CommandLine.parse argv = .ok args) :
    run argv around =
      match (startedIn around args).outcome with
      | .error e =>
        unstarted 1 [] (complaintText e.chain) around.files
          (notesIn around ++ (startedIn around args).events)
      | .ok s =>
        runSession s (around.terminal.map Prod.snd)
          (notesIn around ++ (startedIn around args).events) := by
  unfold run startedIn sizeIn notesIn
  rw [h]
  cases around.terminal <;> rfl

/-- **The exit code tells what has happened.** It is zero exactly if nothing was complained about,
two exactly if the command line cannot be read and asks neither for help nor for the version, and
one otherwise. -/
theorem run_code (argv : List Text) (around : Surroundings) :
    ((run argv around).code = 0 ↔ (run argv around).complaint = []) ∧
      ((run argv around).code = 2 ↔
        ∃ u, CommandLine.parse argv = .error u ∧ u ≠ .help ∧ u ≠ .version) ∧
      (run argv around).code ≤ 2 := by
  cases hparse : CommandLine.parse argv with
  | error u =>
      unfold run
      rw [hparse]
      cases u <;> simp [unstarted]
  | ok args =>
      rw [run_of_parse hparse]
      split
      · rename_i e _
        simp [unstarted, complaint_of_start e]
      · rename_i s _
        have hleaves := leaves_runSession s (around.terminal.map Prod.snd)
          (notesIn around ++ (startedIn around args).events)
        have hcode := hleaves.code
        refine ⟨hleaves.complaint, ?_, by omega⟩
        constructor
        · intro htwo
          omega
        · rintro ⟨_, herror, _⟩
          cases herror

/-- The files of a result when some `found` ones were there before. A file that was there still is,
and what it holds is what it held or an image that was written. Each path that was written to leads
to an image that was written. -/
structure KeepsFiles (found : FileTree) (r : Result) : Prop where
  kept : ∀ path image, found.read path = .ok image →
    ∃ image', (image' = image ∨ image' ∈ r.written.map Prod.snd) ∧ r.files.read path = .ok image'
  readable : ∀ file ∈ r.written,
    ∃ image ∈ r.written.map Prod.snd, r.files.read file.1 = .ok image

theorem keepsFiles_unstarted (code : Nat) (output complaint : Text) (found : FileTree)
    (events : List Journal.Event) :
    KeepsFiles found (unstarted code output complaint found events) where
  kept := fun _ image hread => ⟨image, .inl rfl, hread⟩
  readable := fun _ hfile => by cases hfile

/-- **What was there is there**, whatever the command line says and however the run goes. -/
theorem run_keeps_files (argv : List Text) (hroot : around.files.root.isDirectory = true) :
    KeepsFiles around.files (run argv around) := by
  cases hparse : CommandLine.parse argv with
  | error u =>
      unfold run
      rw [hparse]
      cases u <;> exact keepsFiles_unstarted _ _ _ _ _
  | ok args =>
      rw [run_of_parse hparse]
      split
      · exact keepsFiles_unstarted _ _ _ _ _
      · rename_i s hstart
        obtain ⟨s', hleft, hfiles, hwritten⟩ := (leaves_runSession s
          (around.terminal.map Prod.snd) (notesIn around ++ (startedIn around args).events)).session
        obtain ⟨hheadless, hterminal, _⟩ := run_leaves_files hstart hroot
        have hfiled : Filed around.files s' := by
          rcases hleft with rfl | rfl | ⟨keys, rfl⟩
          · exact filed_of_start hstart hroot
          · exact hheadless
          · exact hterminal keys
        constructor
        · rw [hfiles, hwritten]
          exact hfiled.kept
        · rw [hfiles, hwritten]
          exact hfiled.readable

/-- **A run that has not ended will not be done.** That can only be a run on a terminal whose keys
have all been taken, and which has no last tick or is paused before it. While nobody types it goes
on for ever, however often the time for a tick comes, unless it is not paused and a frame cannot be
saved. -/
theorem run_not_ended (h : (run argv around).ended = false) :
    ∃ args s size keys v, CommandLine.parse argv = .ok args ∧
      (startedIn around args).outcome = .ok s ∧ args.headless = false ∧
      around.terminal = some (size, keys) ∧
      (TerminalView.start { s with history := [] }).run keys = (v, .running) ∧ v.Endless ∧
      ∀ dues, (v.waits dues).2 = .running ∨
        ∃ failure, (v.waits dues).2 = .failed failure ∧ v.session.sim.paused = false := by
  cases hparse : CommandLine.parse argv with
  | error u =>
      unfold run at h
      rw [hparse] at h
      cases u <;> cases h
  | ok args =>
      rw [run_of_parse hparse] at h
      split at h
      · cases h
      · rename_i s hstart
        have hleaves := leaves_runSession s (around.terminal.map Prod.snd)
          (notesIn around ++ (startedIn around args).events)
        obtain ⟨hheadless, keys, hkeys, hrunning⟩ := hleaves.ended.mp h
        obtain ⟨⟨size, typed⟩, hterminal, hsame⟩ := Option.map_eq_some_iff.mp hkeys
        obtain rfl : typed = keys := hsame
        have hargs : s.args = args := by
          obtain ⟨_, _, _, _, _, _, _, rfl⟩ := parts_of_start hstart
          rfl
        obtain ⟨v, outcome, hrun⟩ : ∃ v outcome,
            (TerminalView.start { s with history := [] }).run typed = (v, outcome) := ⟨_, _, rfl⟩
        have houtcome : outcome = .running := by
          simpa only [Session.terminal, hrun] using hrunning
        subst houtcome
        obtain ⟨hendless, hgoes⟩ := TerminalView.run_goes_on hrun
        exact ⟨args, s, size, typed, v, rfl, hstart, hargs ▸ hheadless, hterminal, hrun, hendless,
          hgoes⟩

end TorusAutomaton.Program
