import TorusAutomaton.Proofs.Files.ReadBack
import TorusAutomaton.Proofs.Session.Lasting

/-!
# Files that a run leaves

Whatever becomes of an image that is to be saved, no directory and no file is lost over it, except
that the file under its path gets a new content. A run does nothing else to the files around, so in
the end every path that it has written to leads to one of its images, the last one to its own.
-/

namespace TorusAutomaton.Session

open TorusAutomaton Text

/-! ## One image -/

/-- What stands in the file after an image was to be saved, if there is a file. -/
def Saving.content? (image : View.Image) : Saving → Option (Option View.Image)
  | .saved => some (some image)
  | .spoiled _ => some none
  | .noDirectory _ _ | .failed _ => none

/-- What saving does to files: whatever it has put into a file is read back under the path, and
besides it only makes directories. -/
structure Saves (files files' : FileTree) (path : Text) (content : Option (Option View.Image)) :
    Prop where
  kept : ∃ place, files.Keeps files' (content.map fun image => (place, image))
  read : ∀ image, content = some image → files'.read path = .ok image

variable {files files' : FileTree} {path : Text} {image : View.Image} {saving : Saving}

theorem saves_writeImage (hroot : files.root.isDirectory = true)
    (h : writeImage files path image = (files', saving)) :
    Saves files files' path (saving.content? image) := by
  unfold writeImage at h
  split at h
  · cases h
    exact ⟨⟨[], .refl files⟩, fun _ hnone => by cases hnone⟩
  · rename_i format _
    dsimp only at h
    split at h
    · cases h
      exact ⟨⟨[], .refl files⟩, fun _ hnone => by cases hnone⟩
    · rename_i hwrite
      cases h
      have hcontent : (if format = writtenFormat then Saving.saved else .spoiled format).content?
          image = some (if format = writtenFormat then some image else none) := by
        split <;> rfl
      obtain ⟨place, hkeeps⟩ := Files.Tree.keeps_write hroot hwrite
      rw [hcontent]
      refine ⟨⟨place, hkeeps⟩, ?_⟩
      rintro _ ⟨⟩
      exact Files.Tree.read_write hroot hwrite

theorem saves_saveImage (hroot : files.root.isDirectory = true)
    (h : saveImage files path image = (files', saving)) :
    Saves files files' path (saving.content? image) := by
  unfold saveImage at h
  split at h
  · exact saves_writeImage hroot h
  · rename_i above _
    have hmade := Files.Tree.keeps_makeDirectories hroot above
    split at h
    · rename_i hmake
      cases h
      rw [hmake] at hmade
      exact ⟨⟨[], hmade⟩, fun _ hnone => by cases hnone⟩
    · rename_i hmake
      rw [hmake] at hmade
      obtain ⟨⟨place, hkeeps⟩, hread⟩ := saves_writeImage (hmade.root hroot) h
      exact ⟨⟨place, hmade.trans hkeeps⟩, hread⟩

/-- An image that is saved is read back under its path. -/
theorem read_saveImage (hroot : files.root.isDirectory = true)
    (h : saveImage files path image = (files', .saved)) : files'.read path = .ok (some image) :=
  (saves_saveImage hroot h).read _ rfl

/-! ## Sessions -/

/-- The files of a session that has found some `found` ones around it. A file that was there still
is; unless it was written to, its content is the same. Each path that was written to leads to a file
with an image that was written, and the last one to the last image. -/
structure Filed (found : FileTree) (s : Session) : Prop where
  root : s.files.root.isDirectory = true
  kept : ∀ path image, found.read path = .ok image →
    ∃ image', (image' = image ∨ image' ∈ s.written.map Prod.snd) ∧ s.files.read path = .ok image'
  readable : ∀ file ∈ s.written,
    ∃ image ∈ s.written.map Prod.snd, s.files.read file.1 = .ok image
  latest : ∀ file, s.written.getLast? = some file → s.files.read file.1 = .ok file.2

variable {found : FileTree} {s s' : Session}

theorem Filed.of_eq (h : Filed found s) (hfiles : s'.files = s.files)
    (hwritten : s'.written = s.written) : Filed found s' := by
  constructor <;> rw [hfiles] <;> try rw [hwritten]
  · exact h.root
  · exact h.kept
  · exact h.readable
  · exact h.latest

/-- A saving adds to what was written what it has put into a file. -/
theorem Filed.of_saves (h : Filed found s) {content : Option (Option View.Image)}
    (hsaves : Saves s.files s'.files path content)
    (hwritten : s'.written = s.written ++ (content.map fun image => (path, image)).toList) :
    Filed found s' := by
  obtain ⟨⟨place, hkeeps⟩, hread⟩ := hsaves
  -- What was read before is read still, unless it is what was saved now.
  have hstill : ∀ {path' : Text} {image : Option View.Image}, s.files.read path' = .ok image →
      ∃ image', (image' = image ∨ image' ∈ s'.written.map Prod.snd) ∧
        s'.files.read path' = .ok image' := by
    intro path' image hbefore
    obtain ⟨image', hsame, hafter⟩ := Files.Tree.read_of_keeps h.root hkeeps hbefore
    refine ⟨image', hsame.imp_right ?_, hafter⟩
    rintro ⟨place', hnew⟩
    cases content with
    | none => cases hnew
    | some image =>
        cases hnew
        rw [hwritten, List.map_append]
        exact List.mem_append_right _ (List.mem_singleton.mpr rfl)
  have hold : ∀ {image : Option View.Image}, image ∈ s.written.map Prod.snd →
      image ∈ s'.written.map Prod.snd := by
    intro image himage
    rw [hwritten, List.map_append]
    exact List.mem_append_left _ himage
  constructor
  case root => exact hkeeps.root h.root
  case kept =>
    intro path' image hfound
    obtain ⟨image', hsame, hbefore⟩ := h.kept path' image hfound
    obtain ⟨image'', hsame', hafter⟩ := hstill hbefore
    refine ⟨image'', ?_, hafter⟩
    rcases hsame' with rfl | hnew
    · exact hsame.imp_right hold
    · exact .inr hnew
  case readable =>
    intro file hfile
    rw [hwritten] at hfile
    rcases List.mem_append.mp hfile with hbefore | hnew
    · obtain ⟨image, himage, hreadable⟩ := h.readable file hbefore
      obtain ⟨image', hsame, hafter⟩ := hstill hreadable
      refine ⟨image', ?_, hafter⟩
      rcases hsame with rfl | hnew
      · exact hold himage
      · exact hnew
    · cases content with
      | none => cases hnew
      | some image =>
          cases List.mem_singleton.mp hnew
          refine ⟨image, ?_, hread image rfl⟩
          rw [hwritten, List.map_append]
          exact List.mem_append_right _ (List.mem_singleton.mpr rfl)
  case latest =>
    intro file hfile
    cases content with
    | none =>
        rw [hwritten, Option.map_none, Option.toList_none, List.append_nil] at hfile
        obtain ⟨image, hsame, hafter⟩ :=
          Files.Tree.read_of_keeps h.root hkeeps (h.latest file hfile)
        rcases hsame with rfl | ⟨_, hnew⟩
        · exact hafter
        · cases hnew
    | some image =>
        rw [hwritten, Option.map_some, Option.toList_some, List.getLast?_concat] at hfile
        cases hfile
        exact hread image rfl

theorem Filed.save (h : Filed found s) (inverted : Bool) : Filed found (s.save inverted).1 := by
  cases hdirectory : s.directory with
  | none =>
      simp only [Session.save, hdirectory]
      exact h
  | some directory =>
      rw [save_eq hdirectory]
      cases hsaving : saveImage s.files ((s.frame inverted).path s.args directory)
          ((s.frame inverted).image s.args s.caption) with
      | mk files saving =>
          have hsaves := saves_saveImage h.root hsaving
          cases saving with
          | saved =>
              refine h.of_saves hsaves ?_
              rw [written_add, entry_noted, written_add, written_files]
              simp [entry, Act.file?, hdirectory, Saving.content?]
          | spoiled format =>
              refine h.of_saves hsaves ?_
              rw [written_add, written_files]
              simp [entry, Act.file?, hdirectory, Saving.content?]
          | noDirectory above fault | failed fault =>
              refine h.of_saves hsaves ?_
              rw [written_files]
              exact (List.append_nil _).symm

theorem lasting_filed (found : FileTree) : Lasting (Filed found) where
  perform := by
    intro s op h
    refine h.of_eq ?_ (written_perform s op)
    cases op <;> rfl
  draw := by
    intro s inverted h
    refine h.of_eq rfl ?_
    rw [written_add, entry_drew, Option.toList_none, List.append_nil]
  save := fun inverted h => h.save inverted

/-! ## Whole runs -/

section Started

variable {args : CommandLine.Arguments} {size : CommandLine.TerminalSize} {directory fresh : Text}
  {fonts : Fonts}

/-- Starting a session makes a directory at most. -/
theorem filed_of_start (hs : (Session.start args size directory found fresh fonts).outcome = .ok s)
    (hroot : found.root.isDirectory = true) : Filed found s := by
  obtain ⟨_, _, _, files', _, _, hmade, rfl⟩ := parts_of_start hs
  have hkeeps : found.Keeps files' none := by
    unfold makeDirectory at hmade
    split at hmade
    · cases hmade
      exact .refl found
    · rename_i d _
      have hall := Files.Tree.keeps_makeDirectories hroot d
      split at hmade
      · rename_i hmake
        cases hmade
        rwa [hmake] at hall
      · cases hmade
  constructor
  case root => exact hkeeps.root hroot
  case kept =>
    intro path image hfound
    obtain ⟨image', hsame, hread⟩ := Files.Tree.read_of_keeps hroot hkeeps hfound
    rcases hsame with rfl | ⟨_, hnew⟩
    · exact ⟨image', .inl rfl, hread⟩
    · cases hnew
  all_goals
    rw [written_eq]
    simp [acts]

/-- **What a run has written is there, and nothing else is lost.** With a terminal or without one,
whatever is typed and whenever the time for a tick comes, a file that was there before the session
was started can still be read under its path, and has the same content unless it was written to. A
path that the run has written to leads to one of its images, and the last such path to the last
image. -/
theorem run_leaves_files
    (hs : (Session.start args size directory found fresh fonts).outcome = .ok s)
    (hroot : found.root.isDirectory = true) :
    Filed found s.headless.1 ∧ (∀ keys, Filed found (s.terminal keys).1) ∧
      ∀ v outcome, TerminalView.Reaches s v outcome → Filed found v.session := by
  have hfiled := filed_of_start hs hroot
  have hhistory : s.history = [] := by
    obtain ⟨_, _, _, _, _, _, _, rfl⟩ := parts_of_start hs
    rfl
  have hreaches : ∀ v outcome, TerminalView.Reaches s v outcome → Filed found v.session := by
    intro v outcome h
    apply (lasting_filed found).reaches _ h
    rwa [← hhistory]
  refine ⟨(lasting_filed found).headless hfiled, ?_, hreaches⟩
  intro keys
  rw [terminal_of_fresh hhistory]
  exact hreaches _ _ (TerminalView.reaches_run s keys)

end Started

end TorusAutomaton.Session
