import TorusAutomaton.Files.Tree
import TorusAutomaton.Proofs.Outcome

/-!
# Files read back

What was written under a path is read under it again. That is not plain from the start, since a path
may go through directories that the file itself lies below, and back out of them. But a file takes
no directory's place, so every directory that a path has led through is still there, though with
other things in it; the path leads the same way, and ends at the file.
-/

namespace TorusAutomaton.Files

open TorusAutomaton Text Outcome

variable {α : Type}

/-! ## Nodes -/

namespace Node

variable {node new next : Node α} {name : Text} {place : Place}

/-- There is a directory in a place. -/
def Opens (node : Node α) (place : Place) : Prop :=
  ∃ directory, node.find? place = some directory ∧ directory.isDirectory = true

theorem opens_nil : node.Opens [] ↔ node.isDirectory = true := by
  simp [Opens, find?]

theorem opens_cons :
    node.Opens (name :: place) ↔ ∃ next, node.child? name = some next ∧ next.Opens place := by
  unfold Opens
  rw [find?]
  cases node.child? name <;> simp

theorem isDirectory_of_child? (h : node.child? name = some next) : node.isDirectory = true := by
  cases node with
  | file => cases h
  | directory => rfl

theorem isDirectory_insert (node : Node α) (name : Text) (new : Node α) :
    (node.insert name new).isDirectory = node.isDirectory := by
  cases node <;> rfl

theorem lookup_filter_ne {other : Text} (h : other ≠ name) (entries : List (Text × Node α)) :
    (entries.filter fun e => e.1 != name).lookup other = entries.lookup other := by
  induction entries with
  | nil => rfl
  | cons entry rest ih =>
      obtain ⟨key, value⟩ := entry
      by_cases hkey : key = name
      · have hother : (other == key) = false := beq_eq_false_iff_ne.mpr (hkey ▸ h)
        rw [List.filter_cons_of_neg (by simp [hkey]), ih, List.lookup_cons, hother]
      · rw [List.filter_cons_of_pos (by simp [hkey]), List.lookup_cons, List.lookup_cons, ih]

theorem child?_insert_ne {other : Text} (h : other ≠ name) :
    (node.insert name new).child? other = node.child? other := by
  cases node with
  | file => rfl
  | directory entries =>
      have hother : (other == name) = false := beq_eq_false_iff_ne.mpr h
      simp only [insert, child?, List.lookup_cons, hother, lookup_filter_ne h]

/-- What is put in the place of no directory leaves every directory one. -/
theorem Opens.put {place' : Place} (h : node.Opens place') (hplace : ¬ node.Opens place)
    (new : Node α) : (node.put place new).Opens place' := by
  induction place' generalizing node place with
  | nil =>
      cases place with
      | nil => exact absurd h hplace
      | cons name rest =>
          rw [opens_nil] at h ⊢
          rw [Node.put, isDirectory_insert]
          exact h
  | cons name' rest' ih =>
      obtain ⟨next, hnext, hopens⟩ := opens_cons.mp h
      have hdirectory := isDirectory_of_child? hnext
      cases place with
      | nil => exact absurd (opens_nil.mpr hdirectory) hplace
      | cons name rest =>
          rw [Node.put]
          by_cases hname : name' = name
          · subst hname
            refine opens_cons.mpr ⟨_, child?_insert_self hdirectory _ _, ?_⟩
            rw [hnext]
            exact ih hopens fun hrest => hplace (opens_cons.mpr ⟨next, hnext, hrest⟩)
          · exact opens_cons.mpr ⟨next, (child?_insert_ne hname).trans hnext, hopens⟩

/-- What is put in the place of no directory leaves the files in other places as they are. -/
theorem find?_put_file {place' : Place} {content : α}
    (h : node.find? place' = some (.file content)) (hplace : ¬ node.Opens place)
    (hne : place' ≠ place) (new : Node α) :
    (node.put place new).find? place' = some (.file content) := by
  induction place' generalizing node place with
  | nil =>
      cases h
      cases place with
      | nil => exact absurd rfl hne
      | cons name rest => rfl
  | cons name' rest' ih =>
      rw [find?] at h
      cases hnext : node.child? name' with
      | none =>
          rw [hnext] at h
          cases h
      | some next =>
          rw [hnext] at h
          have hdirectory := isDirectory_of_child? hnext
          cases place with
          | nil => exact absurd (opens_nil.mpr hdirectory) hplace
          | cons name rest =>
              rw [Node.put, find?]
              by_cases hname : name' = name
              · subst hname
                rw [child?_insert_self hdirectory, hnext]
                refine ih h (fun hrest => hplace (opens_cons.mpr ⟨next, hnext, hrest⟩)) ?_
                exact fun hrest => hne (congrArg _ hrest)
              · rw [child?_insert_ne hname, hnext]
                exact h

/-- What is put under a name in a directory is found there. -/
theorem find?_put_self (h : node.Opens place) (name : Text) (new : Node α) :
    (node.put (place ++ [name]) new).find? (place ++ [name]) = some new := by
  induction place generalizing node with
  | nil =>
      rw [List.nil_append, Node.put, find?, child?_insert_self (opens_nil.mp h)]
      rfl
  | cons first rest ih =>
      obtain ⟨next, hnext, hopens⟩ := opens_cons.mp h
      have hdirectory := isDirectory_of_child? hnext
      rw [List.cons_append, Node.put, find?, child?_insert_self hdirectory, hnext]
      exact ih hopens

theorem find?_append (node : Node α) (place place' : Place) :
    node.find? (place ++ place') = (node.find? place).bind fun next => next.find? place' := by
  induction place generalizing node with
  | nil => rfl
  | cons name rest ih =>
      rw [List.cons_append, find?, find?]
      cases node.child? name with
      | none => rfl
      | some next => exact ih next

end Node

/-! ## Ways -/

/-- The place that a trail leads to. -/
def Trail.place (trail : Trail α) : Place := (trail.map Prod.fst).reverse

/-- The directories of a trail are in their places below a root. -/
def Trail.Leads (root : Node α) : Trail α → Prop
  | [] => root.isDirectory = true
  | (name, node) :: rest =>
    Leads root rest ∧ node.isDirectory = true ∧ root.find? (Trail.place rest ++ [name]) = some node

namespace Tree

variable {t t' : Tree α} {trail trail' : Trail α} {path name : Text} {new : Option (Place × α)}

theorem find?_place (h : trail.Leads t.root) :
    t.root.find? trail.place = some (t.here trail) ∧ (t.here trail).isDirectory = true := by
  cases trail with
  | nil => exact ⟨rfl, h⟩
  | cons entry rest =>
      obtain ⟨name, node⟩ := entry
      obtain ⟨_, hdirectory, hfind⟩ := h
      refine ⟨?_, hdirectory⟩
      rw [Trail.place, List.map_cons, List.reverse_cons]
      exact hfind

theorem child?_here (h : trail.Leads t.root) (name : Text) :
    (t.here trail).child? name = t.root.find? (trail.place ++ [name]) := by
  rw [Node.find?_append, (find?_place h).1, Option.bind_some, Node.find?]
  cases (t.here trail).child? name <;> rfl

/-- Two trees in which the same way leads through directories, perhaps with other things in them. -/
structure SameWay (t t' : Tree α) (trail trail' : Trail α) : Prop where
  names : trail'.map Prod.fst = trail.map Prod.fst
  leads : trail.Leads t.root
  leads' : trail'.Leads t'.root

theorem SameWay.place (h : SameWay t t' trail trail') : trail'.place = trail.place :=
  congrArg List.reverse h.names

theorem SameWay.tail (h : SameWay t t' trail trail') : SameWay t t' trail.tail trail'.tail where
  names := by rw [List.map_tail, List.map_tail, h.names]
  leads := by
    cases trail with
    | nil => exact h.leads
    | cons entry rest => exact h.leads.1
  leads' := by
    cases trail' with
    | nil => exact h.leads'
    | cons entry rest => exact h.leads'.1

/-- Nothing is lost from one tree to the next: directories stay, and so do files with their
content, but for one that gets a `new` content in its place. -/
structure Keeps (t t' : Tree α) (new : Option (Place × α)) : Prop where
  present : t'.present = t.present
  directories : ∀ place, t.root.Opens place → t'.root.Opens place
  files : ∀ place content, t.root.find? place = some (.file content) → ∃ content',
    (content' = content ∨ new = some (place, content')) ∧
      t'.root.find? place = some (.file content')

theorem Keeps.refl (t : Tree α) : Keeps t t none where
  present := rfl
  directories := fun _ h => h
  files := fun _ content h => ⟨content, .inl rfl, h⟩

/-- Where nothing is new at first, what follows is all that is new. -/
theorem Keeps.trans {t'' : Tree α} (h : Keeps t t' none)
    (h' : Keeps t' t'' new) : Keeps t t'' new where
  present := h'.present.trans h.present
  directories := fun place hopens => h'.directories place (h.directories place hopens)
  files := by
    intro place content hfind
    obtain ⟨_, hsame, hfind'⟩ := h.files place content hfind
    rcases hsame with rfl | hnew
    · exact h'.files place _ hfind'
    · cases hnew

theorem Keeps.root (h : Keeps t t' new)
    (hroot : t.root.isDirectory = true) : t'.root.isDirectory = true :=
  Node.opens_nil.mp (h.directories [] (Node.opens_nil.mpr hroot))

theorem enter_eq (t : Tree α) (trail : Trail α) (name : Text) :
    t.enter trail name =
      if Path.isIdle name then .ok trail
      else if name = ['.', '.'] then .ok trail.tail
      else if maxName < byteLength name then .error .tooLong
      else
        match (t.here trail).child? name with
        | none => .error .missing
        | some node =>
          if node.isDirectory then .ok ((name, node) :: trail) else .error .notDirectory := by
  unfold enter look
  split
  · rfl
  · split
    · rfl
    · split
      · rfl
      · show (match (t.here trail).child? name with
          | none => throw .missing
          | some node => _ : Except Fault (Trail α)) = _
        cases (t.here trail).child? name with
        | none => rfl
        | some node => rfl

/-- A step of the way leads on in the second tree too: the directory of that name is still one,
whatever it has become. -/
theorem SameWay.enter (h : SameWay t t' trail trail') (hkeeps : Keeps t t' new) {next : Trail α}
    (henter : t.enter trail name = .ok next) :
    ∃ next', t'.enter trail' name = .ok next' ∧ SameWay t t' next next' := by
  rw [enter_eq] at henter ⊢
  by_cases hidle : Path.isIdle name = true
  · rw [if_pos hidle] at henter ⊢
    cases henter
    exact ⟨trail', rfl, h⟩
  rw [if_neg hidle] at henter ⊢
  by_cases hback : name = ['.', '.']
  · rw [if_pos hback] at henter ⊢
    cases henter
    exact ⟨trail'.tail, rfl, h.tail⟩
  rw [if_neg hback] at henter ⊢
  by_cases hlong : maxName < byteLength name
  · rw [if_pos hlong] at henter
    cases henter
  rw [if_neg hlong] at henter ⊢
  cases hchild : (t.here trail).child? name with
  | none =>
      rw [hchild] at henter
      cases henter
  | some node =>
      rw [hchild] at henter
      by_cases hdirectory : node.isDirectory = true
      · simp only [if_pos hdirectory] at henter
        cases henter
        rw [child?_here h.leads] at hchild
        obtain ⟨node', hnode', hdirectory'⟩ := hkeeps.directories _ ⟨node, hchild, hdirectory⟩
        rw [← h.place] at hnode'
        refine ⟨(name, node') :: trail', ?_, ?_, ?_, ?_⟩
        · simp only [child?_here h.leads', hnode', if_pos hdirectory']
        · rw [List.map_cons, List.map_cons, h.names]
        · exact ⟨h.leads, hdirectory, hchild⟩
        · exact ⟨h.leads', hdirectory', hnode'⟩
      · simp only [if_neg hdirectory] at henter
        cases henter

theorem SameWay.enters (h : SameWay t t' trail trail') (hkeeps : Keeps t t' new) {names : List Text}
    {next : Trail α} (hfold : names.foldlM t.enter trail = .ok next) :
    ∃ next', names.foldlM t'.enter trail' = .ok next' ∧ SameWay t t' next next' := by
  induction names generalizing trail trail' with
  | nil =>
      cases hfold
      exact ⟨trail', rfl, h⟩
  | cons name rest ih =>
      rw [List.foldlM_cons] at hfold
      obtain ⟨first, hfirst, hrest⟩ := bind_eq_ok_iff.mp hfold
      obtain ⟨first', hfirst', hsame⟩ := h.enter hkeeps hfirst
      obtain ⟨next', hnext', hsame'⟩ := ih hsame hrest
      refine ⟨next', ?_, hsame'⟩
      rw [List.foldlM_cons, hfirst', ok_bind]
      exact hnext'

/-! ## Paths -/

theorem locate_eq_ok_iff {found : Target α} :
    t.locate path = .ok found ↔
      ¬ path.contains '\x00' = true ∧ ¬ maxPath < byteLength path ∧ ¬ path.isEmpty = true ∧
        ∃ first, t.origin path = .ok first ∧
          ∃ directory, (pathNames path).dropLast.foldlM t.enter first = .ok directory ∧
            target path directory = found := by
  simp only [locate, throw_eq_error, error_bind, pure_eq_ok, check_eq_ok_iff, bind_eq_ok_iff,
    Except.ok.injEq]

/-- A path leads the same way through two trees with the same present directory. -/
theorem SameWay.target (h : SameWay t t' trail trail') (path : Text) :
    ∃ directory directory' found slashed,
      Tree.target path trail = ⟨directory, found, slashed⟩ ∧
      Tree.target path trail' = ⟨directory', found, slashed⟩ ∧
      SameWay t t' directory directory' := by
  unfold Tree.target
  cases (pathNames path).getLast? with
  | none => exact ⟨trail, trail', none, _, rfl, rfl, h⟩
  | some name =>
      by_cases hpoint : name = ['.']
      · simp only [if_pos hpoint]
        exact ⟨trail, trail', none, _, rfl, rfl, h⟩
      by_cases hback : name = ['.', '.']
      · simp only [if_neg hpoint, if_pos hback]
        exact ⟨trail.tail, trail'.tail, none, _, rfl, rfl, h.tail⟩
      · simp only [if_neg hpoint, if_neg hback]
        exact ⟨trail, trail', some name, _, rfl, rfl, h⟩

theorem locate_of_keeps (hroot : t.root.isDirectory = true) (hkeeps : Keeps t t' new)
    {directory : Trail α} {found : Option Text} {slashed : Bool}
    (hlocate : t.locate path = .ok ⟨directory, found, slashed⟩) :
    ∃ directory', t'.locate path = .ok ⟨directory', found, slashed⟩ ∧
      SameWay t t' directory directory' := by
  have hstart : SameWay t t' [] [] := ⟨rfl, hroot, hkeeps.root hroot⟩
  obtain ⟨hnul, hlong, hempty, first, hfirst, last, hlast, hend⟩ := locate_eq_ok_iff.mp hlocate
  have horigin : ∃ first', t'.origin path = .ok first' ∧ SameWay t t' first first' := by
    rw [origin] at hfirst ⊢
    by_cases hrooted : Path.isRooted path = true
    · rw [if_pos hrooted] at hfirst ⊢
      cases hfirst
      exact ⟨[], rfl, hstart⟩
    · rw [if_neg hrooted] at hfirst ⊢
      rw [hkeeps.present]
      exact hstart.enters hkeeps hfirst
  obtain ⟨first', hfirst', hsame⟩ := horigin
  obtain ⟨last', hlast', hsame'⟩ := hsame.enters hkeeps hlast
  obtain ⟨_, directory', _, _, heq, heq', hsame''⟩ := hsame'.target path
  cases hend.symm.trans heq
  exact ⟨directory', locate_eq_ok_iff.mpr
    ⟨hnul, hlong, hempty, first', hfirst', last', hlast', heq'⟩, hsame''⟩

/-- A path leads through directories that are there. -/
theorem leads_of_locate (hroot : t.root.isDirectory = true) {found : Target α}
    (hlocate : t.locate path = .ok found) : found.directory.Leads t.root := by
  obtain ⟨_, _, hsame⟩ := locate_of_keeps hroot (Keeps.refl t) hlocate
  exact hsame.leads

/-- A file is written under a name that is no directory's. -/
theorem of_write {content : α} (h : t.write path content = .ok t') :
    ∃ directory name, t.locate path = .ok ⟨directory, some name, false⟩ ∧
      ¬ maxName < byteLength name ∧
      (∀ node, (t.here directory).child? name = some node → ¬ node.isDirectory = true) ∧
      t' = t.put directory name (.file content) := by
  obtain ⟨⟨directory, found, slashed⟩, hlocate, h⟩ := bind_eq_ok_iff.mp h
  cases found with
  | none => cases h
  | some name =>
      cases slashed with
      | true => cases h
      | false =>
          obtain ⟨node, hlook, h⟩ := bind_eq_ok_iff.mp h
          obtain ⟨hshort, hnode⟩ := check_eq_ok_iff.mp hlook
          cases hnode
          refine ⟨directory, name, hlocate, hshort, ?_⟩
          dsimp only at h
          cases hchild : (t.here directory).child? name with
          | none =>
              rw [hchild] at h
              cases h
              exact ⟨fun _ hnone => (Option.some_ne_none _ hnone.symm).elim, rfl⟩
          | some node =>
              cases node with
              | directory =>
                  rw [hchild] at h
                  cases h
              | file =>
                  rw [hchild] at h
                  cases h
                  exact ⟨fun _ hfile => by cases hfile; exact Bool.false_ne_true, rfl⟩

theorem read_eq_ok_iff (hroot : t.root.isDirectory = true) {content : α} :
    t.read path = .ok content ↔
      ∃ directory name, t.locate path = .ok ⟨directory, some name, false⟩ ∧
        ¬ maxName < byteLength name ∧
        (t.here directory).child? name = some (.file content) := by
  constructor
  · intro h
    obtain ⟨node, hfind, h⟩ := bind_eq_ok_iff.mp h
    cases node with
    | directory => cases h
    | file =>
        cases h
        obtain ⟨⟨directory, found, slashed⟩, hlocate, hfind⟩ := bind_eq_ok_iff.mp hfind
        cases found with
        | none =>
            -- A path that leads to a directory itself leads to no file.
            have hhere := (find?_place (leads_of_locate hroot hlocate)).2
            rw [Except.ok.inj hfind] at hhere
            cases hhere
        | some name =>
            obtain ⟨found, hlook, hfind⟩ := bind_eq_ok_iff.mp hfind
            obtain ⟨hshort, hchild⟩ := check_eq_ok_iff.mp hlook
            cases hchild
            dsimp only at hfind
            cases hchild : (t.here directory).child? name with
            | none =>
                rw [hchild] at hfind
                cases hfind
            | some node =>
                rw [hchild] at hfind
                cases node with
                | directory => cases slashed <;> cases hfind
                | file =>
                    cases slashed with
                    | true => cases hfind
                    | false =>
                        cases hfind
                        exact ⟨directory, name, hlocate, hshort, hchild⟩
  · rintro ⟨directory, name, hlocate, hshort, hchild⟩
    have hfind : t.find path = .ok (.file content) := by
      rw [find, hlocate, ok_bind]
      simp only [look, if_neg hshort, ok_bind, hchild, Bool.false_and, Bool.false_eq_true,
        if_false, pure_eq_ok]
    rw [read, hfind]
    rfl

/-- A file that is put where there is no directory loses nothing but the file that was there. -/
theorem keeps_put {directory : Trail α} (hleads : directory.Leads t.root)
    (hchild : ∀ node, (t.here directory).child? name = some node → ¬ node.isDirectory = true)
    (content : α) :
    Keeps t (t.put directory name (.file content)) (some (directory.place ++ [name], content)) := by
  have hfree : ¬ t.root.Opens (directory.place ++ [name]) := by
    rintro ⟨node, hnode, hdirectory⟩
    exact hchild node ((child?_here hleads name).trans hnode) hdirectory
  refine ⟨present_put _ _ _ _, fun place hplace => hplace.put hfree _, ?_⟩
  intro place old hold
  by_cases hplace : place = directory.place ++ [name]
  · subst hplace
    exact ⟨content, .inr rfl, Node.find?_put_self ⟨_, find?_place hleads⟩ name _⟩
  · exact ⟨old, .inl rfl, Node.find?_put_file hold hfree hplace _⟩

theorem keeps_put_empty {directory : Trail α} (hleads : directory.Leads t.root)
    (hchild : (t.here directory).child? name = none) :
    Keeps t (t.put directory name .empty) none := by
  have hnothing : t.root.find? (directory.place ++ [name]) = none :=
    (child?_here hleads name).symm.trans hchild
  have hfree : ¬ t.root.Opens (directory.place ++ [name]) := by
    rintro ⟨node, hnode, _⟩
    cases hnothing.symm.trans hnode
  refine ⟨present_put _ _ _ _, fun place hplace => hplace.put hfree _, ?_⟩
  intro place content hfile
  refine ⟨content, .inl rfl, Node.find?_put_file hfile hfree ?_ _⟩
  rintro rfl
  cases hnothing.symm.trans hfile

/-! ## Operations -/

/-- Writing a file loses nothing but what was in the file before. -/
theorem keeps_write (hroot : t.root.isDirectory = true) {content : α}
    (h : t.write path content = .ok t') : ∃ place, Keeps t t' (some (place, content)) := by
  obtain ⟨directory, name, hlocate, _, hchild, rfl⟩ := of_write h
  exact ⟨_, keeps_put (leads_of_locate hroot hlocate) hchild content⟩

/-- A file that was written is read back under its path. -/
theorem read_write (hroot : t.root.isDirectory = true) {content : α}
    (h : t.write path content = .ok t') : t'.read path = .ok content := by
  obtain ⟨directory, name, hlocate, hshort, hchild, rfl⟩ := of_write h
  have hleads : directory.Leads t.root := leads_of_locate hroot hlocate
  have hkeeps := keeps_put hleads hchild content
  obtain ⟨directory', hlocate', hsame⟩ := locate_of_keeps hroot hkeeps hlocate
  refine (read_eq_ok_iff (hkeeps.root hroot)).mpr ⟨directory', name, hlocate', hshort, ?_⟩
  rw [child?_here hsame.leads', hsame.place]
  exact Node.find?_put_self ⟨_, find?_place hleads⟩ name _

/-- A file is read under its path as long as nothing is lost. -/
theorem read_of_keeps (hroot : t.root.isDirectory = true) (hkeeps : Keeps t t' new) {content : α}
    (h : t.read path = .ok content) :
    ∃ content', (content' = content ∨ ∃ place, new = some (place, content')) ∧
      t'.read path = .ok content' := by
  obtain ⟨directory, name, hlocate, hshort, hchild⟩ := (read_eq_ok_iff hroot).mp h
  have hleads : directory.Leads t.root := leads_of_locate hroot hlocate
  obtain ⟨directory', hlocate', hsame⟩ := locate_of_keeps hroot hkeeps hlocate
  rw [child?_here hleads] at hchild
  obtain ⟨content', hcontent, hfind⟩ := hkeeps.files _ _ hchild
  rw [← hsame.place, ← child?_here hsame.leads'] at hfind
  exact ⟨content', hcontent.imp_right fun hnew => ⟨_, hnew⟩,
    (read_eq_ok_iff (hkeeps.root hroot)).mpr ⟨directory', name, hlocate', hshort, hfind⟩⟩

theorem keeps_makeDirectory (hroot : t.root.isDirectory = true)
    (h : t.makeDirectory path = .ok t') : Keeps t t' none := by
  obtain ⟨⟨directory, found, slashed⟩, hlocate, h⟩ := bind_eq_ok_iff.mp h
  cases found with
  | none => cases h
  | some name =>
      obtain ⟨found, hlook, h⟩ := bind_eq_ok_iff.mp h
      obtain ⟨_, hfound⟩ := check_eq_ok_iff.mp hlook
      cases hfound
      dsimp only at h
      cases hchild : (t.here directory).child? name with
      | some node =>
          rw [hchild] at h
          cases h
      | none =>
          rw [hchild] at h
          cases h
          exact keeps_put_empty (leads_of_locate hroot hlocate) hchild

/-- Making directories loses nothing, not even if a fault follows. -/
theorem keeps_makeAll (hroot : t.root.isDirectory = true) (paths : List Text) :
    Keeps t (t.makeAll paths).1 none := by
  induction paths generalizing t with
  | nil => exact Keeps.refl t
  | cons path above ih =>
      have hkept : ∀ fault : Fault, Keeps t
          (if t.isDirectory path then (t, none) else (t, some fault) : Tree α × Option Fault).1
          none := by
        intro fault
        split <;> exact Keeps.refl t
      rw [makeAll]
      split
      · exact keeps_makeDirectory hroot ‹_›
      · have habove := ih hroot
        split
        · rename_i hmade
          rw [hmade] at habove
          exact habove
        · rename_i hmade
          rw [hmade] at habove
          split
          · exact habove.trans (keeps_makeDirectory (habove.root hroot) ‹_›)
          · split <;> exact habove
      · exact hkept _

theorem keeps_makeDirectories (hroot : t.root.isDirectory = true) (path : Text) :
    Keeps t (t.makeDirectories path).1 none :=
  keeps_makeAll hroot _

end Tree

end TorusAutomaton.Files
