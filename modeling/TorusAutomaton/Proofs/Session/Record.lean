import TorusAutomaton.Session.Basic

/-!
# What a history records

A run on a terminal remembers the last answer about inversion with its tick, and the last tick that
was saved. That is enough to ask about every tick at most once, to show all its frames with the one
answer, and to save it at most once. The reason is an invariant between what is remembered and the
history of the session; there is one lemma here for every kind of act that is added.
-/

namespace TorusAutomaton.Session

open TorusAutomaton

/-! ## Reading a history -/

/-- The tick that an act asks about. -/
def Act.askedTick? : Act → Option Int
  | .asked tick _ => some tick
  | _ => none

/-- The frame that an act leaves in a file, be the file empty or not. -/
def Act.filed? : Act → Option Frame
  | .saved f | .spoiled f => some f
  | _ => none

/-- The frame that an act draws on the terminal. -/
def Act.drawn? : Act → Option Frame
  | .drew f => some f
  | _ => none

/-- The frame that an act shows, on the terminal or in a file. -/
def Act.frame? : Act → Option Frame
  | .drew f | .saved f | .spoiled f => some f
  | _ => none

/-- A history in which no tick is asked about twice and all frames of a tick are shown with its
answer, and in which files are only written for selected ticks of a simulation that runs, and for
later and later ticks. The history starts with the latest act. -/
structure Orderly (history : List Act) : Prop where
  askedOnce : (history.filterMap Act.askedTick?).Nodup
  answered : ∀ act ∈ history, ∀ f ∈ act.frame?, .asked f.sim.tick f.inverted ∈ history
  filedDue : ∀ act ∈ history, ∀ f ∈ act.filed?, f.sim.shouldSave = true
  increasing : ((history.filterMap Act.filed?).map fun f => f.sim.tick).Pairwise (· > ·)

/-- There is one answer for a tick that is asked about once. -/
theorem answer_unique {history : List Act} (h : (history.filterMap Act.askedTick?).Nodup)
    {tick : Int} {i j : Bool} (hi : .asked tick i ∈ history) (hj : .asked tick j ∈ history) :
    i = j := by
  induction history with
  | nil => cases hi
  | cons act rest ih =>
      have hmem : ∀ k, .asked tick k ∈ rest → tick ∈ rest.filterMap Act.askedTick? :=
        fun k hk => List.mem_filterMap.mpr ⟨_, hk, rfl⟩
      rcases List.mem_cons.mp hi with rfl | hirest
      · obtain ⟨hnew, _⟩ := List.nodup_cons.mp h
        rcases List.mem_cons.mp hj with hsame | hjrest
        · cases hsame
          rfl
        · exact absurd (hmem j hjrest) hnew
      · rcases List.mem_cons.mp hj with rfl | hjrest
        · obtain ⟨hnew, _⟩ := List.nodup_cons.mp h
          exact absurd (hmem i hirest) hnew
        · -- Both answers are older than the latest act, which may have been a question itself.
          apply ih _ hirest hjrest
          cases hact : act.askedTick? with
          | none => rwa [List.filterMap_cons_none hact] at h
          | some t =>
              rw [List.filterMap_cons_some hact] at h
              exact (List.nodup_cons.mp h).2

/-- What is remembered of a history at a tick: the last answer and the tick it was given for, and
the last tick that was saved. -/
structure Remembers (shown : Option Int) (inverted : Bool) (saved : Option Int) (tick : Int)
    (history : List Act) : Prop extends Orderly history where
  shownAsked : ∀ t ∈ shown, .asked t inverted ∈ history
  asked : ∀ t answer, .asked t answer ∈ history → t < tick ∨ t = tick ∧ shown = some tick
  savedFiled : ∀ t ∈ saved, ∃ f, .saved f ∈ history ∧ f.sim.tick = t
  filed : ∀ act ∈ history, ∀ f ∈ act.filed?,
    f.sim.tick < tick ∨ f.sim.tick = tick ∧ saved = some tick

theorem orderly_nil : Orderly [] where
  askedOnce := List.nodup_nil
  answered := by simp
  filedDue := by simp
  increasing := List.Pairwise.nil

/-- An act keeps a history orderly if it asks about a new tick or none, shows a frame with the
answer that was given for it or none, and files one that is due and later than all before or
none. -/
theorem Orderly.cons {history : List Act} (h : Orderly history) {act : Act}
    (hasked : ∀ tick ∈ act.askedTick?, tick ∉ history.filterMap Act.askedTick?)
    (hanswered : ∀ f ∈ act.frame?, .asked f.sim.tick f.inverted ∈ history)
    (hdue : ∀ f ∈ act.filed?, f.sim.shouldSave = true)
    (hlater : ∀ f ∈ act.filed?, ∀ old ∈ history, ∀ g ∈ old.filed?, g.sim.tick < f.sim.tick) :
    Orderly (act :: history) where
  askedOnce := by
    cases hact : act.askedTick? with
    | none =>
        rw [List.filterMap_cons_none hact]
        exact h.askedOnce
    | some tick =>
        rw [List.filterMap_cons_some hact]
        exact List.nodup_cons.mpr ⟨hasked tick hact, h.askedOnce⟩
  answered := by
    intro act' hact f hf
    apply List.mem_cons_of_mem
    rcases List.mem_cons.mp hact with rfl | hact
    · exact hanswered f hf
    · exact h.answered act' hact f hf
  filedDue := by
    intro act' hact f hf
    rcases List.mem_cons.mp hact with rfl | hact
    · exact hdue f hf
    · exact h.filedDue act' hact f hf
  increasing := by
    cases hact : act.filed? with
    | none =>
        rw [List.filterMap_cons_none hact]
        exact h.increasing
    | some f =>
        rw [List.filterMap_cons_some hact, List.map_cons, List.pairwise_cons]
        refine ⟨?_, h.increasing⟩
        intro t ht
        obtain ⟨g, hg, rfl⟩ := List.mem_map.mp ht
        obtain ⟨old, hold, hg⟩ := List.mem_filterMap.mp hg
        exact hlater f hact old hold g hg

namespace Remembers

theorem start (tick : Int) : Remembers none false none tick [] where
  toOrderly := orderly_nil
  shownAsked := by simp
  asked := by simp
  savedFiled := by simp
  filed := by simp

variable {shown saved : Option Int} {inverted : Bool} {tick : Int} {history : List Act}

/-- Nothing that is remembered gets wrong when time goes on. -/
theorem later (h : Remembers shown inverted saved tick history) {tick' : Int}
    (hlater : tick ≤ tick') : Remembers shown inverted saved tick' history where
  toOrderly := h.toOrderly
  shownAsked := h.shownAsked
  asked := by
    intro t answer ht
    rcases Int.lt_or_eq_of_le hlater with hlt | rfl
    · rcases h.asked t answer ht with hbefore | ⟨rfl, _⟩
      · exact .inl (Int.lt_trans hbefore hlt)
      · exact .inl hlt
    · exact h.asked t answer ht
  savedFiled := h.savedFiled
  filed := by
    intro act hact f hf
    rcases Int.lt_or_eq_of_le hlater with hlt | rfl
    · rcases h.filed act hact f hf with hbefore | ⟨hnow, _⟩
      · exact .inl (Int.lt_trans hbefore hlt)
      · exact .inl (hnow ▸ hlt)
    · exact h.filed act hact f hf

/-- An act that neither asks nor leaves a file changes nothing, if the frame that it shows is shown
with the answer that was given for it. -/
theorem add (h : Remembers shown inverted saved tick history) {act : Act}
    (hasked : act.askedTick? = none) (hfiled : act.filed? = none)
    (hanswered : ∀ f ∈ act.frame?, .asked f.sim.tick f.inverted ∈ history) :
    Remembers shown inverted saved tick (act :: history) where
  toOrderly := by
    apply h.toOrderly.cons _ hanswered
    · simp [hfiled]
    · simp [hfiled]
    · simp [hasked]
  shownAsked := fun t ht => List.mem_cons_of_mem _ (h.shownAsked t ht)
  asked := by
    intro t answer ht
    rcases List.mem_cons.mp ht with rfl | ht
    · cases hasked
    · exact h.asked t answer ht
  savedFiled := by
    intro t ht
    obtain ⟨f, hf, htick⟩ := h.savedFiled t ht
    exact ⟨f, List.mem_cons_of_mem _ hf, htick⟩
  filed := by
    intro act' hact f hf
    rcases List.mem_cons.mp hact with rfl | hact
    · cases hfiled.symm.trans hf
    · exact h.filed act' hact f hf

theorem note (h : Remembers shown inverted saved tick history) (event : Journal.Event) :
    Remembers shown inverted saved tick (.noted event :: history) :=
  h.add rfl rfl (by rintro f ⟨⟩)

/-- A frame of the present tick is drawn with the answer that was given for it. -/
theorem draw (h : Remembers shown inverted saved tick history) (hshown : shown = some tick)
    {f : Frame} (htick : f.sim.tick = tick) (hinverted : f.inverted = inverted) :
    Remembers shown inverted saved tick (.drew f :: history) := by
  apply h.add rfl rfl
  rintro g ⟨⟩
  rw [htick, hinverted]
  exact h.shownAsked tick hshown

/-- A tick that was not the last one asked about has never been asked about. -/
theorem ask (h : Remembers shown inverted saved tick history) (hshown : shown ≠ some tick)
    (answer : Bool) :
    Remembers (some tick) answer saved tick (.asked tick answer :: history) where
  toOrderly := by
    apply h.toOrderly.cons _ (by rintro f ⟨⟩) (by rintro f ⟨⟩) (by rintro f ⟨⟩)
    rintro t ⟨⟩ hmem
    obtain ⟨act, hact, hasked⟩ := List.mem_filterMap.mp hmem
    cases act with
    | asked t old =>
        cases hasked
        -- A question about the present tick would be remembered.
        rcases h.asked _ old hact with hbefore | ⟨_, hnow⟩
        · exact absurd hbefore (Int.lt_irrefl _)
        · exact hshown hnow
    | _ => cases hasked
  shownAsked := by
    rintro t ⟨⟩
    exact List.mem_cons_self
  asked := by
    intro t old ht
    rcases List.mem_cons.mp ht with hnew | ht
    · cases hnew
      exact .inr ⟨rfl, rfl⟩
    · rcases h.asked t old ht with hbefore | ⟨_, hnow⟩
      · exact .inl hbefore
      · exact absurd hnow hshown
  savedFiled := by
    intro t ht
    obtain ⟨f, hf, htick⟩ := h.savedFiled t ht
    exact ⟨f, List.mem_cons_of_mem _ hf, htick⟩
  filed := by
    intro act hact f hf
    rcases List.mem_cons.mp hact with rfl | hact
    · cases hf
    · exact h.filed act hact f hf

/-- A file for the present tick, which was not the last one saved, leaves the history orderly. -/
theorem file (h : Remembers shown inverted saved tick history) (hshown : shown = some tick)
    (hsaved : saved ≠ some tick) {f : Frame} (htick : f.sim.tick = tick)
    (hinverted : f.inverted = inverted) (hdue : f.sim.shouldSave = true) {act : Act}
    (hact : act = .saved f ∨ act = .spoiled f) : Orderly (act :: history) := by
  have hfiled : act.filed? = some f := by
    rcases hact with rfl | rfl <;> rfl
  have hframe : act.frame? = some f := by
    rcases hact with rfl | rfl <;> rfl
  have hasked : act.askedTick? = none := by
    rcases hact with rfl | rfl <;> rfl
  apply h.toOrderly.cons
  · simp [hasked]
  · intro g hg
    cases hframe.symm.trans hg
    rw [htick, hinverted]
    exact h.shownAsked tick hshown
  · intro g hg
    cases hfiled.symm.trans hg
    exact hdue
  · intro g hg old hold g' hg'
    cases hfiled.symm.trans hg
    rw [htick]
    rcases h.filed old hold g' hg' with hbefore | ⟨_, hnow⟩
    · exact hbefore
    · exact absurd hnow hsaved

/-- A saved tick is remembered. -/
theorem save (h : Remembers shown inverted saved tick history) (hshown : shown = some tick)
    (hsaved : saved ≠ some tick) {f : Frame} (htick : f.sim.tick = tick)
    (hinverted : f.inverted = inverted) (hdue : f.sim.shouldSave = true) :
    Remembers shown inverted (some tick) tick (.saved f :: history) where
  toOrderly := h.file hshown hsaved htick hinverted hdue (.inl rfl)
  shownAsked := fun t ht => List.mem_cons_of_mem _ (h.shownAsked t ht)
  asked := by
    intro t answer ht
    rcases List.mem_cons.mp ht with hfiled | ht
    · cases hfiled
    · exact h.asked t answer ht
  savedFiled := by
    rintro t ⟨⟩
    exact ⟨f, List.mem_cons_self, htick⟩
  filed := by
    intro act hact g hg
    rcases List.mem_cons.mp hact with rfl | hact
    · cases hg
      exact .inr ⟨htick, rfl⟩
    · rcases h.filed act hact g hg with hbefore | ⟨hnow, _⟩
      · exact .inl hbefore
      · exact .inr ⟨hnow, rfl⟩

end Remembers

end TorusAutomaton.Session
