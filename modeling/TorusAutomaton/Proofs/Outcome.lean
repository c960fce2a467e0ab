/-!
# Outcomes

Readers and checks are built from `Except`. What such a computation says when it succeeds is taken
apart here once, one step at a time, so that no proof has to open a whole sequence of steps.
-/

namespace TorusAutomaton.Outcome

variable {ε δ α β : Type}

@[simp] theorem ok_bind (a : α) (f : α → Except ε β) : (Except.ok a >>= f) = f a := rfl

@[simp] theorem error_bind (e : ε) (f : α → Except ε β) : (Except.error e >>= f) = .error e := rfl

@[simp] theorem pure_eq_ok (a : α) : (pure a : Except ε α) = .ok a := rfl

@[simp] theorem throw_eq_error (e : ε) : (throw e : Except ε α) = .error e := rfl

/-- A sequence succeeds when its first step does and the rest does with its result. -/
theorem bind_eq_ok_iff {x : Except ε α} {f : α → Except ε β} {b : β} :
    (x >>= f) = .ok b ↔ ∃ a, x = .ok a ∧ f a = .ok b := by
  cases x with
  | ok a => simp
  | error e => simp

/-- A sequence fails when its first step does, or the rest does with its result. -/
theorem bind_eq_error_iff {x : Except ε α} {f : α → Except ε β} {e : ε} :
    (x >>= f) = .error e ↔ x = .error e ∨ ∃ a, x = .ok a ∧ f a = .error e := by
  cases x with
  | ok a => simp
  | error e' => simp

theorem map_eq_ok_iff {x : Except ε α} {f : α → β} {b : β} :
    x.map f = .ok b ↔ ∃ a, x = .ok a ∧ f a = b := by
  cases x with
  | ok a => simp [Except.map]
  | error e => simp [Except.map]

@[simp] theorem mapError_ok (f : ε → δ) (a : α) : (Except.ok a).mapError f = .ok a := rfl

@[simp] theorem mapError_error (f : ε → δ) (e : ε) :
    (Except.error e : Except ε α).mapError f = .error (f e) := rfl

/-- Saying the failures of a sequence in other words is saying those of its steps so. -/
theorem mapError_bind (x : Except ε α) (f : α → Except ε β) (g : ε → δ) :
    (x >>= f).mapError g = x.mapError g >>= fun a => (f a).mapError g := by
  cases x <;> rfl

@[simp] theorem mapError_eq_ok_iff {x : Except ε α} {f : ε → δ} {a : α} :
    x.mapError f = .ok a ↔ x = .ok a := by
  cases x with
  | ok b => simp
  | error e => simp

theorem mapError_eq_error_iff {x : Except ε α} {f : ε → δ} {d : δ} :
    x.mapError f = .error d ↔ ∃ e, x = .error e ∧ f e = d := by
  cases x with
  | ok a => simp
  | error e => simp

/-- A computation that does not fail succeeds. -/
theorem exists_ok_iff {x : Except ε α} : (∃ a, x = .ok a) ↔ ∀ e, x ≠ .error e := by
  cases x with
  | ok a => simp
  | error e => simp

theorem toOption_eq_some_iff {x : Except ε α} {a : α} : x.toOption = some a ↔ x = .ok a := by
  cases x <;> simp [Except.toOption]

/-- A check in front of a computation that succeeds was passed. -/
theorem check_eq_ok_iff {p : Prop} [Decidable p] {e : ε} {x : Except ε β} {b : β} :
    (if p then .error e else x) = .ok b ↔ ¬ p ∧ x = .ok b := by
  by_cases h : p <;> simp [h]

/-- What every step of a loop keeps, the loop keeps. -/
theorem foldlM_keeps {P : β → Prop} {f : β → α → Except ε β}
    (hstep : ∀ b a b', P b → f b a = .ok b' → P b') {l : List α} {b b' : β} (hb : P b)
    (h : l.foldlM f b = .ok b') : P b' := by
  induction l generalizing b with
  | nil =>
      cases h
      exact hb
  | cons a rest ih =>
      rw [List.foldlM_cons] at h
      obtain ⟨b₁, hfirst, hrest⟩ := bind_eq_ok_iff.mp h
      exact ih (hstep b a b₁ hb hfirst) hrest

/-- A loop over a list succeeds when it does at every element. -/
theorem mapM_eq_ok_iff {f : α → Except ε β} {l : List α} {results : List β} :
    l.mapM f = .ok results ↔ l.map f = results.map .ok := by
  induction l generalizing results with
  | nil => cases results <;> simp
  | cons a rest ih =>
      rw [List.mapM_cons]
      cases results with
      | nil => simp [bind_eq_ok_iff]
      | cons b others => simp [bind_eq_ok_iff, ih]

/-- A loop over a list fails at the first element where it does, as it does there. -/
theorem mapM_eq_error_iff {f : α → Except ε β} {l : List α} {e : ε} :
    l.mapM f = .error e ↔
      ∃ before bad after, l = before ++ bad :: after ∧ (∀ a ∈ before, ∃ b, f a = .ok b) ∧
        f bad = .error e := by
  induction l with
  | nil => simp
  | cons a rest ih =>
      rw [List.mapM_cons, bind_eq_error_iff]
      constructor
      · rintro (herror | ⟨b, hok, hrest⟩)
        · exact ⟨[], a, rest, rfl, by simp, herror⟩
        · have hrest : rest.mapM f = .error e := by simpa [bind_eq_error_iff] using hrest
          obtain ⟨before, bad, after, rfl, hbefore, hbad⟩ := ih.mp hrest
          refine ⟨a :: before, bad, after, rfl, ?_, hbad⟩
          intro c hc
          rcases List.mem_cons.mp hc with rfl | hc
          · exact ⟨b, hok⟩
          · exact hbefore c hc
      · rintro ⟨before, bad, after, hsplit, hbefore, hbad⟩
        cases before with
        | nil =>
            cases hsplit
            exact .inl hbad
        | cons c before =>
            cases hsplit
            obtain ⟨b, hok⟩ := hbefore a List.mem_cons_self
            have hrest : (before ++ bad :: after).mapM f = .error e :=
              ih.mpr ⟨before, bad, after, rfl,
                fun d hd => hbefore d (List.mem_cons_of_mem _ hd), hbad⟩
            exact .inr ⟨b, hok, bind_eq_error_iff.mpr (.inl hrest)⟩

end TorusAutomaton.Outcome
