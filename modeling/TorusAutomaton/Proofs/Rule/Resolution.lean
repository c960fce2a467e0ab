import TorusAutomaton.Proofs.Rule.Segments

/-!
# Rules without chance

Writing down a rule that was read settles what was left to chance. The text that is written has the
segments of the one that was read, with the same multipliers; groups of counts stay as they were,
and each directive has become one of the rules that it may draw. Reading it again draws nothing, and
gives the same rule from any source.
-/

namespace TorusAutomaton.Rule

open TorusAutomaton Text TorusAutomaton.Random Outcome

/-- A segment that may be written for a phrase: what stands in front of the body stays, and the body
is replaced by a text that it resolves to. -/
inductive Phrase.Resolves (p : Phrase) : Text → Prop
  | replaced {body : Text} (h : p.body.Resolves body) : Resolves p (p.opening ++ body)

theorem Segment.Follows.resolves {s : Segment} {p : Phrase} (h : s.Follows p) :
    p.Resolves s.render := by
  have hrender : s.render = p.opening ++ s.body := by
    cases hm : p.multiplier with
    | none => simp [render, Phrase.opening, h.multiplier, hm]
    | some m => simp [render, Phrase.opening, h.multiplier, hm]
  rw [hrender]
  exact .replaced h.body

variable {σ : Type} [Source σ] {t : Text} {source source' : σ} {r : Rule}

/-- A text that is read is made of phrases, and the segments of the rule follow them. -/
theorem exists_phrases_of_parse (h : parse t source = .ok (r, source')) :
    ∃ phrases : List Phrase, t.splitOn ',' = phrases.map Phrase.text ∧
      List.Forall₂ Segment.Follows r.segments phrases := by
  rcases text_or_fault t with ⟨phrases, hne, rfl⟩ | ⟨phrases, bad, after, e, hsplit, hfault⟩
  · obtain ⟨r', source₁, hok, hfollows⟩ := parse_phrases hne source
    cases h.symm.trans hok
    exact ⟨phrases, splitOn_phrases hne, hfollows⟩
  · cases h.symm.trans (parse_fault hsplit hfault source)

/-- **What is written of a rule is a fixed point.** From any source of random words, it is read as
the same rule, which is written in the same way, and nothing is drawn. Segment by segment it is the
text that was read, in which only the directives have been replaced, whatever was drawn for them. -/
theorem render_is_fixed (h : parse t source = .ok (r, source')) :
    (∀ (τ : Type) [Source τ] (other : τ), parse r.render other = .ok (r, other)) ∧
    ∃ phrases : List Phrase, t.splitOn ',' = phrases.map Phrase.text ∧
      List.Forall₂ Phrase.Resolves phrases (r.render.splitOn ',') := by
  have hsettled := settled_of_parse h
  refine ⟨fun τ _ other => hsettled.parse_render other, ?_⟩
  obtain ⟨phrases, hphrases, hfollows⟩ := exists_phrases_of_parse h
  refine ⟨phrases, hphrases, ?_⟩
  rw [hsettled.splitOn_render, List.forall₂_map_right_iff]
  exact hfollows.flip.imp fun p s hps => hps.resolves

theorem render_is_fixed_mixed :
    ∃ r source', parse "+2x13+25,838/".toList (Keystream.ofNumber 7) = .ok (r, source') ∧
      r.render = "+2x1/47,838/".toList ∧
      parse r.render (Keystream.ofNumber 8) = .ok (r, Keystream.ofNumber 8) := by
  have hrender : (parse "+2x13+25,838/".toList (Keystream.ofNumber 7)).toOption.map
      (fun result => result.1.render) = some "+2x1/47,838/".toList := by
    decide +kernel
  obtain ⟨⟨r, source'⟩, hok, hrender⟩ := Option.map_eq_some_iff.mp hrender
  have hok := toOption_eq_some_iff.mp hok
  exact ⟨r, source', hok, hrender, (render_is_fixed hok).1 Keystream (Keystream.ofNumber 8)⟩

end TorusAutomaton.Rule
