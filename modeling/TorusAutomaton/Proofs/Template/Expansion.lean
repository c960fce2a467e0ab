import Mathlib.Data.List.Infix
import TorusAutomaton.Template

/-!
# What a template expands to

A template is a list of pieces: characters that are kept, and keys, each with a percent sign in
front. Which pieces it has depends on the template alone; an expansion only puts the values in their
places, one after the other. That no key begins another is all that makes the pieces unique, so the
order in which keys are tried does not matter, and a template may be cut wherever no key can reach
over the cut.
-/

namespace TorusAutomaton.Template

open TorusAutomaton Text

/-! ## Keys -/

theorem Key.mem_all (k : Key) : k ∈ Key.all := by
  cases k <;> decide

theorem Key.percent_not_mem_letters (k : Key) : '%' ∉ k.letters := by
  cases k <;> decide

/-- No key begins another one, so a text starts with one key at most. -/
theorem Key.eq_of_fits {k k' : Key} {t : Text} (h : k.letters <+: t) (h' : k'.letters <+: t) :
    k = k' := by
  have hfree : ∀ k ∈ Key.all, ∀ k' ∈ Key.all, k.letters <+: k'.letters → k = k' := by decide
  rcases List.prefix_or_prefix_of_prefix h h' with hle | hle
  · exact hfree k k.mem_all k' k'.mem_all hle
  · exact (hfree k' k'.mem_all k k.mem_all hle).symm

/-- The first of the keys that a text starts with. -/
def firstKey (keys : List Key) (t : Text) : Option Key :=
  keys.find? fun k => k.letters.isPrefixOf t

theorem letters_of_firstKey {keys : List Key} {t : Text} {k : Key} (h : firstKey keys t = some k) :
    k.letters <+: t := by
  have hfits := @List.find?_some _ (fun k : Key => k.letters.isPrefixOf t) _ _ h
  exact List.isPrefixOf_iff_prefix.mp hfits

theorem firstKey_eq_none_iff {keys : List Key} (hkeys : ∀ k, k ∈ keys) {t : Text} :
    firstKey keys t = none ↔ ∀ k : Key, ¬ k.letters <+: t := by
  rw [firstKey, List.find?_eq_none]
  constructor
  · exact fun h k hk => h k (hkeys k) (List.isPrefixOf_iff_prefix.mpr hk)
  · exact fun h k _ hk => h k (List.isPrefixOf_iff_prefix.mp hk)

/-- Where every key is tried, the one that is found is the one that the text starts with. -/
theorem firstKey_eq_some_iff {keys : List Key} (hkeys : ∀ k, k ∈ keys) {t : Text} {k : Key} :
    firstKey keys t = some k ↔ k.letters <+: t := by
  constructor
  · exact letters_of_firstKey
  · intro h
    cases hfound : firstKey keys t with
    | none => exact absurd h ((firstKey_eq_none_iff hkeys).mp hfound k)
    | some found => rw [Key.eq_of_fits (letters_of_firstKey hfound) h]

/-! ## Pieces -/

inductive Piece
  | kept (c : Char)
  | key (k : Key)
  deriving DecidableEq

def Piece.value (b : Bindings) : Piece → Text
  | .kept c => [c]
  | .key k => Template.value b k

/-- The pieces of a template. A percent sign is kept only where no key follows it; the letters of a
key are never looked at again. -/
inductive Reads : Text → List Piece → Prop
  | nil : Reads [] []
  | key (k : Key) {rest : Text} {pieces : List Piece} (h : Reads rest pieces) :
      Reads ('%' :: (k.letters ++ rest)) (.key k :: pieces)
  | kept {c : Char} {rest : Text} {pieces : List Piece}
      (noKey : c = '%' → ∀ k : Key, ¬ k.letters <+: rest) (h : Reads rest pieces) :
      Reads (c :: rest) (.kept c :: pieces)

theorem Reads.unique {t : Text} {pieces pieces' : List Piece} (h : Reads t pieces)
    (h' : Reads t pieces') : pieces = pieces' := by
  induction h generalizing pieces' with
  | nil =>
      cases h'
      rfl
  | @key k rest pieces h ih =>
      generalize ht : '%' :: (k.letters ++ rest) = t at h'
      cases h' with
      | nil => cases ht
      | @key k' rest' pieces' h' =>
          obtain ⟨-, ht⟩ := List.cons.inj ht
          obtain rfl : k = k' :=
            Key.eq_of_fits (List.prefix_append _ rest) (ht ▸ List.prefix_append _ _)
          rw [ih (List.append_cancel_left ht ▸ h')]
      | @kept c rest' pieces' noKey h' =>
          obtain ⟨rfl, rfl⟩ := List.cons.inj ht
          exact absurd (List.prefix_append _ _) (noKey rfl k)
  | @kept c rest pieces noKey h ih =>
      generalize ht : c :: rest = t at h'
      cases h' with
      | nil => cases ht
      | @key k rest' pieces' h' =>
          obtain ⟨rfl, rfl⟩ := List.cons.inj ht
          exact absurd (List.prefix_append _ _) (noKey rfl k)
      | @kept c' rest' pieces' noKey' h' =>
          obtain ⟨rfl, rfl⟩ := List.cons.inj ht
          rw [ih h']

/-- The pieces of what is left of a template once the letters of a key are left out. -/
theorem exists_reads_drop (t : Text) (skip : Nat) : ∃ pieces, Reads (t.drop skip) pieces := by
  induction t generalizing skip with
  | nil => exact ⟨[], by simpa using Reads.nil⟩
  | cons c rest ih =>
      cases skip with
      | succ skip => exact ih skip
      | zero =>
          by_cases hkey : c = '%' ∧ ∃ k : Key, k.letters <+: rest
          · obtain ⟨rfl, k, rest, rfl⟩ := hkey
            obtain ⟨pieces, h⟩ := ih k.letters.length
            rw [List.drop_left] at h
            exact ⟨.key k :: pieces, .key k h⟩
          · obtain ⟨pieces, h⟩ := ih 0
            exact ⟨.kept c :: pieces, .kept (fun hc k hk => hkey ⟨hc, k, hk⟩) h⟩

theorem exists_reads (t : Text) : ∃ pieces, Reads t pieces := exists_reads_drop t 0

theorem expandFrom_append (b : Bindings) (skipped rest : Text) :
    expandFrom b skipped.length (skipped ++ rest) = expandFrom b 0 rest := by
  induction skipped with
  | nil => rfl
  | cons c skipped ih => exact ih

/-- An expansion puts the values in the places of the pieces. -/
theorem expand_of_reads {t : Text} {pieces : List Piece} (h : Reads t pieces) (b : Bindings) :
    expand t b = pieces.flatMap (Piece.value b) := by
  unfold expand
  induction h with
  | nil => rfl
  | @key k rest pieces h ih =>
      have hkey : keyAt (k.letters ++ rest) = some k :=
        (firstKey_eq_some_iff Key.mem_all).mpr (List.prefix_append _ _)
      simp only [expandFrom, if_true, hkey, expandFrom_append, ih, List.flatMap_cons, Piece.value]
  | @kept c rest pieces noKey h ih =>
      simp only [List.flatMap_cons, Piece.value, List.singleton_append, ← ih]
      by_cases hc : c = '%'
      · subst hc
        have hkey : keyAt rest = none := (firstKey_eq_none_iff Key.mem_all).mpr (noKey rfl)
        simp only [expandFrom, if_true, hkey]
      · simp only [expandFrom, if_neg hc]

/-! ## Trying the keys in some order -/

/-- A search for one percent sign after the other: what stands before it is copied, and the first
of the keys that fits what follows it is replaced. -/
def expandBySearch (keys : List Key) (b : Bindings) (t : Text) : Text :=
  match _hcut : cut '%' t with
  | none => t
  | some (before, after) =>
    before ++
      match firstKey keys after with
      | some k => value b k ++ expandBySearch keys b (after.drop k.letters.length)
      | none => '%' :: expandBySearch keys b after
  termination_by t.length
  decreasing_by
    all_goals
      rw [(eq_of_cut _hcut).1]
      simp
      omega

theorem expandBySearch_of_none {keys : List Key} {b : Bindings} {t : Text}
    (h : cut '%' t = none) : expandBySearch keys b t = t := by
  rw [expandBySearch]
  split
  · rfl
  · rename_i hcut
    cases h.symm.trans hcut

theorem expandBySearch_of_cut {keys : List Key} {b : Bindings} {t before after : Text}
    (h : cut '%' t = some (before, after)) :
    expandBySearch keys b t =
      before ++
        match firstKey keys after with
        | some k => value b k ++ expandBySearch keys b (after.drop k.letters.length)
        | none => '%' :: expandBySearch keys b after := by
  rw [expandBySearch]
  split
  · rename_i hcut
    cases h.symm.trans hcut
  · rename_i hcut
    cases h.symm.trans hcut
    rfl

theorem expandBySearch_percent (keys : List Key) (b : Bindings) (rest : Text) :
    expandBySearch keys b ('%' :: rest) =
      match firstKey keys rest with
      | some k => value b k ++ expandBySearch keys b (rest.drop k.letters.length)
      | none => '%' :: expandBySearch keys b rest := by
  have hcut : cut '%' ('%' :: rest) = some ([], rest) := by simp [cut]
  exact expandBySearch_of_cut hcut

theorem expandBySearch_kept (keys : List Key) (b : Bindings) {c : Char} (hc : c ≠ '%')
    (rest : Text) : expandBySearch keys b (c :: rest) = c :: expandBySearch keys b rest := by
  cases hcut : cut '%' rest with
  | none =>
      have hcons : cut '%' (c :: rest) = none := by simp [cut, hc, hcut]
      rw [expandBySearch_of_none hcut, expandBySearch_of_none hcons]
  | some parts =>
      have hcons : cut '%' (c :: rest) = some (c :: parts.1, parts.2) := by simp [cut, hc, hcut]
      rw [expandBySearch_of_cut hcut, expandBySearch_of_cut hcons]
      rfl

/-- Whatever the order of the keys, a search comes to the same pieces. -/
theorem expandBySearch_of_reads {keys : List Key} (hkeys : ∀ k, k ∈ keys) {t : Text}
    {pieces : List Piece} (h : Reads t pieces) (b : Bindings) :
    expandBySearch keys b t = pieces.flatMap (Piece.value b) := by
  induction h with
  | nil => exact expandBySearch_of_none rfl
  | @key k rest pieces h ih =>
      have hkey : firstKey keys (k.letters ++ rest) = some k :=
        (firstKey_eq_some_iff hkeys).mpr (List.prefix_append _ _)
      simp only [expandBySearch_percent, hkey, List.drop_left, ih, List.flatMap_cons, Piece.value]
  | @kept c rest pieces noKey h ih =>
      simp only [List.flatMap_cons, Piece.value, List.singleton_append, ← ih]
      by_cases hc : c = '%'
      · subst hc
        have hkey : firstKey keys rest = none := (firstKey_eq_none_iff hkeys).mpr (noKey rfl)
        simp only [expandBySearch_percent, hkey]
      · exact expandBySearch_kept keys b hc rest

/-! ## Templates one after the other -/

/-- The ends of a template over which a key can reach. -/
def openEnds : List Text := [['%'], ['%', 'p'], ['%', 'P']]

/-- What a key begins with and does not end with may stand in an open end only. -/
theorem fits_of_fits_append {k : Key} {rest after : Text} (hopen : '%' :: rest ∉ openEnds)
    (h : k.letters <+: rest ++ after) : k.letters <+: rest := by
  rcases List.prefix_or_prefix_of_prefix h (List.prefix_append rest after) with hle | hle
  · exact hle
  · have hshort : ∀ k ∈ Key.all, ∀ u ∈ k.letters.inits, u = k.letters ∨ '%' :: u ∈ openEnds := by
      decide
    rcases hshort k k.mem_all rest ((List.mem_inits _ _).mpr hle) with heq | hmem
    · exact heq ▸ List.prefix_rfl
    · exact absurd hmem hopen

theorem Reads.append {t after : Text} {pieces pieces' : List Piece} (h : Reads t pieces)
    (hend : ∀ e ∈ openEnds, ¬ e <:+ t) (h' : Reads after pieces') :
    Reads (t ++ after) (pieces ++ pieces') := by
  induction h with
  | nil => exact h'
  | @key k rest pieces h ih =>
      have hrest : rest <:+ '%' :: (k.letters ++ rest) :=
        (List.suffix_append _ _).trans (List.suffix_cons _ _)
      have hcat := ih fun e he hsuffix => hend e he (hsuffix.trans hrest)
      simpa using Reads.key k hcat
  | @kept c rest pieces noKey h ih =>
      have hcat := ih fun e he hsuffix => hend e he (hsuffix.trans (List.suffix_cons _ _))
      refine .kept ?_ hcat
      rintro rfl k hk
      have hopen : '%' :: rest ∉ openEnds := fun hmem => hend _ hmem List.suffix_rfl
      exact noKey rfl k (fits_of_fits_append hopen hk)

/-- **A template is read once, from the left.** Its pieces are determined by the template alone and
an expansion is their values in order. It comes to the same whatever the order in which the keys are
tried, and two templates one after the other are expanded apart, unless the first has an open
end. -/
theorem expand_single_pass (t : Text) :
    (∃! pieces, Reads t pieces) ∧
      (∀ pieces, Reads t pieces → ∀ b, expand t b = pieces.flatMap (Piece.value b)) ∧
      (∀ keys : List Key, keys.Perm Key.all → ∀ b, expandBySearch keys b t = expand t b) ∧
      ((∀ e ∈ openEnds, ¬ e <:+ t) →
        ∀ after b, expand (t ++ after) b = expand t b ++ expand after b) := by
  obtain ⟨pieces, h⟩ := exists_reads t
  refine ⟨⟨pieces, h, fun _ h' => h'.unique h⟩, fun _ h' => expand_of_reads h', ?_, ?_⟩
  · intro keys hperm b
    have hkeys : ∀ k, k ∈ keys := fun k => hperm.mem_iff.mpr k.mem_all
    rw [expandBySearch_of_reads hkeys h, expand_of_reads h]
  · intro hend after b
    obtain ⟨pieces', h'⟩ := exists_reads after
    rw [expand_of_reads (h.append hend h'), expand_of_reads h, expand_of_reads h',
      List.flatMap_append]

/-- Values that look like keys. -/
def deceptiveBindings : Bindings where
  rule := ['%', 't']
  width := 3
  height := 2
  modeNumber := 0
  modeLetter := 'X'
  seed := ['%', 'p']
  tick := 7
  inverted := false
  selected := true
  post := some (['%', 'r'], 5)

/-- Doubled and stray signs beside keys of one letter and of two. -/
def deceptive : Text := ['%', '%', 'p', 'r', '%', 'q', '%', 's']

/-- The keys are tried backwards, and the cut is behind a seed that ends like the beginning of a
key. -/
theorem expand_single_pass_deceptive :
    Reads deceptive [.kept '%', .key .postRule, .kept '%', .kept 'q', .key .seed] ∧
      expand deceptive deceptiveBindings = ['%', '%', 'r', '%', 'q', '%', 'p'] ∧
      expandBySearch Key.all.reverse deceptiveBindings deceptive =
        ['%', '%', 'r', '%', 'q', '%', 'p'] ∧
      expand (deceptive ++ ['r']) deceptiveBindings =
        ['%', '%', 'r', '%', 'q', '%', 'p', 'r'] := by
  obtain ⟨-, hpieces, hkeys, happend⟩ := expand_single_pass deceptive
  have hseed : Reads ['%', 's'] [.key .seed] := .key .seed .nil
  have hstray : Reads ['%', 'q', '%', 's'] [.kept '%', .kept 'q', .key .seed] :=
    .kept (fun _ k => by cases k <;> decide) (.kept (fun h => absurd h (by decide)) hseed)
  have hreads : Reads deceptive [.kept '%', .key .postRule, .kept '%', .kept 'q', .key .seed] :=
    .kept (fun _ k => by cases k <;> decide) (.key .postRule hstray)
  have hexpand := hpieces _ hreads deceptiveBindings
  refine ⟨hreads, hexpand, ?_, ?_⟩
  · rw [hkeys _ (List.reverse_perm _) deceptiveBindings, hexpand]
    rfl
  · rw [happend (by decide) ['r'] deceptiveBindings, hexpand]
    rfl

end TorusAutomaton.Template
