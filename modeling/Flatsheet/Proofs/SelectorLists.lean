import Flatsheet.Proofs.Selectors

/-!
Selector lists split exactly. There is one way to divide a text at its commas outside brackets, and
the selectors of the list are the pieces of that division, collapsed, without the blank ones.
Collapsing a piece or leaving out a blank one keeps the others apart, so the selectors written with
commas are split into the same selectors again. The last one may even leave a bracket open.
-/

namespace Flatsheet.Text

theorem join_splitOutside (depth : Nat) (text : Text) :
    join [','] (splitOutside [','] depth text) = text := by
  induction text generalizing depth with
  | nil => rfl
  | cons c text ih =>
      obtain ⟨first, others, pieces⟩ := splitOutside_cons [','] (bracketDepth depth c) text
      have rest := ih (bracketDepth depth c)
      rw [pieces] at rest
      rw [splitOutside, pieces]
      split
      next cuts =>
          obtain rfl : c = ',' := by simpa using cuts.1
          rw [join_cons_cons, rest]
          rfl
      next => rw [List.modifyHead_cons, join_cons_head, rest]

theorem divided_splitOutside (depth : Nat) (text : Text) :
    Divided depth (splitOutside [','] depth text) := by
  induction text generalizing depth with
  | nil => exact ⟨trivial, by simp, trivial⟩
  | cons c text ih =>
      have later := ih (bracketDepth depth c)
      rw [splitOutside]
      split
      next cuts =>
          obtain ⟨comma, outside⟩ := cuts
          obtain rfl : c = ',' := by simpa using comma
          have level : depth = 0 := outside
          rw [outside] at later ⊢
          exact ⟨trivial, fun _ => level, later⟩
      next keeps =>
          obtain ⟨first, others, pieces⟩ := splitOutside_cons [','] (bracketDepth depth c) text
          rw [pieces] at later ⊢
          obtain ⟨uncut, closed, apart⟩ := later
          refine ⟨⟨fun comma outside => keeps ?_, uncut⟩, closed, apart⟩
          subst comma
          exact ⟨rfl, outside⟩

theorem splitOutside_eq_iff {text : Text} {pieces : List Text} :
    splitOutside [','] 0 text = pieces ↔
      pieces ≠ [] ∧ Divided 0 pieces ∧ join [','] pieces = text := by
  constructor
  · intro split
    obtain ⟨first, others, shape⟩ := splitOutside_cons [','] 0 text
    rw [← split]
    exact ⟨by simp [shape], divided_splitOutside 0 text, join_splitOutside 0 text⟩
  · intro division
    obtain ⟨nonempty, divided, joined⟩ := division
    rw [← joined, splitOutside_join divided nonempty]

theorem filter_collapse (text : Text) :
    text.collapse.filter (fun c => !isBlank c) = text.filter fun c => !isBlank c := by
  have same : text.collapse.words = text.words := words_join fun _ => word_of_mem_words
  rw [← flatten_words, ← flatten_words, same]

/-- An empty piece closes no bracket, so it can be left out. -/
theorem Divided.filter {depth : Nat} {pieces : List Text} (divided : Divided depth pieces) :
    Divided depth (pieces.filter (· ≠ [])) := by
  induction pieces generalizing depth with
  | nil => trivial
  | cons piece pieces ih =>
      obtain ⟨uncut, closed, later⟩ := divided
      by_cases empty : piece = []
      · rw [List.filter_cons_of_neg (by simp [empty])]
        cases pieces with
        | nil => trivial
        | cons next pieces =>
            have level : depth = 0 := by simpa [empty] using closed (by simp)
            rw [level]
            exact ih later
      · rw [List.filter_cons_of_pos (by simp [empty])]
        refine ⟨uncut, fun more => closed ?_, ih later⟩
        intro none
        exact more (by rw [none]; rfl)

theorem collapsed_of_mem_splitTopLevel {text part : Text} (listed : part ∈ splitTopLevel text) :
    part ≠ [] ∧ part.collapse = part := by
  obtain ⟨member, nonempty⟩ := List.mem_filter.mp listed
  obtain ⟨piece, _, rfl⟩ := List.mem_map.mp member
  exact ⟨by simpa using nonempty, collapse_collapse piece⟩

theorem divided_splitTopLevel (text : Text) : Divided 0 (splitTopLevel text) :=
  ((divided_splitOutside 0 text).map filter_collapse).filter

/-- Splitting a selector list is exact. The parts are not empty, have their blanks collapsed and,
written with commas, are split into themselves again. Any such parts are given back, if each closes
its brackets and has no comma outside them. And in general the parts are what the one division of
the text at its commas outside brackets makes them. -/
theorem splitTopLevel_exact :
    (∀ text, (∀ part ∈ splitTopLevel text, part ≠ [] ∧ part.collapse = part) ∧
      splitTopLevel (join ", " (splitTopLevel text)) = splitTopLevel text) ∧
    (∀ parts : List Text, (∀ part ∈ parts, part ≠ [] ∧ part.collapse = part ∧ Unsplit part) →
      splitTopLevel (join ", " parts) = parts) ∧
    ∀ text parts, splitTopLevel text = parts ↔
      ∃ pieces, (pieces ≠ [] ∧ Divided 0 pieces ∧ join [','] pieces = text) ∧
        (pieces.map collapse).filter (· ≠ []) = parts := by
  refine ⟨fun text => ⟨fun _ => collapsed_of_mem_splitTopLevel, ?_⟩, fun parts whole => ?_,
    fun text parts => ⟨fun split => ?_, fun division => ?_⟩⟩
  · exact splitTopLevel_join (divided_splitTopLevel text) fun _ => collapsed_of_mem_splitTopLevel
  · apply splitTopLevel_join
    · exact divided_of_unsplit fun part listed => (whole part listed).2.2
    · exact fun part listed => ⟨(whole part listed).1, (whole part listed).2.1⟩
  · exact ⟨splitOutside [','] 0 text, splitOutside_eq_iff.mp rfl, split⟩
  · obtain ⟨pieces, divides, made⟩ := division
    rw [splitTopLevel, splitTopLevelAt, splitOutside_eq_iff.mpr divides, made]

/-- Brackets of both kinds close each other, and a closer that nothing opened is ignored. -/
theorem splitTopLevel_exact_brackets :
    let parts : List Text := ["a:is(b, c]".toList, "d) > e".toList, "f[g=',']".toList]
    (∀ part ∈ parts, part ≠ [] ∧ part.collapse = part ∧ Unsplit part) ∧
      splitTopLevel (join ", " parts) = parts ∧
      splitTopLevel "a:is(b,\tc] ,\n, d)  > e,f(g, h".toList =
        ["a:is(b, c]".toList, "d) > e".toList, "f(g, h".toList] ∧
      splitTopLevel (join ", " (splitTopLevel "a:is(b,\tc] ,\n, d)  > e,f(g, h".toList)) =
        splitTopLevel "a:is(b,\tc] ,\n, d)  > e,f(g, h".toList := by
  intro parts
  have whole : ∀ part ∈ parts, part ≠ [] ∧ part.collapse = part ∧ Unsplit part := by decide
  obtain ⟨again, back, _⟩ := splitTopLevel_exact
  exact ⟨whole, back parts whole, by decide, (again _).2⟩

end Flatsheet.Text
