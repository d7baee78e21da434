import Flatsheet.Proofs.MediaBlocks

/-!
Media queries along a path of nested fragments. Combining a selector with one fragment after the
other runs two folds that do not touch each other: the ordinary fragments build up its text, and the
media queries its condition. So it does not matter how the two are interleaved.
-/

namespace Flatsheet

namespace Text

theorem join_append_cons (separator front part : Text) (parts : List Text) :
    join separator ((front ++ part) :: parts) = front ++ join separator (part :: parts) := by
  cases parts with
  | nil => simp
  | cons next parts => simp

end Text

namespace Selector

/-- The fragments that are no media queries. -/
def ordinary (fragments : List Text) : List Text :=
  fragments.filter fun fragment => !isMediaQuery fragment

/-- The conditions of the media queries among the fragments. -/
def conditions (fragments : List Text) : List Text :=
  fragments.filterMap fun fragment => (mediaCondition? fragment).map Text.trim

theorem foldl_combine (parent : Selector) (fragments : List Text) :
    fragments.foldl combine parent =
      ⟨(ordinary fragments).foldl nestText parent.text,
        (conditions fragments).foldl joinMedia parent.media⟩ := by
  induction fragments generalizing parent with
  | nil => rfl
  | cons fragment fragments ih =>
      rw [List.foldl_cons, ih]
      cases found : mediaCondition? fragment with
      | none => simp [combine, ordinary, conditions, isMediaQuery, found]
      | some condition => simp [combine, ordinary, conditions, isMediaQuery, found]

theorem foldl_joinMedia {conditions : List Text} (nonempty : [] ∉ conditions) (outer : Text) :
    conditions.foldl joinMedia outer =
      Text.join " and " ((if outer = [] then [] else [outer]) ++ conditions) := by
  induction conditions generalizing outer with
  | nil =>
      by_cases empty : outer = []
      · simp [empty, Text.join]
      · simp [empty]
  | cons condition conditions ih =>
      obtain ⟨here, later⟩ : [] ≠ condition ∧ [] ∉ conditions := by simpa using nonempty
      have limited : joinMedia outer condition ≠ [] := fun empty =>
        here (joinMedia_eq_nil.mp empty).2.symm
      rw [List.foldl_cons, ih later, if_neg limited, List.singleton_append]
      by_cases empty : outer = []
      · simp [joinMedia, empty]
      · rw [joinMedia, if_neg empty, if_neg empty, Text.join_append_cons, List.append_assoc,
          List.singleton_append, Text.join_cons_cons]

theorem conditions_filter (fragments : List Text) :
    conditions (fragments.filter isMediaQuery) = conditions fragments := by
  induction fragments with
  | nil => rfl
  | cons fragment fragments ih =>
      unfold conditions at ih ⊢
      cases found : mediaCondition? fragment with
      | none => simpa [isMediaQuery, found] using ih
      | some condition => simpa [isMediaQuery, found] using ih

/-- The combined selector has the text that the ordinary fragments give and all conditions in the
order of nesting, and it depends on nothing but the ordinary fragments and the media queries, each
in their order. -/
theorem foldl_combine_promoted (parent : Selector) (fragments : List Text)
    (limited : [] ∉ conditions fragments) :
    fragments.foldl combine parent =
      ⟨(ordinary fragments).foldl nestText parent.text,
        Text.join " and "
          ((if parent.media = [] then [] else [parent.media]) ++ conditions fragments)⟩ ∧
      ∀ others, ordinary others = ordinary fragments →
        others.filter isMediaQuery = fragments.filter isMediaQuery →
        others.foldl combine parent = fragments.foldl combine parent := by
  constructor
  · rw [foldl_combine, foldl_joinMedia limited]
  · intro others sameTexts sameQueries
    have sameConditions : conditions others = conditions fragments := by
      rw [← conditions_filter others, sameQueries, conditions_filter]
    rw [foldl_combine, foldl_combine, sameTexts, sameConditions]

/-- Two queries around a reference to the parent and a descendant, inside a query. -/
theorem foldl_combine_promoted_interleaved :
    let fragments : List Text :=
      ["@media(min-width: 1px)", "&:hover", "b", "@media  screen ", "c & d"].map String.toList
    let others : List Text :=
      ["&:hover", "@media(min-width: 1px)", "@media  screen ", "b", "c & d"].map String.toList
    [] ∉ conditions fragments ∧
      fragments.foldl combine ⟨"a".toList, "print".toList⟩ =
        ⟨"c a:hover b d".toList, "print and (min-width: 1px) and screen".toList⟩ ∧
      others.foldl combine ⟨"a".toList, "print".toList⟩ =
        fragments.foldl combine ⟨"a".toList, "print".toList⟩ := by
  intro fragments others
  have limited : [] ∉ conditions fragments := by decide +kernel
  obtain ⟨combined, interleaved⟩ := foldl_combine_promoted ⟨"a".toList, "print".toList⟩ fragments
    limited
  refine ⟨limited, combined.trans (by decide +kernel), interleaved others ?_ ?_⟩
  · decide +kernel
  · decide +kernel

end Selector

end Flatsheet
