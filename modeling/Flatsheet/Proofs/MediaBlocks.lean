import Flatsheet.Proofs.RuleTree
import Flatsheet.Proofs.Selectors

/-!
Media blocks inside a rule. The condition of such a block goes to the selectors around it, which
keep their texts, as long as its query has no comma outside brackets. At such a comma the heading is
cut like a list of selectors, before the keyword is looked for. So only the first part of the query
is a condition. A later part is nested as a selector, unless it repeats the keyword.
-/

namespace Flatsheet

open Text Selector

namespace Selector

theorem word_mediaKeyword : Word mediaKeyword := by decide +kernel

theorem unsplit_mediaKeyword : Unsplit mediaKeyword := by decide +kernel

theorem collapse_media {c : Char} (blank : isBlank c = true) (query : Text) :
    collapse (mediaKeyword ++ c :: query) = join [' '] (mediaKeyword :: query.words) := by
  rw [collapse, words_append_blank blank, words_of_word word_mediaKeyword]
  rfl

/-- The heading of a media block is cut where its query is cut. -/
theorem splitTopLevel_media {c : Char} (blank : isBlank c = true) {query first : Text}
    {others : List Text} (split : splitOutside [','] 0 query = first :: others) :
    splitTopLevel (mediaKeyword ++ c :: query) =
      collapse (mediaKeyword ++ c :: first) :: (others.map collapse).filter (· ≠ []) := by
  have level : (mediaKeyword ++ [c]).foldl bracketDepth 0 = 0 := by
    rw [List.foldl_append, unsplit_mediaKeyword.closed]
    exact (bracketDepth_of_blank blank 0).2
  have uncut : Uncut 0 (mediaKeyword ++ [c]) := by
    refine unsplit_mediaKeyword.uncut.append ⟨fun comma => ?_, trivial⟩
    exact absurd comma (bracketDepth_of_blank blank 0).1
  have kept : collapse (mediaKeyword ++ c :: first) ≠ [] := by
    rw [collapse_media blank]
    exact join_ne_nil word_mediaKeyword.1
  rw [splitTopLevel, splitTopLevelAt, List.append_cons, splitOutside_append uncut, level, split]
  simp [kept]

theorem combine_query {c : Char} (blank : isBlank c = true) (query : Text) (parent : Selector) :
    combine parent (collapse (mediaKeyword ++ c :: query)) =
      ⟨parent.text, joinMedia parent.media query.collapse⟩ := by
  rw [collapse_media blank]
  cases words : query.words with
  | nil =>
      have empty : query.collapse = [] := by rw [collapse, words]; rfl
      rw [empty]
      rfl
  | cons word rest =>
      have spelled : join [' '] (mediaKeyword :: word :: rest) =
          "@media ".toList ++ query.collapse := by
        rw [join_cons_cons, collapse, words]
        rfl
      rw [spelled, combine_media (trimmed_collapse query)]

theorem joinMedia_eq_nil {outer inner : Text} :
    joinMedia outer inner = [] ↔ outer = [] ∧ inner = [] := by
  unfold joinMedia
  split
  next empty => simp [empty]
  next limited => simp [limited]

/-- The fragment is a media query and its condition is not blank. -/
def Limits (fragment : Text) : Prop :=
  ∃ condition, mediaCondition? fragment = some condition ∧ condition.trim ≠ []

theorem Limits.combine {fragment : Text} (limits : Limits fragment) (parent : Selector) :
    (combine parent fragment).text = parent.text ∧ (combine parent fragment).media ≠ [] := by
  obtain ⟨condition, found, nonempty⟩ := limits
  rw [Selector.combine, found]
  exact ⟨rfl, fun empty => nonempty (joinMedia_eq_nil.mp empty).2⟩

theorem limits_of_combine {parent : Selector} {fragment : Text} (unlimited : parent.media = [])
    (limited : (combine parent fragment).media ≠ []) : Limits fragment := by
  unfold combine at limited
  split at limited
  next condition found =>
      refine ⟨condition, found, fun empty => limited ?_⟩
      exact joinMedia_eq_nil.mpr ⟨unlimited, empty⟩
  · exact absurd unlimited limited

end Selector

namespace Rule

theorem children_block (enclosing : List Selector) (heading : Option Text)
    (before inside after : List Item) :
    (ofItems enclosing (before ++ .block heading inside :: after)).children =
      (ofItems enclosing before).children ++
        ofItems (selectorsWithin enclosing heading) inside ::
          (ofItems enclosing after).children := by
  simp only [ofItems_eq, ofBlocks_append, ofBlocks_block]

/-- The first part of a query is a condition of the enclosing selectors; the others are combined
with them. -/
theorem selectorsWithin_query {c : Char} (blank : isBlank c = true) {query first : Text}
    {others : List Text} (split : splitOutside [','] 0 query = first :: others)
    (enclosing : List Selector) :
    selectorsWithin enclosing (some (mediaKeyword ++ c :: query)) =
      (enclosing.map fun parent => ⟨parent.text, joinMedia parent.media first.collapse⟩) ++
        ((others.map collapse).filter (· ≠ [])).flatMap fun fragment =>
          enclosing.map fun parent => combine parent fragment := by
  simp only [selectorsWithin, Option.elim_some, splitTopLevel_media blank split,
    List.flatMap_cons, combine_query blank]

/-- Every selector of the rule has the text of an enclosing selector, and a condition unless the
query is blank. -/
structure Promotes (enclosing : List Selector) (query : Text) (rule : Rule) : Prop where
  text : ∀ selector ∈ rule.selectors, ∃ parent ∈ enclosing, selector.text = parent.text
  media : ¬ Blank query → ∀ selector ∈ rule.selectors, selector.media ≠ []

variable {c : Char} {query first : Text} {others : List Text} {enclosing : List Selector}

/-- Of the parts of a query, the first is not blank, and each later one is blank or a media query of
its own. -/
structure Repeated (first : Text) (others : List Text) : Prop where
  first : ¬ Blank first
  others : ∀ other ∈ others, ¬ Blank other → Limits other.collapse

theorem Repeated.promotes (blank : isBlank c = true)
    (split : splitOutside [','] 0 query = first :: others) (repeated : Repeated first others)
    (enclosing : List Selector) (items : List Item) :
    Promotes enclosing query
      (ofItems (selectorsWithin enclosing (some (mediaKeyword ++ c :: query))) items) := by
  suffices each : ∀ selector ∈ selectorsWithin enclosing (some (mediaKeyword ++ c :: query)),
      (∃ parent ∈ enclosing, selector.text = parent.text) ∧ selector.media ≠ [] by
    rw [ofItems_eq]
    exact ⟨fun selector member => (each selector member).1,
      fun _ selector member => (each selector member).2⟩
  intro selector member
  rw [selectorsWithin_query blank split, List.mem_append] at member
  rcases member with promoted | combined
  · obtain ⟨parent, listed, rfl⟩ := List.mem_map.mp promoted
    refine ⟨⟨parent, listed, rfl⟩, fun empty => repeated.first ?_⟩
    exact collapse_eq_nil.mp (joinMedia_eq_nil.mp empty).2
  · obtain ⟨fragment, kept, inside⟩ := List.mem_flatMap.mp combined
    obtain ⟨parent, listed, rfl⟩ := List.mem_map.mp inside
    obtain ⟨part, nonempty⟩ := List.mem_filter.mp kept
    obtain ⟨other, among, rfl⟩ := List.mem_map.mp part
    have limits : Limits other.collapse := repeated.others other among fun blank =>
      by simp [collapse_eq_nil.mpr blank] at nonempty
    exact ⟨⟨parent, listed, (limits.combine parent).1⟩, (limits.combine parent).2⟩

theorem Promotes.repeated (blank : isBlank c = true)
    (split : splitOutside [','] 0 query = first :: others) (solid : ¬ Blank query)
    {parent : Selector} (listed : parent ∈ enclosing) (unlimited : parent.media = [])
    {items : List Item}
    (promotes : Promotes enclosing query
      (ofItems (selectorsWithin enclosing (some (mediaKeyword ++ c :: query))) items)) :
    Repeated first others := by
  have limited := promotes.media solid
  rw [ofItems_eq] at limited
  simp only [selectorsWithin_query blank split] at limited
  constructor
  · intro empty
    refine limited ⟨parent.text, joinMedia parent.media first.collapse⟩ ?_ ?_
    · exact List.mem_append_left _ (List.mem_map.mpr ⟨parent, listed, rfl⟩)
    · exact joinMedia_eq_nil.mpr ⟨unlimited, collapse_eq_nil.mpr empty⟩
  · intro other among nonblank
    refine limits_of_combine unlimited (limited _ (List.mem_append_right _ ?_))
    have kept : other.collapse ∈ (others.map collapse).filter (· ≠ []) := by
      refine List.mem_filter.mpr ⟨List.mem_map.mpr ⟨other, among, rfl⟩, decide_eq_true ?_⟩
      exact mt collapse_eq_nil.mp nonblank
    exact List.mem_flatMap.mpr ⟨other.collapse, kept, List.mem_map.mpr ⟨parent, listed, rfl⟩⟩

theorem selectorsWithin_uncut (blank : isBlank c = true) (uncut : Uncut 0 query)
    (enclosing : List Selector) :
    selectorsWithin enclosing (some (mediaKeyword ++ c :: query)) =
      enclosing.map fun parent => ⟨parent.text, joinMedia parent.media query.collapse⟩ := by
  rw [selectorsWithin_query blank (splitOutside_of_uncut uncut)]
  exact List.append_nil _

/-- A media block among the items of a rule. If its query has no comma outside brackets, then its
selectors are the enclosing ones with the condition added. Otherwise the same can be said of their
texts and conditions if the first part of the query is not blank and the later ones repeat the
keyword, and only then where some enclosing selector has no condition yet. -/
theorem children_mediaBlock (blank : isBlank c = true) (query : Text) (enclosing : List Selector)
    (before inside after : List Item) :
    ∃ child first others,
      (ofItems enclosing
          (before ++ .block (some (mediaKeyword ++ c :: query)) inside :: after)).children =
        (ofItems enclosing before).children ++ child :: (ofItems enclosing after).children ∧
      splitOutside [','] 0 query = first :: others ∧
      (Uncut 0 query →
        child.selectors =
            enclosing.map (fun parent => ⟨parent.text, joinMedia parent.media query.collapse⟩) ∧
          Promotes enclosing query child) ∧
      (Repeated first others → Promotes enclosing query child) ∧
      (¬ Blank query → ∀ parent ∈ enclosing, parent.media = [] →
        Promotes enclosing query child → Repeated first others) := by
  obtain ⟨first, others, split⟩ := splitOutside_cons [','] 0 query
  refine ⟨ofItems (selectorsWithin enclosing (some (mediaKeyword ++ c :: query))) inside, first,
    others, children_block .., split, fun uncut => ?_, fun repeated => ?_, ?_⟩
  · rw [selectorsWithin_uncut blank uncut, ofItems_eq]
    refine ⟨rfl, fun selector member => ?_, fun solid selector member => ?_⟩
    · obtain ⟨parent, listed, rfl⟩ := List.mem_map.mp member
      exact ⟨parent, listed, rfl⟩
    · obtain ⟨parent, listed, rfl⟩ := List.mem_map.mp member
      exact fun empty => solid (collapse_eq_nil.mp (joinMedia_eq_nil.mp empty).2)
  · exact repeated.promotes blank split enclosing inside
  · intro solid parent listed unlimited promotes
    exact promotes.repeated blank split solid listed unlimited

/-- A comma between brackets, in a block under a selector that has a condition already. -/
theorem children_mediaBlock_bracketed :
    let enclosing : List Selector := [⟨"a", []⟩, ⟨"b", "print"⟩]
    ∃ child, (ofItems enclosing [.block (some "@media\n(width > min(1em, 2em))") []]).children =
        [child] ∧
      child.selectors = [⟨"a", "(width > min(1em, 2em))"⟩,
        ⟨"b", "print and (width > min(1em, 2em))"⟩] ∧
      Promotes enclosing "(width > min(1em, 2em))" child := by
  intro enclosing
  have newline : isBlank '\n' = true := by decide
  obtain ⟨child, _, _, children, _, uncut, _⟩ :=
    children_mediaBlock newline "(width > min(1em, 2em))" enclosing [] [] []
  obtain ⟨selectors, promotes⟩ := uncut (by decide +kernel)
  have collapsed : enclosing.map (fun parent => (⟨parent.text, joinMedia parent.media
      (collapse "(width > min(1em, 2em))")⟩ : Selector)) =
      [⟨"a", "(width > min(1em, 2em))"⟩, ⟨"b", "print and (width > min(1em, 2em))"⟩] := by
    decide +kernel
  exact ⟨child, children, selectors.trans collapsed, promotes⟩

/-- The second query of a list becomes a descendant, and holds under no condition. -/
theorem children_mediaBlock_list :
    ∃ child, (ofItems [⟨"a", []⟩] [.block (some "@media screen, print") []]).children = [child] ∧
      child.selectors = [⟨"a", "screen"⟩, ⟨"a print", []⟩] ∧
      ¬ Promotes [⟨"a", []⟩] "screen, print" child := by
  refine ⟨ofItems (selectorsWithin [⟨"a", []⟩] (some "@media screen, print")) [], rfl, ?_, ?_⟩
  · rw [ofItems_eq]
    decide +kernel
  · intro promotes
    have solid : ¬ Blank "screen, print" := fun blank => absurd (blank 's' (by decide)) (by decide)
    refine promotes.media solid ⟨"a print", []⟩ ?_ rfl
    rw [ofItems_eq]
    decide +kernel

end Rule

end Flatsheet
