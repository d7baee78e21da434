import Flatsheet.Proofs.Replacement
import Flatsheet.Proofs.Words
import Flatsheet.Text.Listing

/-!
The separators of written lists. A separator is found wherever blanks lead up to a comma or a line
feed, and it takes the blanks on both sides. So although it may share its line feeds with these
blanks in several ways, splitting a trimmed text at its separators comes to the same as cutting at
every comma and line feed and trimming the parts.
-/

namespace Flatsheet.Text

/-- Blanks and commas. -/
def Filler (text : Text) : Prop := ∀ c ∈ text, isBlank c = true ∨ c = ','

instance (text : Text) : Decidable (Filler text) := List.decidableBAll _ text

/-- Blanks and commas that keep two items apart. -/
structure ListSeparator (text : Text) : Prop where
  filler : Filler text
  cuts : ',' ∈ text ∨ '\n' ∈ text

instance (text : Text) : Decidable (ListSeparator text) :=
  decidable_of_iff (Filler text ∧ (',' ∈ text ∨ '\n' ∈ text))
    ⟨fun ⟨filler, cuts⟩ => ⟨filler, cuts⟩, fun ⟨filler, cuts⟩ => ⟨filler, cuts⟩⟩

theorem Filler.nil : Filler [] := by simp [Filler]

theorem Filler.append {front rest : Text} (first : Filler front) (second : Filler rest) :
    Filler (front ++ rest) := fun c member =>
  (List.mem_append.mp member).elim (first c) (second c)

theorem Filler.of_blank {text : Text} (blank : Blank text) : Filler text := fun c member =>
  .inl (blank c member)

theorem isListSeparator_iff {c : Char} : isListSeparator c = true ↔ c = '\n' ∨ c = ',' := by
  simp [isListSeparator]

theorem Filler.of_isListSeparator {text : Text} (cuts : ∀ c ∈ text, isListSeparator c = true) :
    Filler text := by
  intro c member
  rcases isListSeparator_iff.mp (cuts c member) with rfl | rfl <;> decide

theorem unseparated_iff {text : Text} :
    (∀ c ∈ text, isListSeparator c = false) ↔ ',' ∉ text ∧ '\n' ∉ text := by
  constructor
  · intro uncut
    exact ⟨fun comma => absurd (uncut ',' comma) (by decide),
      fun line => absurd (uncut '\n' line) (by decide)⟩
  · intro absent c member
    obtain ⟨comma, line⟩ := absent
    rw [Bool.eq_false_iff, Ne, isListSeparator_iff]
    intro cuts
    rcases cuts with rfl | rfl
    · exact line member
    · exact comma member

theorem Filler.blank {filler : Text} (fills : Filler filler)
    (uncut : ∀ c ∈ filler, isListSeparator c = false) : Blank filler := by
  intro c member
  refine (fills c member).resolve_right fun comma => ?_
  simpa [comma, isListSeparator] using uncut c member

/-- A text is all in one part, or it has a first place to cut. -/
theorem cut_cases (text : Text) :
    (∀ c ∈ text, isListSeparator c = false) ∨
      ∃ (front : Text) (c : Char) (rest : Text), text = front ++ c :: rest ∧
        (∀ d ∈ front, isListSeparator d = false) ∧ isListSeparator c = true := by
  cases found : text.find? isListSeparator with
  | none => exact .inl (by simpa using found)
  | some c =>
      obtain ⟨cuts, front, rest, split, uncut⟩ := List.find?_eq_some_iff_append.mp found
      exact .inr ⟨front, c, rest, split, by simpa using uncut, cuts⟩

theorem parts_induction {motive : Text → Prop}
    (whole : ∀ text, (∀ c ∈ text, isListSeparator c = false) → motive text)
    (cut : ∀ (front : Text) (c : Char) (rest : Text), (∀ d ∈ front, isListSeparator d = false) →
      isListSeparator c = true → motive rest → motive (front ++ c :: rest))
    (text : Text) : motive text := by
  rcases cut_cases text with uncut | ⟨front, c, rest, split, uncut, cuts⟩
  · exact whole text uncut
  · rw [split]
    exact cut front c rest uncut cuts (parts_induction whole cut rest)
termination_by text.length
decreasing_by
  rw [split, List.length_append, List.length_cons]
  omega

/-- The parts between commas and line feeds, trimmed, without those that are empty then. -/
def cutItems (text : Text) : List Text :=
  ((splitWhere isListSeparator text).map trim).filter (· ≠ [])

theorem splitWhere_append_cut {c : Char} (cuts : isListSeparator c = true) (front rest : Text) :
    splitWhere isListSeparator (front ++ c :: rest) =
      splitWhere isListSeparator front ++ splitWhere isListSeparator rest := by
  simp only [splitWhere_eq_splitOnP, List.splitOnP_append_cons front rest cuts]

theorem splitWhere_of_uncut {text : Text} (uncut : ∀ c ∈ text, isListSeparator c = false) :
    splitWhere isListSeparator text = [text] := by
  rw [splitWhere_eq_splitOnP, List.splitOnP_eq_singleton uncut]

theorem cutItems_append_cut {c : Char} (cuts : isListSeparator c = true) (front rest : Text) :
    cutItems (front ++ c :: rest) = cutItems front ++ cutItems rest := by
  simp only [cutItems, splitWhere_append_cut cuts, List.map_append, List.filter_append]

theorem cutItems_of_uncut {text : Text} (uncut : ∀ c ∈ text, isListSeparator c = false) :
    cutItems text = if text.trim = [] then [] else [text.trim] := by
  rw [cutItems, splitWhere_of_uncut uncut]
  split <;> simp_all

theorem cutItems_cons_filler {c : Char} (fills : isBlank c = true ∨ c = ',') (text : Text) :
    cutItems (c :: text) = cutItems text := by
  cases cuts : isListSeparator c with
  | true => exact cutItems_append_cut cuts [] text
  | false =>
      have blank : isBlank c = true := by
        refine fills.resolve_right fun comma => ?_
        rw [comma] at cuts
        contradiction
      obtain ⟨part, parts, split⟩ :=
        List.exists_cons_of_ne_nil (splitWhere_ne_nil isListSeparator text)
      rw [cutItems, cutItems, splitWhere, if_neg (by simp [cuts]), split, List.modifyHead_cons,
        List.map_cons, List.map_cons, trim_cons_blank blank]

theorem cutItems_filler_append {filler : Text} (fills : Filler filler) (text : Text) :
    cutItems (filler ++ text) = cutItems text := by
  induction filler with
  | nil => rfl
  | cons c filler ih =>
      obtain ⟨first, later⟩ := List.forall_mem_cons.mp fills
      rw [List.cons_append, cutItems_cons_filler first, ih later]

theorem cutItems_filler {filler : Text} (fills : Filler filler) : cutItems filler = [] := by
  have none := cutItems_filler_append fills []
  rwa [List.append_nil] at none

theorem cutItems_append_uncut {blanks : Text} (blank : Blank blanks)
    (uncut : ∀ c ∈ blanks, isListSeparator c = false) (text : Text) :
    cutItems (text ++ blanks) = cutItems text := by
  induction text using parts_induction with
  | whole text whole =>
      have trimmed : (text ++ blanks).trim = text.trim := trim_pad .nil blank
      rw [cutItems_of_uncut whole, cutItems_of_uncut, trimmed]
      exact fun c member => (List.mem_append.mp member).elim (whole c) (uncut c)
  | cut front c rest _ cuts ih =>
      rw [List.append_assoc, List.cons_append, cutItems_append_cut cuts, cutItems_append_cut cuts,
        ih]

theorem cutItems_append_blank {blanks : Text} (blank : Blank blanks) (text : Text) :
    cutItems (text ++ blanks) = cutItems text := by
  rcases cut_cases blanks with uncut | ⟨front, c, rest, rfl, uncut, cuts⟩
  · exact cutItems_append_uncut blank uncut text
  · have leading : Blank front := fun d member => blank d (by simp [member])
    have trailing : Blank rest := fun d member => blank d (by simp [member])
    rw [← List.append_assoc, cutItems_append_cut cuts, cutItems_append_uncut leading uncut,
      cutItems_filler (.of_blank trailing), List.append_nil]

theorem cutItems_trim (text : Text) : cutItems text.trim = cutItems text := by
  obtain ⟨before, after, leading, trailing, split⟩ := trim_split text
  conv_rhs => rw [split, cutItems_filler_append (.of_blank leading), cutItems_append_blank trailing]

theorem afterBlanks?_eq_some {next : Text → Option Text} {text rest : Text}
    (found : afterBlanks? next text = some rest) :
    ∃ blanks left, Blank blanks ∧ text = blanks ++ left ∧ next left = some rest := by
  induction text with
  | nil => exact ⟨[], [], .nil, rfl, found⟩
  | cons c text ih =>
      rw [afterBlanks?] at found
      split at found
      next blank =>
          rcases Option.or_eq_some_iff.mp found with longer | ⟨_, here⟩
          · obtain ⟨blanks, left, inside, rfl, goesOn⟩ := ih longer
            exact ⟨c :: blanks, left, List.forall_mem_cons.mpr ⟨blank, inside⟩, rfl, goesOn⟩
          · exact ⟨[], c :: text, .nil, rfl, here⟩
      · exact ⟨[], c :: text, .nil, rfl, found⟩

theorem skipSeparators?_eq_some {text rest : Text} (found : skipSeparators? text = some rest) :
    ∃ source, ListSeparator source ∧ text = source ++ rest ∧
      ∀ c ∈ rest.head?, isBlank c = false := by
  obtain ⟨⟨run, left⟩, read, rfl⟩ := Option.map_eq_some_iff.mp found
  obtain ⟨rfl, nonempty, cuts, _⟩ := run?_eq_some.mp read
  obtain ⟨blanks, blank, split⟩ := trimLeft_split left
  refine ⟨run ++ blanks, ⟨.append (.of_isListSeparator cuts) (.of_blank blank), ?_⟩, ?_,
    head?_dropWhile_fails isBlank left⟩
  · obtain ⟨c, run, rfl⟩ := List.exists_cons_of_ne_nil nonempty
    rcases isListSeparator_iff.mp (cuts c (by simp)) with rfl | rfl <;> simp
  · rw [List.append_assoc, ← split]

theorem listSeparator?_eq_some {text rest : Text} {value : Unit}
    (found : listSeparator? text = some (value, rest)) :
    ∃ source, ListSeparator source ∧ text = source ++ rest ∧
      ∀ c ∈ rest.head?, isBlank c = false := by
  obtain ⟨left, read, same⟩ := Option.map_eq_some_iff.mp found
  obtain ⟨_, rfl⟩ := Prod.mk.inj same
  obtain ⟨blanks, more, blank, rfl, goesOn⟩ := afterBlanks?_eq_some read
  obtain ⟨source, separates, rfl, solid⟩ := skipSeparators?_eq_some goesOn
  refine ⟨blanks ++ source, ⟨.append (.of_blank blank) separates.filler, ?_⟩, by simp, solid⟩
  exact separates.cuts.imp (List.mem_append_right _) (List.mem_append_right _)

theorem listSeparator?_proper : Pattern.Proper listSeparator? := by
  intro text value rest found
  obtain ⟨source, separates, rfl, _⟩ := listSeparator?_eq_some found
  refine ⟨source, ?_, rfl⟩
  rintro rfl
  simpa using separates.cuts

/-- A blank in front of a separator is part of it. -/
theorem listSeparator?_cons_blank {c : Char} {text : Text} (blank : isBlank c = true)
    (follows : (listSeparator? text).isSome = true) :
    (listSeparator? (c :: text)).isSome = true := by
  rw [listSeparator?, Option.isSome_map] at follows ⊢
  rw [afterBlanks?, if_pos blank, Option.isSome_or, follows, Bool.true_or]

theorem listSeparator?_cons_cut {c : Char} (cuts : isListSeparator c = true) (text : Text) :
    (listSeparator? (c :: text)).isSome = true := by
  have skips : (skipSeparators? (c :: text)).isSome = true := by
    simp [skipSeparators?, run?, cuts]
  rw [listSeparator?, Option.isSome_map, afterBlanks?]
  split
  · rw [Option.isSome_or, skips, Bool.or_true]
  · exact skips

theorem head?_splitWhere {cut : Char → Bool} {text part : Text} {parts : List Text}
    (split : splitWhere cut text = part :: parts) : ∀ c ∈ part.head?, c ∈ text.head? := by
  cases text with
  | nil =>
      obtain ⟨rfl, _⟩ := List.cons.inj split
      simp
  | cons d text =>
      rw [splitWhere] at split
      split at split
      · obtain ⟨rfl, _⟩ := List.cons.inj split
        simp
      · obtain ⟨first, others, rest⟩ := List.exists_cons_of_ne_nil (splitWhere_ne_nil cut text)
        rw [rest, List.modifyHead_cons] at split
        obtain ⟨rfl, _⟩ := List.cons.inj split
        simp

/-- The parts that the separators of a text leave are those between its commas and line feeds. The
first has lost the blanks at its end. If nothing is left of it, the text begins with a separator. -/
def SplitsAlike (text : Text) (parts : List Text) : Prop :=
  ∃ first others later, splitWhere isListSeparator text = first :: others ∧
    parts = first.trimRight :: later ∧
    later.filter (· ≠ []) = (others.map trim).filter (· ≠ []) ∧
    (first.trimRight = [] → text = [] ∨ (listSeparator? text).isSome = true)

namespace SplitsAlike

variable {text rest source : Text} {parts : List Text} {c : Char}

theorem char (missed : listSeparator? (c :: rest) = none)
    (ended : ∀ d ∈ (c :: rest).getLast?, isBlank d = false) (alike : SplitsAlike rest parts) :
    SplitsAlike (c :: rest) (parts.modifyHead (c :: ·)) := by
  obtain ⟨first, others, later, split, rfl, same, empty⟩ := alike
  have uncut : ¬ isListSeparator c = true := fun cuts => by
    simpa [missed] using listSeparator?_cons_cut cuts rest
  have kept : trimRight (c :: first) = c :: first.trimRight := by
    refine trimRight_cons fun blank nothing => ?_
    rcases empty nothing with rfl | follows
    · simpa [blank] using ended c rfl
    · simpa [missed] using listSeparator?_cons_blank blank follows
  refine ⟨c :: first, others, later, ?_, ?_, same, ?_⟩
  · rw [splitWhere, if_neg uncut, split, List.modifyHead_cons]
  · rw [List.modifyHead_cons, kept]
  · rw [kept]
    exact fun nothing => absurd nothing (List.cons_ne_nil _ _)

theorem filter_eq (alike : SplitsAlike text parts) (solid : ∀ d ∈ text.head?, isBlank d = false) :
    parts.filter (· ≠ []) = cutItems text := by
  obtain ⟨first, others, later, split, rfl, same, _⟩ := alike
  have begins : first.trimLeft = first := by
    cases first with
    | nil => rfl
    | cons d first => simp [trimLeft, solid d (head?_splitWhere split d rfl)]
  rw [cutItems, split, List.map_cons, List.filter_cons, List.filter_cons, same, trim, begins]

theorem hit (separates : ListSeparator source)
    (found : (listSeparator? (source ++ rest)).isSome = true)
    (solid : ∀ d ∈ rest.head?, isBlank d = false) (alike : SplitsAlike rest parts) :
    SplitsAlike (source ++ rest) ([] :: parts) := by
  have same := alike.filter_eq solid
  rcases cut_cases source with uncut | ⟨blanks, c, more, rfl, uncut, cuts⟩
  · exact absurd separates.cuts (not_or.mpr (unseparated_iff.mp uncut))
  · have around : Filler blanks ∧ Filler more :=
      ⟨fun d member => separates.filler d (by simp [member]),
        fun d member => separates.filler d (by simp [member])⟩
    refine ⟨blanks, splitWhere isListSeparator (more ++ rest), parts, ?_, ?_, ?_,
      fun _ => .inr found⟩
    · rw [List.append_assoc, List.cons_append, splitWhere_append_cut cuts,
        splitWhere_of_uncut uncut, List.singleton_append]
    · rw [trimRight_of_blank (around.1.blank uncut)]
    · rw [same, ← cutItems_filler_append around.2 rest, cutItems]

end SplitsAlike

theorem splitsAlike_split {text : Text} (ended : ∀ c ∈ text.getLast?, isBlank c = false) :
    SplitsAlike text (listSeparator?.split text) := by
  revert ended
  refine Pattern.cut_induction listSeparator?_proper (motive := fun text pieces =>
    (∀ c ∈ text.getLast?, isBlank c = false) → SplitsAlike text (Pattern.partsOf pieces))
    ?_ ?_ ?_ text
  · exact fun _ => ⟨[], [], [], rfl, rfl, rfl, fun _ => .inl rfl⟩
  · intro c rest missed ih ended
    refine .char missed ended (ih fun d last => ended d ?_)
    rw [List.getLast?_cons, Option.mem_def.mp last]
    rfl
  · intro source value rest _ found ih ended
    obtain ⟨covered, separates, split, solid⟩ := listSeparator?_eq_some found
    obtain rfl : source = covered := List.append_cancel_right split
    refine .hit separates (by rw [found]; rfl) solid (ih fun d last => ended d ?_)
    rw [List.getLast?_append, Option.mem_def.mp last]
    rfl

/-- Splitting the trimmed text at its separators leaves the parts between commas and line feeds,
trimmed: the blanks that a separator takes in front are those at the end of a part, and the blanks
that it takes behind are those at the start of the next. -/
theorem splitList_eq (text : Text) : splitList text = cutItems text := by
  have trimmed := trimmed_trim text
  rw [splitList, (splitsAlike_split trimmed.last).filter_eq trimmed.head, cutItems_trim]

end Flatsheet.Text
