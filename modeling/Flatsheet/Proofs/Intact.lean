import Flatsheet.Proofs.Match
import Flatsheet.Proofs.Separators
import Flatsheet.Proofs.Vault

/-!
What the operations on texts do to placeholders. Trimming, cutting at commas, blanks or braces and
joining keep a text intact, and so does replacing the matches of a pattern, because no match starts
or ends inside a placeholder.
-/

namespace Flatsheet

open Std.Do Vault

universe u

variable {alone : Prop} {low high : Nat}

namespace Vault.Intact

theorem trimLeft {text : Text} (intact : Intact alone low high text) :
    Intact alone low high text.trimLeft := by
  obtain ⟨blanks, blank, split⟩ := Text.trimLeft_split text
  rw [split] at intact
  exact (intact.split_after fun c member => (Unmarked.of_blank blank c member).1).2

theorem trimRight {text : Text} (intact : Intact alone low high text) :
    Intact alone low high text.trimRight := by
  obtain ⟨blanks, blank, split⟩ := Text.trimRight_split text
  cases blanks with
  | nil => rwa [← List.append_nil text.trimRight, ← split]
  | cons c blanks =>
      rw [split] at intact
      exact (intact.split_solid (solid_of_isBlank (blank c (by simp)))).1

theorem trim {text : Text} (intact : Intact alone low high text) :
    Intact alone low high text.trim :=
  intact.trimLeft.trimRight

theorem join {separator : Text} {parts : List Text} (between : Unmarked separator)
    (intact : ∀ part ∈ parts, Intact alone low high part) :
    Intact alone low high (Text.join separator parts) := by
  induction parts with
  | nil => exact .nil
  | cons part parts ih =>
      cases parts with
      | nil =>
          rw [show Text.join separator [part] = part by simp [Text.join, List.intercalate]]
          exact intact part (by simp)
      | cons next parts =>
          rw [show Text.join separator (part :: next :: parts) =
            part ++ (separator ++ Text.join separator (next :: parts)) by
              simp [Text.join, List.intercalate]]
          exact (intact part (by simp)).append ((of_unmarked between).append
            (ih fun other member => intact other (by simp [member])))

end Vault.Intact

/-- The parts of a text between solid characters. -/
inductive Text.Parted : (parts : List Text) → Text → Prop
  | last (part : Text) : Parted [part] part
  | cons {c : Char} {parts : List Text} {text : Text} (part : Text) (solid : Solid c)
      (rest : Parted parts text) : Parted (part :: parts) (part ++ c :: text)

namespace Text.Parted

theorem push {parts : List Text} {text : Text} (c : Char) (parted : Parted parts text) :
    Parted (parts.modifyHead (c :: ·)) (c :: text) := by
  cases parted with
  | last => exact .last _
  | cons part solid rest => exact .cons (c :: part) solid rest

theorem intact {parts : List Text} {text : Text} (parted : Parted parts text)
    (whole : Intact alone low high text) : ∀ part ∈ parts, Intact alone low high part := by
  induction parted with
  | last part => simpa using whole
  | cons part solid _ ih =>
      obtain ⟨before, after⟩ := whole.split_solid solid
      simpa using ⟨before, ih after⟩

end Text.Parted

theorem Text.splitWhere_parted {cut : Char → Bool} (solid : ∀ c, cut c = true → Solid c)
    (text : Text) : Parted (splitWhere cut text) text := by
  induction text with
  | nil => exact .last []
  | cons c text ih =>
      rw [splitWhere]
      split
      next cuts => exact .cons [] (solid c cuts) ih
      · exact ih.push c

theorem Text.splitOutside_parted (depth : Nat) (text : Text) :
    Parted (splitOutside [','] depth text) text := by
  induction text generalizing depth with
  | nil => exact .last []
  | cons c text ih =>
      rw [splitOutside]
      split
      next cuts =>
          obtain rfl : c = ',' := by simpa using cuts.1
          exact .cons [] (by decide) (ih _)
      · exact (ih _).push c

namespace Vault.Intact

theorem words {text : Text} (intact : Intact alone low high text) :
    ∀ word ∈ text.words, Intact alone low high word := by
  intro word member
  have parted := Text.splitWhere_parted (fun _ => solid_of_isBlank) text
  exact parted.intact intact word (List.mem_filter.mp member).1

theorem collapse {text : Text} (intact : Intact alone low high text) :
    Intact alone low high text.collapse :=
  join (by decide) intact.words

theorem splitList {text : Text} (intact : Intact alone low high text) :
    ∀ item ∈ text.splitList, Intact alone low high item := by
  intro item member
  rw [Text.splitList_eq] at member
  obtain ⟨part, inside, rfl⟩ := List.mem_map.mp (List.mem_filter.mp member).1
  have solid : ∀ c, Text.isListSeparator c = true → Solid c := by
    intro c separates
    rcases Text.isListSeparator_iff.mp separates with rfl | rfl <;> decide
  exact ((Text.splitWhere_parted solid text).intact intact part inside).trim

theorem splitTopLevel {text : Text} (intact : Intact alone low high text) :
    ∀ part ∈ text.splitTopLevel, Intact alone low high part := by
  intro part member
  obtain ⟨piece, inside, rfl⟩ := List.mem_map.mp (List.mem_filter.mp member).1
  exact ((Text.splitOutside_parted 0 text).intact intact piece inside).collapse

theorem body {text inside rest : Text} (found : Block.body text = (inside, rest))
    (intact : Intact alone low high text) :
    Intact alone low high inside ∧ Intact alone low high rest := by
  rcases Block.body_split found with rfl | ⟨rfl, rfl⟩
  · exact intact.split_solid (by decide)
  · exact ⟨intact, .nil⟩

end Vault.Intact

namespace Pattern

variable {α : Type u} {pattern : Pattern α}

/-- A match covers at least one character, and it neither starts nor ends inside a placeholder. -/
structure Whole (pattern : Pattern α) : Prop where
  proper : pattern.Proper
  splits : ∀ {alone : Prop} {low high : Nat} {before source value rest},
    pattern (source ++ rest) = some (value, rest) →
    Intact alone low high (before ++ (source ++ rest)) →
    Intact alone low high before ∧ Intact alone low high source ∧ Intact alone low high rest

/-- Where the text starts no placeholder is cut: a solid character comes before any closing mark. -/
def Starts (text : Text) : Prop :=
  ∃ front c rest, Solid c ∧ (∀ c ∈ front, c ≠ closeMark) ∧ text = front ++ c :: rest

/-- Between the two texts no placeholder is cut: the first has no opening mark or ends with a solid
character, or the second starts with one or is empty. -/
def Ends (source rest : Text) : Prop :=
  (∀ c ∈ source, c ≠ openMark) ∨ (∃ front c, Solid c ∧ source = front ++ [c]) ∨
    ∀ c ∈ rest.head?, Solid c

theorem Starts.of_solid {c : Char} {rest : Text} (solid : Solid c) : Starts (c :: rest) :=
  ⟨[], c, rest, solid, by simp, rfl⟩

theorem Starts.of_unmarked {front rest : Text} {c : Char} (unmarked : Unmarked front)
    (solid : Solid c) : Starts (front ++ c :: rest) :=
  ⟨front, c, rest, solid, fun c member => (unmarked c member).2, rfl⟩

theorem Ends.of_solid {front rest : Text} {c : Char} (solid : Solid c) : Ends (front ++ [c]) rest :=
  .inr (.inl ⟨front, c, solid, rfl⟩)

theorem Whole.of_ends (edges : ∀ ⦃text value rest⦄, pattern text = some (value, rest) →
    ∃ source, source ≠ [] ∧ text = source ++ rest ∧ Starts text ∧ Ends source rest) :
    pattern.Whole := by
  constructor
  · intro text value rest found
    obtain ⟨source, covers, split, _⟩ := edges found
    exact ⟨source, covers, split⟩
  · intro alone low high before source value rest found intact
    obtain ⟨source', _, same, starts, ends⟩ := edges found
    obtain rfl := List.append_cancel_right same
    obtain ⟨front, c, more, solid, unclosed, split⟩ := starts
    rw [split] at intact
    obtain ⟨first, second⟩ := intact.split_before solid unclosed
    rw [← split] at second
    refine ⟨first, ?_⟩
    rcases ends with unopened | ⟨front, c, solid, rfl⟩ | follows
    · exact second.split_after unopened
    · rw [List.append_assoc] at second
      obtain ⟨inside, left⟩ := second.split_solid solid
      exact ⟨inside.append (.of_solid solid .nil), left⟩
    · cases rest with
      | nil => exact ⟨by simpa using second, .nil⟩
      | cons c rest =>
          have solid := follows c (by simp)
          obtain ⟨inside, left⟩ := second.split_solid solid
          exact ⟨inside, .of_solid solid left⟩

/-- Replacing matches by intact texts keeps a text intact. -/
theorem Whole.replace (whole : pattern.Whole) {replacement : α → Text} {text : Text}
    (replaced : ∀ source value rest, pattern (source ++ rest) = some (value, rest) →
      Intact alone low high source → Intact alone low high (replacement value))
    (intact : Intact alone low high text) :
    Intact alone low high (pattern.replace replacement text) := by
  refine replace_invariant whole.proper (Intact alone low high) ?_ intact
  intro written source value left found holds
  obtain ⟨before, covered, after⟩ := whole.splits found holds
  exact before.append ((replaced source value left found covered).append after)

theorem Whole.erase (whole : pattern.Whole) {text : Text} (intact : Intact alone low high text) :
    Intact alone low high (pattern.erase text) :=
  whole.replace (fun _ _ _ _ _ => .nil) intact

end Pattern

end Flatsheet
