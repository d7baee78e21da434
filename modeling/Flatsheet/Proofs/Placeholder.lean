import Mathlib.Data.List.Basic
import Flatsheet.Proofs.Reading
import Flatsheet.Vault

/-!
Texts with placeholders in them. A text is intact when it is made of characters and whole
placeholders. It may be cut in two wherever the cut does not run through a placeholder, and the
lemmas here say where that is known: before a character that no placeholder holds, after a text
without an opening mark, after an intact text.
-/

namespace Flatsheet

theorem toNat_of_isDigit {c : Char} (digit : c.isDigit = true) : 48 ≤ c.toNat ∧ c.toNat < 58 := by
  simp only [Char.isDigit, Bool.and_eq_true, decide_eq_true_eq, UInt32.le_iff_toNat_le,
    ge_iff_le] at digit
  exact ⟨digit.1, Nat.lt_succ_of_le digit.2⟩

theorem digitValue?_of_isDigit {c : Char} (digit : c.isDigit = true) :
    digitValue? c = some (c.toNat - 48) := by
  obtain ⟨lower, upper⟩ := toNat_of_isDigit digit
  have first : (48 ≤ c.toNat && c.toNat < 48 + 10) = true := by simp [lower, upper]
  simp [digitValue?, digitZeros, first]

theorem isDecimalDigit_of_isDigit {c : Char} (digit : c.isDigit = true) :
    isDecimalDigit c = true := by
  simp [isDecimalDigit, digitValue?_of_isDigit digit]

theorem isWord_of_isDigit {c : Char} (digit : c.isDigit = true) : isWord c = true := by
  have small : c.toNat < 0x80 := by
    have := toNat_of_isDigit digit
    omega
  simp [isWord, small, Char.isAlphanum, digit]

theorem not_isBlank_of_isDigit {c : Char} (digit : c.isDigit = true) : isBlank c = false := by
  have := toNat_of_isDigit digit
  simp only [isBlank, Bool.or_eq_false_iff, Bool.and_eq_false_iff, decide_eq_false_iff_not,
    beq_eq_false_iff_ne]
  omega

namespace Text

theorem isDigit_of_mem_ofNat {number : Nat} {c : Char} (member : c ∈ ofNat number) :
    c.isDigit = true :=
  Nat.isDigit_of_mem_toDigits (by decide) (by decide) member

theorem ofNat_ne_nil (number : Nat) : ofNat number ≠ [] := Nat.toDigits_ne_nil

theorem decimalValue_ofNat (number : Nat) : decimalValue (ofNat number) = number := by
  have read := Nat.ofDigitChars_ten_toDigits (n := number)
  rw [Nat.ofDigitChars_eq_foldl] at read
  refine Eq.trans ?_ read
  apply List.foldl_ext
  intro value c member
  have digit := Nat.isDigit_of_mem_toDigits (by decide) (by decide) member
  simp [digitValue?_of_isDigit digit]

end Text

namespace Vault

theorem not_isWord_openMark : isWord openMark = false := by decide +kernel

theorem not_isWord_closeMark : isWord closeMark = false := by decide +kernel

theorem not_isDecimalDigit_openMark : isDecimalDigit openMark = false := by decide +kernel

theorem not_isDecimalDigit_closeMark : isDecimalDigit closeMark = false := by decide +kernel

theorem openMark_ne_closeMark : openMark ≠ closeMark := by decide

/-- No placeholder holds the character. -/
def Solid (c : Char) : Prop := c ≠ openMark ∧ c ≠ closeMark ∧ c.isDigit = false

instance (c : Char) : Decidable (Solid c) := inferInstanceAs (Decidable (_ ∧ _))

/-- Neither mark stands in the text. -/
def Unmarked (text : Text) : Prop := ∀ c ∈ text, c ≠ openMark ∧ c ≠ closeMark

instance (text : Text) : Decidable (Unmarked text) := List.decidableBAll _ text

theorem solid_of_isBlank {c : Char} (blank : isBlank c = true) : Solid c := by
  refine ⟨?_, ?_, ?_⟩
  · rintro rfl
    exact absurd blank (by decide)
  · rintro rfl
    exact absurd blank (by decide)
  · cases digit : c.isDigit with
    | false => rfl
    | true => simp [not_isBlank_of_isDigit digit] at blank

theorem ne_marks_of_isWord {c : Char} (word : isWord c = true) : c ≠ openMark ∧ c ≠ closeMark := by
  constructor
  · rintro rfl
    simp [not_isWord_openMark] at word
  · rintro rfl
    simp [not_isWord_closeMark] at word

theorem ne_marks_of_isName {c : Char} (name : isName c = true) : c ≠ openMark ∧ c ≠ closeMark := by
  rw [isName, Bool.or_eq_true, beq_iff_eq] at name
  rcases name with word | rfl
  · exact ne_marks_of_isWord word
  · decide

theorem Unmarked.of_blank {text : Text} (blank : Text.Blank text) : Unmarked text := fun c member =>
  let ⟨opening, closing, _⟩ := solid_of_isBlank (blank c member)
  ⟨opening, closing⟩

theorem Unmarked.append {front rest : Text} (first : Unmarked front) (second : Unmarked rest) :
    Unmarked (front ++ rest) := by
  intro c member
  rcases List.mem_append.mp member with early | late
  · exact first c early
  · exact second c late

theorem placeholder_eq (number : Nat) :
    placeholder number = openMark :: (Text.ofNat number ++ [closeMark]) := rfl

theorem closeMark_not_mem_ofNat (number : Nat) : closeMark ∉ Text.ofNat number := by
  intro member
  exact absurd (Text.isDigit_of_mem_ofNat member) (by decide)

theorem openMark_not_mem_ofNat (number : Nat) : openMark ∉ Text.ofNat number := by
  intro member
  exact absurd (Text.isDigit_of_mem_ofNat member) (by decide)

theorem not_solid_of_mem_placeholder {number : Nat} {c : Char} (member : c ∈ placeholder number) :
    ¬ Solid c := by
  rintro ⟨opening, closing, digit⟩
  rw [placeholder_eq, List.mem_cons, List.mem_append, List.mem_singleton] at member
  rcases member with first | inside | last
  · exact opening first
  · simp [Text.isDigit_of_mem_ofNat inside] at digit
  · exact closing last

/-- A cut of a placeholder is at one of its ends, or leaves digits and the closing mark. -/
theorem placeholder_split {number : Nat} {front rest : Text}
    (split : placeholder number = front ++ rest) :
    front = [] ∨ rest = [] ∨ ∃ digits, (∀ c ∈ digits, c.isDigit = true) ∧
      rest = digits ++ [closeMark] := by
  cases front with
  | nil => exact .inl rfl
  | cons first front =>
      have within : Text.ofNat number ++ [closeMark] = front ++ rest := by
        rw [placeholder_eq] at split
        exact (List.cons.inj split).2
      rcases List.append_eq_append_iff.mp within with ⟨left, rfl, last⟩ | ⟨digits, number, rfl⟩
      · cases left with
        | nil => exact .inr (.inr ⟨[], by simp, last.symm⟩)
        | cons c left =>
            have empty : rest = [] := (List.append_eq_nil_iff.mp (List.cons.inj last).2.symm).2
            exact .inr (.inl empty)
      · refine .inr (.inr ⟨digits, ?_, rfl⟩)
        intro c member
        exact Text.isDigit_of_mem_ofNat (number ▸ List.mem_append_right front member)

theorem before_openMark {number : Nat} {before rest : Text}
    (split : placeholder number = before ++ openMark :: rest) : before = [] := by
  rcases placeholder_split split with empty | empty | ⟨digits, decimal, same⟩
  · exact empty
  · contradiction
  · cases digits with
    | nil => exact absurd (List.cons.inj same).1 openMark_ne_closeMark
    | cons digit digits =>
        obtain ⟨rfl, _⟩ := List.cons.inj same
        exact absurd (decimal openMark (by simp)) (by decide)

theorem after_closeMark {number : Nat} {before rest : Text}
    (split : placeholder number = before ++ closeMark :: rest) : rest = [] := by
  rcases placeholder_split split with rfl | empty | ⟨digits, decimal, same⟩
  · rw [placeholder_eq] at split
    exact absurd (List.cons.inj split).1 openMark_ne_closeMark
  · contradiction
  · cases digits with
    | nil => exact (List.cons.inj same).2
    | cons digit digits =>
        obtain ⟨rfl, _⟩ := List.cons.inj same
        exact absurd (decimal closeMark (by simp)) (by decide)

theorem placeholder?_eq_some {text digits rest : Text} :
    placeholder? text = some (digits, rest) ↔
      text = openMark :: (digits ++ closeMark :: rest) ∧ digits ≠ [] ∧
        ∀ c ∈ digits, isDecimalDigit c = true := by
  cases text with
  | nil => simp [placeholder?]
  | cons c text =>
      by_cases opening : c = openMark
      · subst opening
        rw [placeholder?, if_pos rfl, List.cons.injEq, and_iff_right rfl]
        constructor
        · intro found
          split at found
          next run mark left read =>
              split at found
              next closing =>
                  obtain ⟨rfl, rfl⟩ : run = digits ∧ left = rest := by simpa using found
                  obtain ⟨split, nonempty, inside, _⟩ := Text.run?_eq_some.mp read
                  exact ⟨by rw [split, closing], nonempty, inside⟩
              · contradiction
          · contradiction
        · rintro ⟨rfl, nonempty, inside⟩
          have read : Text.run? isDecimalDigit (digits ++ closeMark :: rest) =
              some (digits, closeMark :: rest) := by
            refine Text.run?_eq_some.mpr ⟨rfl, nonempty, inside, ?_⟩
            intro mark head
            obtain rfl : closeMark = mark := by simpa using head
            exact not_isDecimalDigit_closeMark
          simp [read]
      · simp [placeholder?, opening]

theorem placeholder?_of_ne {c : Char} {text : Text} (other : c ≠ openMark) :
    placeholder? (c :: text) = none := by
  simp [placeholder?, other]

theorem placeholder?_placeholder (number : Nat) (rest : Text) :
    placeholder? (placeholder number ++ rest) = some (Text.ofNat number, rest) :=
  placeholder?_eq_some.mpr ⟨by simp [placeholder_eq], Text.ofNat_ne_nil number, fun _ member =>
    isDecimalDigit_of_isDigit (Text.isDigit_of_mem_ofNat member)⟩

/-- Characters and placeholders with numbers above `low` and up to `high`. A closing mark that ends
no placeholder may stand in the text only if `alone` says so. -/
inductive Intact (alone : Prop) (low high : Nat) : Text → Prop
  | nil : Intact alone low high []
  | char {c : Char} {text : Text} (opening : c ≠ openMark) (closing : c = closeMark → alone)
      (rest : Intact alone low high text) : Intact alone low high (c :: text)
  | placeholder {number : Nat} {text : Text} (above : low < number) (below : number ≤ high)
      (rest : Intact alone low high text) :
      Intact alone low high (Vault.placeholder number ++ text)

variable {alone : Prop} {low high : Nat}

namespace Intact

theorem mono {alone' : Prop} {high' : Nat} {text : Text} (intact : Intact alone low high text)
    (allowed : alone → alone') (grown : high ≤ high') : Intact alone' low high' text := by
  induction intact with
  | nil => exact .nil
  | char opening closing _ ih => exact .char opening (fun same => allowed (closing same)) ih
  | placeholder above below _ ih => exact .placeholder above (below.trans grown) ih

theorem grow {high' : Nat} {text : Text} (intact : Intact alone low high text)
    (grown : high ≤ high') : Intact alone low high' text :=
  intact.mono id grown

theorem of_unmarked {text : Text} (unmarked : Unmarked text) : Intact alone low high text := by
  induction text with
  | nil => exact .nil
  | cons c text ih =>
      obtain ⟨opening, closing⟩ := unmarked c (by simp)
      exact .char opening (fun same => absurd same closing)
        (ih fun other member => unmarked other (by simp [member]))

theorem of_unopened {text : Text} (unopened : openMark ∉ text) : Intact True low high text := by
  induction text with
  | nil => exact .nil
  | cons c text ih =>
      obtain ⟨other, later⟩ : openMark ≠ c ∧ openMark ∉ text := by simpa using unopened
      exact .char other.symm (fun _ => trivial) (ih later)

theorem append {front rest : Text} (first : Intact alone low high front)
    (second : Intact alone low high rest) : Intact alone low high (front ++ rest) := by
  induction first with
  | nil => exact second
  | char opening closing _ ih => exact .char opening closing ih
  | placeholder above below _ ih =>
      rw [List.append_assoc]
      exact .placeholder above below ih

theorem of_solid {c : Char} {text : Text} (solid : Solid c) (intact : Intact alone low high text) :
    Intact alone low high (c :: text) :=
  .char solid.1 (fun same => absurd same solid.2.1) intact

theorem tail {c : Char} {text : Text} (other : c ≠ openMark)
    (intact : Intact alone low high (c :: text)) : Intact alone low high text := by
  generalize whole : c :: text = all at intact
  cases intact with
  | nil => cases whole
  | char _ _ rest => cases whole; exact rest
  | placeholder =>
      rw [placeholder_eq, List.cons_append, List.cons.injEq] at whole
      exact absurd whole.1 other

/-- An opening mark starts a placeholder, which is read up to the first closing mark. -/
theorem after_openMark {digits rest : Text} (digitsOnly : closeMark ∉ digits)
    (intact : Intact alone low high (openMark :: (digits ++ closeMark :: rest))) :
    ∃ number, low < number ∧ number ≤ high ∧ digits = Text.ofNat number ∧
      Intact alone low high rest := by
  generalize whole : openMark :: (digits ++ closeMark :: rest) = all at intact
  cases intact with
  | nil => cases whole
  | char opening _ _ => cases whole; contradiction
  | @placeholder number text above below left =>
      have same : digits ++ closeMark :: rest = Text.ofNat number ++ closeMark :: text := by
        simpa [placeholder_eq] using whole
      obtain ⟨rfl, rfl⟩ := Text.append_mark_inj digitsOnly (closeMark_not_mem_ofNat number) same
      exact ⟨number, above, below, rfl, left⟩

theorem of_append_left {front rest : Text} (first : Intact alone low high front)
    (whole : Intact alone low high (front ++ rest)) : Intact alone low high rest := by
  induction first with
  | nil => exact whole
  | char opening _ _ ih => exact ih (whole.tail opening)
  | @placeholder number text _ _ _ ih =>
      have opened : Intact alone low high
          (openMark :: (Text.ofNat number ++ closeMark :: (text ++ rest))) := by
        simpa [placeholder_eq] using whole
      obtain ⟨_, _, _, _, left⟩ := opened.after_openMark (closeMark_not_mem_ofNat number)
      exact ih left

/-- A cut leaves both sides intact, or it runs through a placeholder: then digits and a closing mark
come after it. -/
theorem split_or_inside {front rest : Text} (whole : Intact alone low high (front ++ rest)) :
    (Intact alone low high front ∧ Intact alone low high rest) ∨
      ∃ digits left, (∀ c ∈ digits, c.isDigit = true) ∧ rest = digits ++ closeMark :: left := by
  generalize all : front ++ rest = text at whole
  induction whole generalizing front with
  | nil =>
      obtain ⟨rfl, rfl⟩ := List.append_eq_nil_iff.mp all
      exact .inl ⟨.nil, .nil⟩
  | @char c text opening closing intact ih =>
      cases front with
      | nil =>
          obtain rfl : rest = c :: text := all
          exact .inl ⟨.nil, .char opening closing intact⟩
      | cons first front =>
          obtain ⟨rfl, same⟩ : first = c ∧ front ++ rest = text := by simpa using all
          rcases ih same with ⟨before, after⟩ | inside
          · exact .inl ⟨.char opening closing before, after⟩
          · exact .inr inside
  | @placeholder number text above below intact ih =>
      rcases List.append_eq_append_iff.mp all with ⟨excess, split, left⟩ | ⟨excess, split, left⟩
      · rcases placeholder_split split with rfl | rfl | ⟨digits, decimal, rfl⟩
        · obtain rfl : Vault.placeholder number = excess := split
          exact .inl ⟨.nil, left ▸ .placeholder above below intact⟩
        · obtain rfl : rest = text := left
          obtain rfl : Vault.placeholder number = front := split.trans (List.append_nil front)
          exact .inl ⟨List.append_nil (Vault.placeholder number) ▸ .placeholder above below .nil,
            intact⟩
        · exact .inr ⟨digits, text, decimal, by simpa using left⟩
      · obtain ⟨before, after⟩ | inside := ih left.symm
        · exact .inl ⟨split ▸ .placeholder above below before, after⟩
        · exact .inr inside

/-- A cut before a text that reaches a solid character without a closing mark. -/
theorem split_before {before front rest : Text} {c : Char} (solid : Solid c)
    (unclosed : ∀ c ∈ front, c ≠ closeMark)
    (whole : Intact alone low high (before ++ (front ++ c :: rest))) :
    Intact alone low high before ∧ Intact alone low high (front ++ c :: rest) := by
  rcases whole.split_or_inside with split | ⟨digits, left, inside, same⟩
  · exact split
  exfalso
  induction front generalizing digits before with
  | nil =>
      cases digits with
      | nil => exact solid.2.1 (List.cons.inj same).1
      | cons digit digits =>
          have := inside digit (by simp)
          rw [← (List.cons.inj same).1, solid.2.2] at this
          exact Bool.false_ne_true this
  | cons first front ih =>
      cases digits with
      | nil => exact unclosed first (by simp) (List.cons.inj same).1
      | cons digit digits =>
          have moved : Intact alone low high (before ++ [first] ++ (front ++ c :: rest)) := by
            simpa using whole
          exact ih (fun c member => unclosed c (by simp [member])) moved digits
            (fun c member => inside c (by simp [member])) (List.cons.inj same).2

theorem split_after {front rest : Text} (unopened : ∀ c ∈ front, c ≠ openMark)
    (whole : Intact alone low high (front ++ rest)) :
    Intact alone low high front ∧ Intact alone low high rest := by
  induction front with
  | nil => exact ⟨.nil, whole⟩
  | cons c front ih =>
      have other := unopened c (by simp)
      have later : ∀ c ∈ front, c ≠ openMark := fun c member => unopened c (by simp [member])
      obtain ⟨before, after⟩ := ih later (whole.tail other)
      refine ⟨?_, after⟩
      generalize all : c :: front ++ rest = text at whole
      cases whole with
      | nil => cases all
      | char _ closing _ => cases all; exact .char other closing before
      | placeholder =>
          rw [placeholder_eq, List.cons_append, List.cons_append, List.cons.injEq] at all
          exact absurd all.1 other

theorem split_solid {before rest : Text} {c : Char} (solid : Solid c)
    (whole : Intact alone low high (before ++ c :: rest)) :
    Intact alone low high before ∧ Intact alone low high rest := by
  have cut : Intact alone low high (before ++ ([] ++ c :: rest)) := whole
  obtain ⟨first, second⟩ := cut.split_before solid (by simp)
  exact ⟨first, second.tail solid.1⟩

end Intact

/-- Every opening mark starts the placeholder of one of `count` literals, and every closing mark
ends one. -/
structure WellFormed (count : Nat) (text : Text) : Prop where
  opened : ∀ before after, text = before ++ openMark :: after → ∃ (number : Nat) (rest : Text),
    1 ≤ number ∧ number ≤ count ∧ openMark :: after = placeholder number ++ rest
  closed : ∀ before after, text = before ++ closeMark :: after → ∃ (number : Nat) (front : Text),
    1 ≤ number ∧ number ≤ count ∧ before ++ [closeMark] = front ++ placeholder number

namespace WellFormed

variable {count : Nat}

theorem tail {c : Char} {text : Text} (other : c ≠ openMark)
    (wellFormed : WellFormed count (c :: text)) : WellFormed count text := by
  constructor
  · intro before after split
    exact wellFormed.opened (c :: before) after (by simp [split])
  · intro before after split
    obtain ⟨number, front, above, below, same⟩ :=
      wellFormed.closed (c :: before) after (by simp [split])
    cases front with
    | nil => exact absurd (List.cons.inj same).1 other
    | cons first front => exact ⟨number, front, above, below, (List.cons.inj same).2⟩

/-- No placeholder starts inside another: it would hold two closing marks. -/
theorem after_placeholder {number : Nat} {text : Text}
    (wellFormed : WellFormed count (placeholder number ++ text)) : WellFormed count text := by
  constructor
  · intro before after split
    exact wellFormed.opened (placeholder number ++ before) after (by simp [split])
  · intro before after split
    obtain ⟨other, front, above, below, same⟩ :=
      wellFormed.closed (placeholder number ++ before) after (by simp [split])
    rw [List.append_assoc] at same
    rcases List.append_eq_append_iff.mp same with ⟨excess, first, second⟩ | ⟨excess, first, second⟩
    · exact ⟨other, excess, above, below, second⟩
    · cases excess with
      | nil => exact ⟨other, [], above, below, by simpa using second.symm⟩
      | cons c excess =>
          have member : closeMark ∈ c :: excess := by
            rcases placeholder_split first with rfl | empty | ⟨digits, _, same⟩
            · rw [List.nil_append] at first
              simp [← first, placeholder_eq]
            · contradiction
            · simp [same]
          obtain ⟨early, late, same⟩ := List.append_of_mem member
          rw [same, List.append_assoc] at second
          exact absurd (after_closeMark second) (by simp)

theorem intact {text : Text} (wellFormed : WellFormed count text) : Intact False 0 count text := by
  induction size : text.length using Nat.strongRecOn generalizing text with
  | ind length ih =>
      subst size
      cases text with
      | nil => exact .nil
      | cons c text =>
          by_cases opening : c = openMark
          · subst opening
            obtain ⟨number, rest, above, below, same⟩ := wellFormed.opened [] text rfl
            rw [same] at wellFormed ⊢
            refine .placeholder above below (ih rest.length ?_ wellFormed.after_placeholder rfl)
            rw [same, placeholder_eq]
            simp only [List.length_append, List.length_cons]
            omega
          · refine .char opening ?_ (ih text.length (by simp) (wellFormed.tail opening) rfl)
            rintro rfl
            obtain ⟨number, front, _, _, same⟩ := wellFormed.closed [] text rfl
            have opening : openMark ∈ [] ++ [closeMark] := by simp [same, placeholder_eq]
            simp [openMark_ne_closeMark] at opening

end WellFormed

theorem Intact.wellFormed {count : Nat} {text : Text} (intact : Intact False 0 count text) :
    WellFormed count text := by
  induction intact with
  | nil => exact ⟨by simp, by simp⟩
  | @char c text opening closing _ ih =>
      constructor
      · intro before after split
        cases before with
        | nil => exact absurd (List.cons.inj split).1 opening
        | cons first before => exact ih.opened before after (List.cons.inj split).2
      · intro before after split
        cases before with
        | nil => exact absurd (List.cons.inj split).1 closing
        | cons first before =>
            obtain ⟨rfl, rest⟩ := List.cons.inj split
            obtain ⟨number, front, above, below, same⟩ := ih.closed before after rest
            exact ⟨number, c :: front, above, below, by simp [same]⟩
  | @placeholder number text above below _ ih =>
      constructor
      · intro before after split
        rcases List.append_eq_append_iff.mp split with
          ⟨excess, first, second⟩ | ⟨excess, first, second⟩
        · exact ih.opened excess after second
        · cases excess with
          | nil => exact ih.opened [] after (by simpa using second.symm)
          | cons c excess =>
              obtain ⟨rfl, rfl⟩ : openMark = c ∧ after = excess ++ text := by simpa using second
              obtain rfl : before = [] := before_openMark first
              exact ⟨number, text, above, below, by rw [first]; simp⟩
      · intro before after split
        rcases List.append_eq_append_iff.mp split with
          ⟨excess, first, second⟩ | ⟨excess, first, second⟩
        · obtain ⟨other, front, low, high, same⟩ := ih.closed excess after second
          exact ⟨other, Vault.placeholder number ++ front, low, high, by simp [first, same]⟩
        · cases excess with
          | nil =>
              obtain ⟨other, front, low, high, same⟩ :=
                ih.closed [] after (by simpa using second.symm)
              refine ⟨other, before ++ front, low, high, ?_⟩
              rw [List.append_assoc, ← same]
              rfl
          | cons c excess =>
              obtain ⟨rfl, rfl⟩ : closeMark = c ∧ after = excess ++ text := by simpa using second
              obtain rfl : excess = [] := after_closeMark first
              exact ⟨number, [], above, below, by simp [first]⟩

end Vault

end Flatsheet
