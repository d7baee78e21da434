import Flatsheet.Proofs.Balance
import Flatsheet.Proofs.Match

/-!
Headings read back. A definition or an include is found wherever it is written, with its name and
its list, whatever comes after it. So an include that is found in the content block of another one
is found in the text around that block, too.
-/

namespace Flatsheet

open Text (Blank)

theorem not_isName_of_isBlank {c : Char} (blank : isBlank c = true) : isName c = false := by
  have codes : ∀ code ∈ [0x09, 0x0a, 0x0b, 0x0c, 0x0d, 0x1c, 0x1d, 0x1e, 0x1f, 0x20, 0x85, 0xa0,
      0x1680, 0x2000, 0x2001, 0x2002, 0x2003, 0x2004, 0x2005, 0x2006, 0x2007, 0x2008, 0x2009,
      0x200a, 0x2028, 0x2029, 0x202f, 0x205f, 0x3000], isName (Char.ofNat code) = false := by
    decide +kernel
  have named := codes c.toNat (by
    simp only [isBlank, Bool.or_eq_true, Bool.and_eq_true, decide_eq_true_eq, beq_iff_eq] at blank
    simp only [List.mem_cons, List.not_mem_nil, or_false]
    omega)
  rwa [Char.ofNat_toNat] at named

namespace Text

variable {mark : Char} {text before after gap rest : Text}

theorem until?_of_not_mem (absent : mark ∉ before) :
    until? mark (before ++ mark :: after) = some (before, after) := by
  rw [until?, partition_append_mark absent]

theorem trimLeft_append (blank : Blank gap) : (gap ++ rest).trimLeft = rest.trimLeft :=
  List.dropWhile_append_of_pos blank

theorem trimLeft_append_of_cons {c : Char} {left : Text} (trimmed : text.trimLeft = c :: left)
    (more : Text) : (text ++ more).trimLeft = c :: (left ++ more) := by
  obtain ⟨blanks, blank, split⟩ := split_of_trimLeft trimmed
  have solid : isBlank c = false := head_dropWhile trimmed
  rw [split, List.append_assoc, trimLeft_append blank, List.cons_append, trimLeft,
    List.dropWhile_cons_of_neg (by simp [solid])]

end Text

namespace Mixin

variable {blanks name written gap rest : Text} {list : Option Text}

/-- What may be written as a name. -/
def Name (name : Text) : Prop := name ≠ [] ∧ ∀ c ∈ name, isName c = true

instance (name : Text) : Decidable (Name name) :=
  @instDecidableAnd (name ≠ []) _ inferInstance (List.decidableBAll _ name)

theorem Name.not_mem {mark : Char} (named : Name name) (other : isName mark = false) :
    mark ∉ name := fun member => absurd (named.2 mark member) (by simp [other])

/-- After blanks comes a semicolon or a brace. -/
def Ended (rest : Text) : Prop :=
  ∃ c left, rest.trimLeft = c :: left ∧ (c = ';' ∨ c = '{' ∨ c = '}')

namespace Ended

theorem append (ended : Ended rest) (more : Text) : Ended (rest ++ more) := by
  obtain ⟨c, left, trimmed, ends⟩ := ended
  exact ⟨c, left ++ more, Text.trimLeft_append_of_cons trimmed more, ends⟩

theorem pad (blank : Blank gap) (ended : Ended rest) : Ended (gap ++ rest) := by
  obtain ⟨c, left, trimmed, ends⟩ := ended
  exact ⟨c, left, by rw [Text.trimLeft_append blank, trimmed], ends⟩

theorem of_cons {c : Char} (ends : c = ';' ∨ c = '{' ∨ c = '}') (left : Text) :
    Ended (c :: left) := by
  refine ⟨c, left, ?_, ends⟩
  rcases ends with rfl | rfl | rfl <;> rfl

theorem not_isName (ended : Ended rest) : ∀ c ∈ rest.head?, isName c = false := by
  obtain ⟨d, left, trimmed, ends⟩ := ended
  obtain ⟨blanks, blank, rfl⟩ := Text.split_of_trimLeft trimmed
  intro c head
  cases blanks with
  | nil =>
      obtain rfl : d = c := by simpa using head
      rcases ends with rfl | rfl | rfl <;> decide +kernel
  | cons b blanks =>
      obtain rfl : b = c := by simpa using head
      exact not_isName_of_isBlank (blank b (by simp))

theorem not_parenthesised (ended : Ended rest) : parenthesised? rest = none := by
  obtain ⟨c, left, trimmed, ends⟩ := ended
  rw [parenthesised?, trimmed]
  rcases ends with rfl | rfl | rfl <;> rfl

end Ended

theorem Listed.not_isName (listed : Listed list written) (ended : Ended rest) :
    ∀ c ∈ (written ++ rest).head?, isName c = false := by
  rcases listed with ⟨rfl, rfl⟩ | ⟨gap, inside, rfl, blank, _, rfl⟩
  · exact ended.not_isName
  · intro c head
    cases gap with
    | nil =>
        obtain rfl : '(' = c := by simpa using head
        decide +kernel
    | cons b gap =>
        obtain rfl : b = c := by simpa using head
        exact not_isName_of_isBlank (blank b (by simp))

/-- A heading is read as it is written. -/
theorem heading?_written (keyword : Text) (blank : Blank blanks) (spaced : blanks ≠ [])
    (named : ∀ c ∈ name, isName c = true) (nonempty : name ≠ []) (listed : Listed list written)
    (ended : Ended rest) :
    heading? keyword (keyword ++ blanks ++ name ++ written ++ rest) =
      some ((name, list), rest) := by
  have keyed : Text.dropPrefix? keyword (keyword ++ blanks ++ name ++ written ++ rest) =
      some (blanks ++ (name ++ (written ++ rest))) :=
    Text.dropPrefix?_eq_some.mpr (by simp)
  have skipped : Text.skipBlanks? (blanks ++ (name ++ (written ++ rest))) =
      some (name ++ (written ++ rest)) := by
    refine Option.map_eq_some_iff.mpr ⟨(blanks, _), Text.run?_eq_some.mpr ⟨rfl, spaced, blank, ?_⟩,
      rfl⟩
    intro c head
    obtain ⟨first, name, rfl⟩ := List.exists_cons_of_ne_nil nonempty
    obtain rfl : first = c := by simpa using head
    cases isBlank : isBlank first with
    | false => rfl
    | true =>
        have unnamed := not_isName_of_isBlank isBlank
        rw [named first (by simp)] at unnamed
        cases unnamed
  have read : Text.run? isName (name ++ (written ++ rest)) = some (name, written ++ rest) :=
    Text.run?_eq_some.mpr ⟨rfl, nonempty, named, listed.not_isName ended⟩
  rw [heading?, keyed]
  simp only [Option.bind_eq_bind, Option.bind_some, skipped, read]
  rcases listed with ⟨rfl, rfl⟩ | ⟨gap, inside, rfl, gapBlank, absent, rfl⟩
  · rw [List.nil_append, ended.not_parenthesised]
    rfl
  · have parenthesised : parenthesised? (gap ++ '(' :: (inside ++ [')']) ++ rest) =
        some (inside, rest) := by
      have split : gap ++ '(' :: (inside ++ [')']) ++ rest =
          gap ++ '(' :: (inside ++ ')' :: rest) := by simp
      have trimmed : (gap ++ '(' :: (inside ++ ')' :: rest)).trimLeft =
          '(' :: (inside ++ ')' :: rest) := by
        rw [Text.trimLeft_append gapBlank]
        rfl
      rw [split, parenthesised?, trimmed]
      exact Text.until?_of_not_mem absent
    rw [parenthesised]
    rfl

theorem definition?_written (blank : Blank blanks) (spaced : blanks ≠ [])
    (named : ∀ c ∈ name, isName c = true) (nonempty : name ≠ []) (listed : Listed list written)
    (gapBlank : Blank gap) {body : Text} (balanced : body.Balanced) (rest : Text) :
    let heading := "@mixin".toList ++ blanks ++ name ++ written ++ gap ++ ['{']
    definition? (heading ++ (body ++ '}' :: rest)) =
      some (⟨heading, name, Parameter.listOfText (list.getD []), body⟩, rest) := by
  intro heading
  have parts : heading ++ (body ++ '}' :: rest) = "@mixin".toList ++ blanks ++ name ++ written ++
      (gap ++ '{' :: (body ++ '}' :: rest)) := by simp [heading]
  have ended : Ended (gap ++ '{' :: (body ++ '}' :: rest)) :=
    .pad gapBlank (.of_cons (.inr (.inl rfl)) _)
  have opened : Text.dropPrefix? ['{'] (gap ++ '{' :: (body ++ '}' :: rest)).trimLeft =
      some (body ++ '}' :: rest) := by
    rw [Text.trimLeft_append gapBlank]
    rfl
  have taken : (heading ++ (body ++ '}' :: rest)).take
      ((heading ++ (body ++ '}' :: rest)).length - (body ++ '}' :: rest).length) = heading := by
    rw [List.length_append, Nat.add_sub_cancel, List.take_left]
  have read := heading?_written "@mixin" blank spaced named nonempty listed ended
  rw [← parts] at read
  rw [definition?, read]
  simp only [Option.bind_eq_bind, Option.bind_some, opened, Block.body_of_balanced balanced, taken]
  rfl

end Mixin

namespace Include

open Mixin (Ended Listed)

variable {blanks name written gap after rest : Text} {list content : Option Text}

theorem Ends.ended (ends : Ends content after rest) : Ended after := by
  cases ends with
  | semicolon rest => exact .of_cons (.inl rfl) rest
  | @block inside content rest _ => exact .of_cons (.inr (.inl rfl)) inside
  | brace rest => exact .of_cons (.inr (.inr rfl)) rest

theorem include?_written (blank : Blank blanks) (spaced : blanks ≠ [])
    (named : ∀ c ∈ name, isName c = true) (nonempty : name ≠ []) (listed : Listed list written)
    (gapBlank : Blank gap) (ends : Ends content after rest) :
    include? ("@include".toList ++ blanks ++ name ++ written ++ (gap ++ after)) =
      some (⟨name, list, content⟩, rest) := by
  rw [include?, Mixin.heading?_written "@include" blank spaced named nonempty listed
    (.pad gapBlank ends.ended)]
  simp only [Option.bind_eq_bind, Option.bind_some, Text.trimLeft_append gapBlank]
  cases ends with
  | semicolon rest => rfl
  | @block inside content rest body =>
      have read : (⟨name, list, some (Block.body inside).1⟩, (Block.body inside).2) =
          ((⟨name, list, some content⟩, rest) : Include × Text) := by rw [body]
      exact congrArg some read
  | brace rest => rfl

/-- The pattern finds the include at some place in the text. -/
def Stands (inclusion : Include) (text : Text) : Prop :=
  ∃ start rest, start <:+ text ∧ include? start = some (inclusion, rest)

/-- What comes after an include may be part of its content, but not of its heading. -/
theorem include?_append {text : Text} {inclusion : Include}
    (found : include? text = some (inclusion, rest)) (more : Text) :
    ∃ other left, include? (text ++ more) = some (other, left) ∧ other.name = inclusion.name ∧
      other.arguments = inclusion.arguments := by
  simp only [include?, Option.bind_eq_bind, Option.bind_eq_some_iff, Prod.exists] at found
  obtain ⟨name, list, afterHeading, headed, same⟩ := found
  have ended : Ended afterHeading := by
    split at same
    next left trimmed => exact ⟨';', left, trimmed, .inl rfl⟩
    next inside trimmed => exact ⟨'{', inside, trimmed, .inr (.inl rfl)⟩
    next left trimmed => exact ⟨'}', left, trimmed, .inr (.inr rfl)⟩
    · contradiction
  have parts : inclusion.name = name ∧ inclusion.arguments = list := by
    split at same
    · cases same
      exact ⟨rfl, rfl⟩
    · cases same
      exact ⟨rfl, rfl⟩
    · cases same
      exact ⟨rfl, rfl⟩
    · contradiction
  obtain ⟨rfl, rfl⟩ := parts
  obtain ⟨blanks, written, blank, spaced, named, nonempty, listed, rfl⟩ :=
    Mixin.heading?_eq_some headed
  have read :=
    Mixin.heading?_written "@include" blank spaced named nonempty listed (ended.append more)
  rw [← List.append_assoc] at read
  obtain ⟨c, left, trimmed, ends⟩ := ended.append more
  rw [include?, read]
  simp only [Option.bind_eq_bind, Option.bind_some, trimmed]
  rcases ends with rfl | rfl | rfl
  · exact ⟨_, _, rfl, rfl, rfl⟩
  · exact ⟨_, _, rfl, rfl, rfl⟩
  · exact ⟨_, _, rfl, rfl, rfl⟩

theorem Stands.of_isInfix {part text : Text} {inclusion : Include} (stands : inclusion.Stands part)
    (inside : part <:+: text) :
    ∃ other : Include, other.Stands text ∧ other.name = inclusion.name ∧
      other.arguments = inclusion.arguments := by
  obtain ⟨start, rest, ⟨before, rfl⟩, found⟩ := stands
  obtain ⟨front, more, rfl⟩ := inside
  obtain ⟨other, left, extended, name, arguments⟩ := include?_append found more
  exact ⟨other, ⟨start ++ more, left, ⟨front ++ before, by simp⟩, extended⟩, name, arguments⟩

end Include

end Flatsheet
