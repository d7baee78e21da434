import Flatsheet.Comment
import Flatsheet.Declaration
import Flatsheet.Mixin.Include
import Flatsheet.Plugin
import Flatsheet.Proofs.Placeholder
import Flatsheet.Proofs.Replacement
import Flatsheet.Resource.Import
import Flatsheet.Variable

/-!
The shape of a match, for each pattern of the passes: what a match is made of, and that it is
followed by the rest of the text.
-/

namespace Flatsheet

open Text (Blank)

namespace Comment

theorem block?_eq_some {text rest : Text} {value : Unit}
    (found : block? text = some (value, rest)) :
    ∃ inside, text = "/*".toList ++ inside ++ "*/".toList ++ rest := by
  simp only [block?, Option.bind_eq_bind, Option.bind_eq_some_iff, Option.pure_def] at found
  obtain ⟨afterOpening, opened, left, closed, same⟩ := found
  obtain rfl : left = rest := by simpa using same
  obtain ⟨inside, rfl⟩ := Text.afterFirst?_eq_some closed
  exact ⟨inside, by simpa using Text.dropPrefix?_eq_some.mp opened⟩

theorem nestedBlock?_eq_some {text rest : Text} {value : Unit}
    (found : nestedBlock? text = some (value, rest)) :
    (∃ inside, text = "/*".toList ++ inside) ∧
      (rest = [] ∨ ∃ before, text = before ++ "*/".toList ++ rest) := by
  unfold nestedBlock? at found
  split at found
  next opened =>
      refine ⟨Text.startsWith_iff.mp opened, ?_⟩
      split at found
      next size sized =>
          obtain ⟨before, after, split, length⟩ := Block.size?_eq_some sized
          have left : text.drop size = after := by rw [split, length, List.drop_left]
          obtain rfl : after = rest := by simpa [left] using found
          exact .inr ⟨before, split⟩
      · exact .inl (by simpa using found)
  · contradiction

theorem line?_eq_some {text rest : Text} {value : Unit} (found : line? text = some (value, rest)) :
    ∃ inside, text = "//".toList ++ inside ++ rest ∧ ∀ c ∈ rest.head?, c = '\n' := by
  simp only [line?, Option.bind_eq_bind, Option.bind_eq_some_iff, Option.pure_def] at found
  obtain ⟨after, opened, same⟩ := found
  obtain rfl : after.dropWhile (· ≠ '\n') = rest := by simpa using same
  refine ⟨after.takeWhile (· ≠ '\n'), ?_, ?_⟩
  · rw [List.append_assoc, List.takeWhile_append_dropWhile]
    exact Text.dropPrefix?_eq_some.mp opened
  · intro c head
    obtain ⟨tail, left⟩ := List.head?_eq_some_iff.mp head
    simpa using Text.head_dropWhile left

end Comment

theorem Import.statement?_eq_some {text digits rest : Text}
    (found : Import.statement? text = some (digits, rest)) :
    ∃ blanks ending, Blank blanks ∧ digits ≠ [] ∧ (∀ c ∈ digits, isDecimalDigit c = true) ∧
      (ending = [] ∨ ∃ gap, Blank gap ∧ ending = gap ++ [';']) ∧
      text = "@import".toList ++ blanks ++
        Vault.openMark :: (digits ++ Vault.closeMark :: (ending ++ rest)) := by
  simp only [Import.statement?, Option.bind_eq_bind, Option.bind_eq_some_iff, Prod.exists] at found
  obtain ⟨afterKeyword, keyword, run, left, placeholder, same⟩ := found
  obtain ⟨trimmed, nonempty, decimal⟩ := Vault.placeholder?_eq_some.mp placeholder
  obtain ⟨blanks, blank, split⟩ := Text.split_of_trimLeft trimmed
  have start := Text.dropPrefix?_eq_some.mp keyword
  split at same
  next after semicolon =>
      obtain ⟨rfl, rfl⟩ : run = digits ∧ after = rest := by simpa using same
      obtain ⟨gap, gapBlank, ended⟩ := Text.split_of_trimLeft semicolon
      exact ⟨blanks, gap ++ [';'], blank, nonempty, decimal, .inr ⟨gap, gapBlank, rfl⟩,
        by simp [start, split, ended]⟩
  · obtain ⟨rfl, rfl⟩ : run = digits ∧ left = rest := by simpa using same
    exact ⟨blanks, [], blank, nonempty, decimal, .inl rfl, by simp [start, split]⟩

namespace Declaration

/-- A name and a value of one word, with a colon between them and blanks around it. -/
def Pair (declaration : Text) : Prop :=
  ∃ name gap space value, name ≠ [] ∧ (∀ c ∈ name, isWord c = true) ∧ Blank gap ∧ Blank space ∧
    value ≠ [] ∧ (∀ c ∈ value, isValue c = true) ∧
    declaration = name ++ (gap ++ ':' :: (space ++ value))

/-- After spaces comes a closing brace or the end of the line. -/
def Stops (rest : Text) : Prop :=
  ∃ spaces c left, (∀ space ∈ spaces, space = ' ') ∧ (c = '}' ∨ c = '\n') ∧
    rest = spaces ++ c :: left

theorem stops_of_dropWhile {rest left : Text} {c : Char}
    (dropped : rest.dropWhile (· = ' ') = c :: left) (ends : c = '}' ∨ c = '\n') : Stops rest := by
  refine ⟨rest.takeWhile (· = ' '), c, left, ?_, ends, ?_⟩
  · intro space member
    simpa using List.mem_takeWhile_imp member
  · rw [← dropped, List.takeWhile_append_dropWhile]

theorem unended?_eq_some {text declaration rest : Text}
    (found : unended? text = some (declaration, rest)) :
    Pair declaration ∧ Stops rest ∧ text = declaration ++ rest := by
  simp only [unended?, Option.bind_eq_bind, Option.bind_eq_some_iff, Prod.exists] at found
  obtain ⟨name, afterName, named, afterColon, colon, value, left, valued, same⟩ := found
  obtain ⟨split, nonempty, inside, _⟩ := Text.run?_eq_some.mp named
  obtain ⟨gap, gapBlank, separated⟩ := Text.split_of_dropPrefix?_trimLeft colon
  obtain ⟨valueSplit, valueSome, valueInside, _⟩ := Text.run?_eq_some.mp valued
  obtain ⟨space, spaceBlank, spaced⟩ := Text.split_of_trimLeft valueSplit
  have whole : text = name ++ (gap ++ ':' :: (space ++ value)) ++ left := by
    simp [split, separated, spaced]
  have taken : text.take (text.length - left.length) =
      name ++ (gap ++ ':' :: (space ++ value)) := by
    rw [whole, List.length_append, Nat.add_sub_cancel, List.take_left]
  have pair : Pair (text.take (text.length - left.length)) :=
    ⟨name, gap, space, value, nonempty, inside, gapBlank, spaceBlank, valueSome, valueInside, taken⟩
  split at same
  next stops =>
      obtain ⟨rfl, rfl⟩ : _ = declaration ∧ left = rest := by simpa using same
      exact ⟨pair, stops_of_dropWhile stops (.inl rfl), by rw [taken]; exact whole⟩
  next stops =>
      obtain ⟨rfl, rfl⟩ : _ = declaration ∧ left = rest := by simpa using same
      exact ⟨pair, stops_of_dropWhile stops (.inr rfl), by rw [taken]; exact whole⟩
  · contradiction

theorem nestedProperty?_eq_some {text rest : Text} {property : NestedProperty}
    (found : nestedProperty? text = some (property, rest)) :
    ∃ gap space, (∀ c ∈ property.name, isName c = true) ∧ Blank gap ∧ Blank space ∧
      '}' ∉ property.body ∧
      text = property.name ++ gap ++ ':' :: (space ++ '{' :: (property.body ++ '}' :: rest)) := by
  simp only [nestedProperty?, Option.bind_eq_bind, Option.bind_eq_some_iff, Prod.exists] at found
  obtain ⟨name, afterName, named, afterColon, colon, afterBrace, brace, body, left, closed, same⟩ :=
    found
  obtain ⟨split, _, inside, _⟩ := Text.run?_eq_some.mp named
  obtain ⟨gap, gapBlank, separated⟩ := Text.split_of_dropPrefix?_trimLeft colon
  obtain ⟨space, spaceBlank, spaced⟩ := Text.split_of_dropPrefix?_trimLeft brace
  obtain ⟨ended, unclosed⟩ := Text.until?_eq_some closed
  split at same
  · contradiction
  · obtain ⟨rfl, rfl⟩ : (⟨name, body⟩ : NestedProperty) = property ∧ left = rest := by
      simpa using same
    exact ⟨gap, space, inside, gapBlank, spaceBlank, unclosed,
      by simp [split, separated, spaced, ended]⟩

theorem label?_eq_some {text name rest : Text} (found : label? text = some (name, rest)) :
    ∃ gap, (∀ c ∈ name, isName c = true) ∧ Blank gap ∧ text = name ++ gap ++ ':' :: rest := by
  simp only [label?, Option.bind_eq_bind, Option.bind_eq_some_iff, Prod.exists] at found
  obtain ⟨run, afterName, named, left, colon, same⟩ := found
  obtain ⟨rfl, rfl⟩ : run = name ∧ left = rest := by simpa using same
  obtain ⟨split, _, inside, _⟩ := Text.run?_eq_some.mp named
  obtain ⟨gap, gapBlank, separated⟩ := Text.split_of_dropPrefix?_trimLeft colon
  exact ⟨gap, inside, gapBlank, by simp [split, separated]⟩

end Declaration

namespace Variable

theorem name?_eq_some {text name rest : Text} (found : name? text = some (name, rest)) :
    (∀ c ∈ name, isNamePart c = true) ∧ text = '$' :: (name ++ rest) := by
  unfold name? at found
  split at found
  next after =>
      obtain ⟨split, _, inside, _⟩ := Text.run?_eq_some.mp found
      exact ⟨inside, by rw [split]⟩
  · contradiction

theorem value?_eq_some {text value rest : Text} (found : value? text = some (value, rest)) :
    text = value ++ ';' :: rest := by
  cases text with
  | nil => simp [value?] at found
  | cons c text =>
      simp only [value?] at found
      split at found
      next tail left read =>
          split at found
          · contradiction
          · obtain ⟨rfl, rfl⟩ : c :: tail = value ∧ left = rest := by simpa using found
            simp [(Text.until?_eq_some read).1]
      · contradiction

theorem spacedValue?_eq_some {text blanks value rest : Text}
    (found : spacedValue? text = some ((blanks, value), rest)) :
    Blank blanks ∧ text = blanks ++ value ++ ';' :: rest := by
  induction text generalizing blanks with
  | nil => cases found
  | cons c text ih =>
      unfold spacedValue? at found
      dsimp only at found
      split at found
      next more value' rest' longer =>
          obtain ⟨rfl, rfl, rfl⟩ : c :: more = blanks ∧ value' = value ∧ rest' = rest := by
            simpa [and_assoc] using found
          split at longer
          next blank =>
              obtain ⟨inside, split⟩ := ih longer
              refine ⟨?_, by simp [split]⟩
              intro other member
              rcases List.mem_cons.mp member with rfl | later
              · exact blank
              · exact inside other later
          · contradiction
      · obtain ⟨⟨value', rest'⟩, read, same⟩ := Option.map_eq_some_iff.mp found
        obtain ⟨rfl, rfl, rfl⟩ : [] = blanks ∧ value' = value ∧ rest' = rest := by
          simpa [and_assoc] using same
        exact ⟨by simp [Blank], by simpa using value?_eq_some read⟩

theorem declaration?_eq_some {text rest : Text} {declaration : Declaration}
    (found : declaration? text = some (declaration, rest)) :
    ∃ gap space, (∀ c ∈ declaration.name, isNamePart c = true) ∧ Blank gap ∧ Blank space ∧
      declaration.separator = gap ++ ':' :: space ∧
      text = '$' :: (declaration.name ++ declaration.separator ++ declaration.value ++
        ';' :: rest) := by
  simp only [declaration?, Option.bind_eq_bind, Option.bind_eq_some_iff, Prod.exists] at found
  obtain ⟨name, afterName, named, afterColon, colon, blanks, value, left, valued, same⟩ := found
  obtain ⟨rfl, rfl⟩ : (⟨name, afterName.takeWhile isBlank ++ ':' :: blanks, value⟩ : Declaration) =
      declaration ∧ left = rest := by simpa using same
  obtain ⟨inside, split⟩ := name?_eq_some named
  obtain ⟨spaceBlank, spaced⟩ := spacedValue?_eq_some valued
  have separated : afterName = afterName.takeWhile isBlank ++ ':' :: afterColon := by
    have trimmed : afterName.trimLeft = ':' :: afterColon := by
      simpa using Text.dropPrefix?_eq_some.mp colon
    rw [← trimmed]
    exact List.takeWhile_append_dropWhile.symm
  refine ⟨afterName.takeWhile isBlank, blanks, inside,
    fun _ member => List.mem_takeWhile_imp member, spaceBlank, rfl, ?_⟩
  rw [split]
  nth_rewrite 1 [separated]
  simp [spaced]

theorem use?_eq_some {text rest : Text} {use : Use} (found : use? text = some (use, rest)) :
    ∃ middle, (∀ c ∈ use.name, isNamePart c = true) ∧
      (Blank middle ∨ ∃ gap space, Blank gap ∧ Blank space ∧
        middle = gap ++ "!important".toList ++ space) ∧
      use.ending = middle ++ [';'] ∧ text = '$' :: (use.name ++ use.ending ++ rest) := by
  simp only [use?, Option.bind_eq_bind, Option.bind_eq_some_iff, Prod.exists] at found
  obtain ⟨name, afterName, named, left, semicolon, same⟩ := found
  obtain ⟨rfl, rfl⟩ : (⟨name, afterName.take (afterName.length - left.length)⟩ : Use) = use ∧
      left = rest := by simpa using same
  obtain ⟨inside, split⟩ := name?_eq_some named
  obtain ⟨space, spaceBlank, ended⟩ := Text.split_of_dropPrefix?_trimLeft semicolon
  have middle : ∃ middle, (Blank middle ∨ ∃ gap space, Blank gap ∧ Blank space ∧
      middle = gap ++ "!important".toList ++ space) ∧ afterName = middle ++ [';'] ++ left := by
    split at ended
    next modified =>
        obtain ⟨afterGap, skipped, modifier⟩ := Option.bind_eq_some_iff.mp modified
        obtain ⟨gap, gapBlank, _, gapSplit⟩ := Text.skipBlanks?_eq_some skipped
        refine ⟨gap ++ "!important".toList ++ space,
          .inr ⟨gap, space, gapBlank, spaceBlank, rfl⟩, ?_⟩
        simp [gapSplit, Text.dropPrefix?_eq_some.mp modifier, ended]
    · exact ⟨space, .inl spaceBlank, ended⟩
  obtain ⟨middle, shape, whole⟩ := middle
  have taken : afterName.take (afterName.length - left.length) = middle ++ [';'] := by
    rw [whole, List.length_append, Nat.add_sub_cancel, List.take_left]
  refine ⟨middle, inside, shape, taken, ?_⟩
  rw [split, taken, whole, List.append_assoc name]

end Variable

namespace Mixin

/-- A parenthesised list as it is written, or nothing if there is none. -/
def Listed (list : Option Text) (written : Text) : Prop :=
  (list = none ∧ written = []) ∨
    ∃ gap inside, list = some inside ∧ Blank gap ∧ ')' ∉ inside ∧
      written = gap ++ '(' :: (inside ++ [')'])

theorem parenthesised?_eq_some {text inside rest : Text}
    (found : parenthesised? text = some (inside, rest)) :
    ∃ written, Listed (some inside) written ∧ text = written ++ rest := by
  unfold parenthesised? at found
  split at found
  next after opened =>
      obtain ⟨gap, gapBlank, split⟩ := Text.split_of_trimLeft opened
      obtain ⟨closed, absent⟩ := Text.until?_eq_some found
      exact ⟨gap ++ '(' :: (inside ++ [')']), .inr ⟨gap, inside, rfl, gapBlank, absent, rfl⟩,
        by simp [split, closed]⟩
  · contradiction

theorem heading?_eq_some {keyword text name rest : Text} {list : Option Text}
    (found : heading? keyword text = some ((name, list), rest)) :
    ∃ blanks written, Blank blanks ∧ blanks ≠ [] ∧ (∀ c ∈ name, isName c = true) ∧ name ≠ [] ∧
      Listed list written ∧ text = keyword ++ blanks ++ name ++ written ++ rest := by
  simp only [heading?, Option.bind_eq_bind, Option.bind_eq_some_iff, Prod.exists] at found
  obtain ⟨afterKeyword, keyed, beforeName, skipped, run, afterName, named, same⟩ := found
  obtain ⟨blanks, blank, spaced, skippedSplit⟩ := Text.skipBlanks?_eq_some skipped
  obtain ⟨split, nonempty, inside, _⟩ := Text.run?_eq_some.mp named
  have start := Text.dropPrefix?_eq_some.mp keyed
  split at same
  next listed =>
      obtain ⟨⟨rfl, rfl⟩, rfl⟩ : (run = name ∧ some _ = list) ∧ _ = rest := by simpa using same
      obtain ⟨written, shape, left⟩ := parenthesised?_eq_some listed
      exact ⟨blanks, written, blank, spaced, inside, nonempty, shape,
        by simp [start, skippedSplit, split, left]⟩
  · obtain ⟨⟨rfl, rfl⟩, rfl⟩ : (run = name ∧ none = list) ∧ afterName = rest := by
      simpa using same
    exact ⟨blanks, [], blank, spaced, inside, nonempty, .inl ⟨rfl, rfl⟩,
      by simp [start, skippedSplit, split]⟩

theorem definition?_eq_some {text rest : Text} {definition : Definition}
    (found : definition? text = some (definition, rest)) :
    ∃ blanks list written gap inside, Blank blanks ∧ blanks ≠ [] ∧
      (∀ c ∈ definition.mixin.name, isName c = true) ∧ definition.mixin.name ≠ [] ∧
      Listed list written ∧ Blank gap ∧
      definition.mixin.parameters = Parameter.listOfText (list.getD []) ∧
      Block.body inside = (definition.mixin.body, rest) ∧
      definition.heading =
        "@mixin".toList ++ blanks ++ definition.mixin.name ++ written ++ gap ++ ['{'] ∧
      text = definition.heading ++ inside := by
  simp only [definition?, Option.bind_eq_bind, Option.bind_eq_some_iff, Prod.exists] at found
  obtain ⟨name, list, afterHeading, headed, inside, opened, same⟩ := found
  obtain ⟨blanks, written, blank, spaced, named, nonempty, listed, start⟩ :=
    heading?_eq_some headed
  obtain ⟨gap, gapBlank, brace⟩ := Text.split_of_dropPrefix?_trimLeft opened
  have whole : text =
      "@mixin".toList ++ blanks ++ name ++ written ++ gap ++ ['{'] ++ inside := by
    simp [start, brace]
  have taken : text.take (text.length - inside.length) =
      "@mixin".toList ++ blanks ++ name ++ written ++ gap ++ ['{'] := by
    rw [whole, List.length_append, Nat.add_sub_cancel, List.take_left]
  obtain ⟨rfl, rfl⟩ : (⟨text.take (text.length - inside.length), name,
      Parameter.listOfText (list.getD []), (Block.body inside).1⟩ : Definition) = definition ∧
      (Block.body inside).2 = rest := by simpa using same
  exact ⟨blanks, list, written, gap, inside, blank, spaced, named, nonempty, listed, gapBlank, rfl,
    rfl, taken, by rw [taken]; exact whole⟩

end Mixin

namespace Include

/-- How an include ends: with a semicolon, with its content block, or before a closing brace. -/
inductive Ends : (content : Option Text) → (after rest : Text) → Prop
  | semicolon (rest : Text) : Ends none (';' :: rest) rest
  | block {inside content rest : Text} (body : Block.body inside = (content, rest)) :
      Ends (some content) ('{' :: inside) rest
  | brace (rest : Text) : Ends none ('}' :: rest) ('}' :: rest)

theorem include?_eq_some {text rest : Text} {inclusion : Include}
    (found : include? text = some (inclusion, rest)) :
    ∃ blanks written gap after, Blank blanks ∧ (∀ c ∈ inclusion.name, isName c = true) ∧
      Mixin.Listed inclusion.arguments written ∧ Blank gap ∧ Ends inclusion.content after rest ∧
      text = "@include".toList ++ blanks ++ inclusion.name ++ written ++ gap ++ after := by
  simp only [include?, Option.bind_eq_bind, Option.bind_eq_some_iff, Prod.exists] at found
  obtain ⟨name, list, afterHeading, headed, same⟩ := found
  obtain ⟨blanks, written, blank, _, named, _, listed, start⟩ := Mixin.heading?_eq_some headed
  split at same
  next left ended =>
      obtain ⟨rfl, rfl⟩ : (⟨name, list, none⟩ : Include) = inclusion ∧ left = rest := by
        simpa using same
      obtain ⟨gap, gapBlank, split⟩ := Text.split_of_trimLeft ended
      exact ⟨blanks, written, gap, ';' :: left, blank, named, listed, gapBlank, .semicolon left,
        by simp [start, split]⟩
  next inside ended =>
      obtain ⟨rfl, rfl⟩ : (⟨name, list, some (Block.body inside).1⟩ : Include) = inclusion ∧
          (Block.body inside).2 = rest := by simpa using same
      obtain ⟨gap, gapBlank, split⟩ := Text.split_of_trimLeft ended
      exact ⟨blanks, written, gap, '{' :: inside, blank, named, listed, gapBlank, .block rfl,
        by simp [start, split]⟩
  next left ended =>
      obtain ⟨rfl, rfl⟩ : (⟨name, list, none⟩ : Include) = inclusion ∧ '}' :: left = rest := by
        simpa using same
      obtain ⟨gap, gapBlank, split⟩ := Text.split_of_trimLeft ended
      exact ⟨blanks, written, gap, '}' :: left, blank, named, listed, gapBlank, .brace left,
        by simp [start, split]⟩
  · contradiction

theorem contentSlot?_eq_some {text rest : Text} {value : Unit}
    (found : contentSlot? text = some (value, rest)) :
    ∃ gap ending, Blank gap ∧ (ending = [] ∨ ending = [';']) ∧
      text = "@content".toList ++ gap ++ ending ++ rest := by
  simp only [contentSlot?, Option.bind_eq_bind, Option.bind_eq_some_iff] at found
  obtain ⟨afterName, named, same⟩ := found
  have start := Text.dropPrefix?_eq_some.mp named
  split at same
  next left ended =>
      obtain rfl : left = rest := by simpa using same
      obtain ⟨gap, gapBlank, split⟩ := Text.split_of_trimLeft ended
      exact ⟨gap, [';'], gapBlank, .inr rfl, by simp [start, split]⟩
  · obtain rfl : afterName.trimLeft = rest := by simpa using same
    obtain ⟨gap, gapBlank, split⟩ := Text.trimLeft_split afterName
    exact ⟨gap, [], gapBlank, .inl rfl, by rw [start]; nth_rewrite 1 [split]; simp⟩

end Include

theorem Plugin.call?_eq_some {text rest : Text} {call : Call}
    (found : call? text = some (call, rest)) :
    (∀ c ∈ call.name, isName c = true) ∧
      text = call.name ++ '(' :: (call.arguments ++ ')' :: rest) := by
  simp only [call?, Option.bind_eq_bind, Option.bind_eq_some_iff, Prod.exists] at found
  obtain ⟨name, afterName, named, inside, opened, left, closed, same⟩ := found
  obtain ⟨rfl, rfl⟩ : (⟨name, inside.takeWhile fun c => c != ')' && c != ';'⟩ : Call) = call ∧
      left = rest := by simpa using same
  obtain ⟨split, _, word, _⟩ := Text.run?_eq_some.mp named
  have argued : inside = inside.takeWhile (fun c => c != ')' && c != ';') ++ ')' :: left := by
    have ended := Text.dropPrefix?_eq_some.mp closed
    rw [List.singleton_append] at ended
    rw [← ended, List.takeWhile_append_dropWhile]
  refine ⟨word, ?_⟩
  rw [split, Text.dropPrefix?_eq_some.mp opened, ← argued]
  rfl

theorem Plugin.call?_proper : Pattern.Proper call? := by
  intro text call rest found
  obtain ⟨_, rfl⟩ := call?_eq_some found
  exact ⟨call.name ++ '(' :: (call.arguments ++ [')']), by simp, by simp⟩

end Flatsheet
