import Mathlib.Data.List.TakeWhile
import Flatsheet.Text.Block
import Flatsheet.Text.Pattern

/-!
What the small readers have read. Each one is turned into an equation: the text is what was read,
followed by what is left. Later proofs use these equations and do not open the readers.
-/

namespace Flatsheet

namespace Text

theorem dropPrefix?_eq_some {expected text rest : Text} :
    dropPrefix? expected text = some rest ↔ text = expected ++ rest := by
  induction expected generalizing text with
  | nil => simp [dropPrefix?]
  | cons e expected ih =>
      cases text with
      | nil => simp [dropPrefix?]
      | cons c text =>
          by_cases same : e = c
          · simp [dropPrefix?, same, ih]
          · simp [dropPrefix?, same, Ne.symm same]

theorem startsWith_iff {text expected : Text} :
    text.startsWith expected = true ↔ ∃ rest, text = expected ++ rest := by
  simp only [startsWith, Option.isSome_iff_exists, dropPrefix?_eq_some]

theorem startsWith_shorter {front text expected : Text} (begins : front <+: text)
    (missed : text.startsWith expected = false) : front.startsWith expected = false := by
  obtain ⟨rest, rfl⟩ := begins
  rw [Bool.eq_false_iff, Ne, startsWith_iff] at missed ⊢
  intro starts
  obtain ⟨more, split⟩ := starts
  exact missed ⟨more ++ rest, by rw [split, List.append_assoc]⟩

theorem endsWith_iff {text expected : Text} :
    text.endsWith expected = true ↔ ∃ front, text = front ++ expected := by
  simp only [endsWith, startsWith_iff, List.reverse_eq_iff, List.reverse_append,
    List.reverse_reverse]
  exact ⟨fun ⟨rest, split⟩ => ⟨rest.reverse, split⟩,
    fun ⟨front, split⟩ => ⟨front.reverse, by rw [List.reverse_reverse, split]⟩⟩

theorem afterFirst?_eq_some {mark text rest : Text} (found : afterFirst? mark text = some rest) :
    ∃ before, text = before ++ mark ++ rest := by
  induction text with
  | nil => exact ⟨[], by simpa using dropPrefix?_eq_some.mp found⟩
  | cons c text ih =>
      rw [afterFirst?, Option.or_eq_some_iff] at found
      rcases found with here | ⟨_, later⟩
      · exact ⟨[], by simpa using dropPrefix?_eq_some.mp here⟩
      · obtain ⟨before, split⟩ := ih later
        exact ⟨c :: before, by simp [split]⟩

theorem afterFirst?_eq_none {mark text : Text} (missed : afterFirst? mark text = none) :
    ∀ before rest, text ≠ before ++ (mark ++ rest) := by
  induction text with
  | nil =>
      intro before rest split
      obtain ⟨rfl, right⟩ := List.append_eq_nil_iff.mp split.symm
      rw [afterFirst?, dropPrefix?_eq_some.mpr right.symm] at missed
      cases missed
  | cons c text ih =>
      rw [afterFirst?, Option.or_eq_none_iff] at missed
      intro before rest split
      cases before with
      | nil =>
          have here : c :: text = mark ++ rest := split
          rw [dropPrefix?_eq_some.mpr here] at missed
          cases missed.1
      | cons d before => exact ih missed.2 before rest (List.cons.inj split).2

theorem suffix_append {start front rest : Text} (suffix : start <:+ front ++ rest) :
    start <:+ rest ∨ ∃ left, left <:+ front ∧ left ≠ [] ∧ start = left ++ rest := by
  obtain ⟨before, split⟩ := suffix
  rcases List.append_eq_append_iff.mp split with ⟨left, rfl, rfl⟩ | ⟨left, rfl, rfl⟩
  · cases left with
    | nil => exact .inl (by simp)
    | cons c left => exact .inr ⟨c :: left, ⟨before, rfl⟩, by simp, rfl⟩
  · exact .inl ⟨left, rfl⟩

theorem head_dropWhile {p : Char → Bool} {text rest : Text} {c : Char}
    (left : text.dropWhile p = c :: rest) : p c = false := by
  have head := List.head?_dropWhile_not p text
  simpa [left] using head

theorem head?_dropWhile_fails (p : Char → Bool) (text : Text) :
    ∀ c ∈ (text.dropWhile p).head?, p c = false := by
  intro c first
  obtain ⟨rest, left⟩ := List.head?_eq_some_iff.mp first
  exact head_dropWhile left

theorem head?_cons_fails {p : Char → Bool} {c : Char} (fails : p c = false) (text : Text) :
    ∀ d ∈ (c :: text).head?, p d = false := by
  intro d first
  obtain rfl : c = d := by simpa using first
  exact fails

/-- A run goes up to the first character that is none of its own. -/
theorem span_append {p : Char → Bool} {run rest : Text} (inside : ∀ c ∈ run, p c = true)
    (outside : ∀ c ∈ rest.head?, p c = false) :
    (run ++ rest).takeWhile p = run ∧ (run ++ rest).dropWhile p = rest := by
  rw [List.takeWhile_append_of_pos inside, List.dropWhile_append_of_pos inside]
  cases rest with
  | nil => simp
  | cons c rest => simp [outside c rfl]

theorem run?_eq_some {p : Char → Bool} {text run rest : Text} :
    run? p text = some (run, rest) ↔
      text = run ++ rest ∧ run ≠ [] ∧ (∀ c ∈ run, p c = true) ∧ ∀ c ∈ rest.head?, p c = false := by
  constructor
  · intro found
    have parts := List.takeWhile_append_dropWhile (p := p) (l := text)
    unfold run? at found
    split at found
    · contradiction
    next taken =>
        obtain ⟨rfl, rfl⟩ : text.takeWhile p = run ∧ text.dropWhile p = rest := by simpa using found
        exact ⟨parts.symm, taken, fun c member => List.mem_takeWhile_imp member,
          head?_dropWhile_fails p text⟩
  · rintro ⟨rfl, nonempty, inside, outside⟩
    obtain ⟨taken, dropped⟩ := span_append inside outside
    unfold run?
    rw [taken, dropped]
    cases run with
    | nil => contradiction
    | cons c run => rfl

/-- All of its characters are blank. -/
def Blank (text : Text) : Prop := ∀ c ∈ text, isBlank c = true

theorem trimLeft_split (text : Text) : ∃ blanks, Blank blanks ∧ text = blanks ++ text.trimLeft :=
  ⟨text.takeWhile isBlank, fun _ member => List.mem_takeWhile_imp member,
    List.takeWhile_append_dropWhile.symm⟩

theorem trimRight_split (text : Text) :
    ∃ blanks, Blank blanks ∧ text = text.trimRight ++ blanks := by
  refine ⟨(text.reverse.takeWhile isBlank).reverse, ?_, ?_⟩
  · intro c member
    exact List.mem_takeWhile_imp (List.mem_reverse.mp member)
  · rw [trimRight, ← List.reverse_append, List.takeWhile_append_dropWhile, List.reverse_reverse]

theorem skipBlanks?_eq_some {text rest : Text} (found : skipBlanks? text = some rest) :
    ∃ blanks, Blank blanks ∧ blanks ≠ [] ∧ text = blanks ++ rest := by
  obtain ⟨⟨blanks, left⟩, read, rfl⟩ := Option.map_eq_some_iff.mp found
  obtain ⟨split, nonempty, inside, _⟩ := run?_eq_some.mp read
  exact ⟨blanks, inside, nonempty, split⟩

/-- A text that goes on with a known text after its blanks. -/
theorem split_of_trimLeft {text rest : Text} (trimmed : text.trimLeft = rest) :
    ∃ blanks, Blank blanks ∧ text = blanks ++ rest := by
  obtain ⟨blanks, inside, split⟩ := trimLeft_split text
  exact ⟨blanks, inside, by rw [← trimmed]; exact split⟩

theorem split_of_dropPrefix?_trimLeft {text rest expected : Text}
    (found : dropPrefix? expected text.trimLeft = some rest) :
    ∃ blanks, Blank blanks ∧ text = blanks ++ expected ++ rest := by
  obtain ⟨blanks, inside, split⟩ := split_of_trimLeft (dropPrefix?_eq_some.mp found)
  exact ⟨blanks, inside, by rw [List.append_assoc]; exact split⟩

/-- The first mark cuts a text in one way only. -/
theorem append_mark_inj {mark : Char} {front front' rest rest' : Text} (absent : mark ∉ front)
    (absent' : mark ∉ front') (same : front ++ mark :: rest = front' ++ mark :: rest') :
    front = front' ∧ rest = rest' := by
  induction front generalizing front' with
  | nil =>
      cases front' with
      | nil => simpa using same
      | cons c front' => exact absurd (List.cons.inj same).1 (by rintro rfl; simp at absent')
  | cons c front ih =>
      cases front' with
      | nil => exact absurd (List.cons.inj same).1 (by rintro rfl; simp at absent)
      | cons c' front' =>
          obtain ⟨rfl, tails⟩ := List.cons.inj same
          obtain ⟨rfl, rfl⟩ := ih (by simp_all) (by simp_all) tails
          exact ⟨rfl, rfl⟩

/-- What holds no mark ends before the first one. -/
theorem split_before_mark {mark : Char} {front rest run left : Text} (absent : mark ∉ run)
    (same : front ++ mark :: rest = run ++ left) : ∃ more, front = run ++ more := by
  cases List.append_eq_append_iff.mp same with
  | inl longer =>
      obtain ⟨more, split, marked⟩ := longer
      cases more with
      | nil => exact ⟨[], by simpa using split.symm⟩
      | cons c more =>
          obtain ⟨rfl, _⟩ := List.cons.inj marked
          exact absurd (by simp [split]) absent
  | inr shorter =>
      obtain ⟨more, split, _⟩ := shorter
      exact ⟨more, split⟩

theorem partition_of_mem {mark : Char} {text : Text} (member : mark ∈ text) :
    ∃ before after, partition mark text = (before, some after) := by
  induction text with
  | nil => simp at member
  | cons c text ih =>
      by_cases same : c = mark
      · exact ⟨[], text, by simp [partition, same]⟩
      · obtain ⟨before, after, found⟩ := ih (by simpa [Ne.symm same] using member)
        exact ⟨c :: before, after, by simp [partition, same, found]⟩

theorem partition_eq_some {mark : Char} {text before after : Text}
    (found : partition mark text = (before, some after)) :
    text = before ++ mark :: after ∧ mark ∉ before := by
  induction text generalizing before with
  | nil => simp [partition] at found
  | cons c text ih =>
      by_cases same : c = mark
      · obtain ⟨rfl, rfl⟩ : [] = before ∧ text = after := by simpa [partition, same] using found
        simp [same]
      · cases inner : partition mark text with
        | mk front left =>
            obtain ⟨rfl, rfl⟩ : c :: front = before ∧ left = some after := by
              simpa [partition, same, inner] using found
            obtain ⟨split, absent⟩ := ih inner
            exact ⟨by simp [split], by simp [absent, Ne.symm same]⟩

theorem partition_append_mark {mark : Char} {before after : Text} (absent : mark ∉ before) :
    partition mark (before ++ mark :: after) = (before, some after) := by
  obtain ⟨front, left, cut⟩ := partition_of_mem (List.mem_append_cons_self (a := mark))
  obtain ⟨split, fresh⟩ := partition_eq_some cut
  obtain ⟨rfl, rfl⟩ := append_mark_inj absent fresh split
  exact cut

theorem partition_eq_none {mark : Char} {text before : Text}
    (found : partition mark text = (before, none)) : before = text ∧ mark ∉ text := by
  have absent : mark ∉ text := by
    intro member
    obtain ⟨front, after, split⟩ := partition_of_mem member
    rw [split] at found
    cases found
  refine ⟨?_, absent⟩
  induction text generalizing before with
  | nil => simpa [partition] using found.symm
  | cons c text ih =>
      have other : c ≠ mark := fun same => absent (by simp [same])
      cases inner : partition mark text with
      | mk front left =>
          obtain ⟨rfl, rfl⟩ : c :: front = before ∧ left = none := by
            simpa [partition, other, inner] using found
          rw [ih inner (by simp_all)]

theorem partition_of_not_mem {mark : Char} {text : Text} (absent : mark ∉ text) :
    partition mark text = (text, none) := by
  rcases cut : partition mark text with ⟨before, _ | after⟩
  · rw [(partition_eq_none cut).1]
  · exact absurd (by simp [(partition_eq_some cut).1]) absent

section

variable {mark : Char} (rest : Text)

/-- A mark that a run does not take ends it, as the end of the text would. -/
theorem span_append_mark {p : Char → Bool} (stops : p mark = false) (start : Text) :
    (start ++ mark :: rest).takeWhile p = start.takeWhile p ∧
      (start ++ mark :: rest).dropWhile p = start.dropWhile p ++ mark :: rest := by
  induction start with
  | nil => simp [stops]
  | cons c start ih => by_cases inside : p c = true <;> simp [inside, ih]

theorem run?_append_mark {p : Char → Bool} (stops : p mark = false) (start : Text) :
    run? p (start ++ mark :: rest) = (run? p start).map (Prod.map id (· ++ mark :: rest)) := by
  obtain ⟨taken, left⟩ := span_append_mark rest stops start
  simp only [run?, taken, left]
  cases start.takeWhile p <;> rfl

theorem trimLeft_append_mark (solid : isBlank mark = false) (text : Text) :
    (text ++ mark :: rest).trimLeft = text.trimLeft ++ mark :: rest :=
  (span_append_mark rest solid text).2

theorem dropPrefix?_append_mark {expected : Text} (absent : mark ∉ expected) (start : Text) :
    dropPrefix? expected (start ++ mark :: rest) =
      (dropPrefix? expected start).map (· ++ mark :: rest) := by
  induction expected generalizing start with
  | nil => rfl
  | cons e expected ih =>
      obtain ⟨other, absent⟩ : mark ≠ e ∧ mark ∉ expected := by simpa using absent
      cases start with
      | nil => simp [dropPrefix?, other.symm]
      | cons c start =>
          by_cases same : e = c
          · simp [dropPrefix?, same, ih absent]
          · simp [dropPrefix?, same]

end

theorem until?_eq_some {mark : Char} {text before after : Text}
    (found : until? mark text = some (before, after)) :
    text = before ++ mark :: after ∧ mark ∉ before := by
  unfold until? at found
  split at found
  · contradiction
  next read =>
      obtain ⟨rfl, rfl⟩ : _ = before ∧ _ = after := by simpa using found
      exact partition_eq_some read

end Text

namespace Block

theorem scan_eq_some {opener closer text : Text} {skip position finish : Nat} {depth : Int}
    (found : scan opener closer skip depth position (suffixes text) = some finish) :
    ∃ before after, text = before ++ closer ++ after ∧
      finish = position + (before ++ closer).length := by
  induction text generalizing skip position depth with
  | nil => simp [suffixes, scan] at found
  | cons c text ih =>
      have later {skip : Nat} {depth : Int}
          (found : scan opener closer skip depth (position + 1) (suffixes text) = some finish) :
          ∃ before after, c :: text = before ++ closer ++ after ∧
            finish = position + (before ++ closer).length := by
        obtain ⟨before, after, split, length⟩ := ih found
        refine ⟨c :: before, after, by simp [split], ?_⟩
        simp only [List.length_append, List.length_cons] at length ⊢
        omega
      cases skip with
      | succ skip => exact later found
      | zero =>
          rw [suffixes, scan] at found
          split at found
          · exact later found
          · split at found
            next closes =>
                split at found
                · obtain ⟨after, split⟩ := Text.startsWith_iff.mp closes
                  exact ⟨[], after, by simpa using split, by simpa using found.symm⟩
                · exact later found
            · exact later found

theorem size?_eq_some {opener closer text : Text} {size : Nat}
    (found : size? opener closer text = some size) :
    ∃ before after, text = before ++ closer ++ after ∧ size = (before ++ closer).length := by
  simpa using scan_eq_some found

/-- A body ends before a closing brace, or with the text. -/
theorem body_split {text inside rest : Text} (found : body text = (inside, rest)) :
    text = inside ++ '}' :: rest ∨ text = inside ∧ rest = [] := by
  unfold body at found
  split at found
  next size sized =>
      obtain ⟨before, after, split, length⟩ := size?_eq_some sized
      cases before with
      | nil => simp at split
      | cons c before =>
          obtain ⟨rfl, rfl⟩ : '{' = c ∧ text = before ++ '}' :: after := by simpa using split
          have inner : size - 2 = before.length := by
            simp only [List.length_append, List.length_cons, List.length_nil] at length
            omega
          have outer : size - 1 = (before ++ ['}']).length := by
            simp only [List.length_append, List.length_cons, List.length_nil] at length ⊢
            omega
          have taken : (before ++ '}' :: after).take (size - 2) = before := by
            rw [inner, List.take_left]
          have dropped : (before ++ '}' :: after).drop (size - 1) = after := by
            rw [outer, show before ++ '}' :: after = before ++ ['}'] ++ after by simp,
              List.drop_left]
          rw [taken, dropped] at found
          obtain ⟨rfl, rfl⟩ : before = inside ∧ after = rest := by simpa using found
          exact .inl rfl
  · obtain ⟨rfl, rfl⟩ : text = inside ∧ [] = rest := by simpa using found
    exact .inr ⟨rfl, rfl⟩

end Block

end Flatsheet
