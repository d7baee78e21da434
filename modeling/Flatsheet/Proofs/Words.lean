import Flatsheet.Proofs.Reading

/-!
Trimmed texts and words. A text that starts and ends with something else than a blank is trimmed,
and trimming takes off blanks put around a text. Collapsing a text twice does what it does once,
because the words of words written one space apart are these words.
-/

namespace Flatsheet.Text

@[simp] theorem join_singleton (separator part : Text) : join separator [part] = part :=
  List.intercalate_singleton

@[simp] theorem join_cons_cons (separator part next : Text) (parts : List Text) :
    join separator (part :: next :: parts) =
      part ++ (separator ++ join separator (next :: parts)) := by
  rw [join, List.intercalate_cons_cons, List.append_assoc, join]

theorem mem_join {separator : Text} {parts : List Text} {c : Char}
    (member : c ∈ join separator parts) : c ∈ separator ∨ ∃ part ∈ parts, c ∈ part := by
  induction parts with
  | nil => cases member
  | cons part parts ih =>
      cases parts with
      | nil => exact .inr ⟨part, by simp, by simpa using member⟩
      | cons next parts =>
          rw [join_cons_cons, List.mem_append, List.mem_append] at member
          rcases member with first | between | late
          · exact .inr ⟨part, by simp, first⟩
          · exact .inl between
          · exact (ih late).imp_right fun ⟨other, listed, inside⟩ =>
              ⟨other, List.mem_cons_of_mem _ listed, inside⟩

theorem join_ne_nil {separator part : Text} {parts : List Text} (nonempty : part ≠ []) :
    join separator (part :: parts) ≠ [] := by
  cases parts with
  | nil => simpa using nonempty
  | cons next parts => simp [nonempty]

theorem head?_join {separator : Text} {parts : List Text} (nonempty : ∀ part ∈ parts, part ≠ []) :
    (join separator parts).head? = parts.head?.bind List.head? := by
  cases parts with
  | nil => rfl
  | cons part parts =>
      obtain ⟨c, part, rfl⟩ := List.exists_cons_of_ne_nil (nonempty part (by simp))
      cases parts with
      | nil => simp
      | cons next parts => simp

theorem getLast?_join {separator : Text} {parts : List Text}
    (nonempty : ∀ part ∈ parts, part ≠ []) :
    (join separator parts).getLast? = parts.getLast?.bind List.getLast? := by
  induction parts with
  | nil => rfl
  | cons part parts ih =>
      cases parts with
      | nil => simp
      | cons next parts =>
          have later : ∀ part ∈ next :: parts, part ≠ [] := (List.forall_mem_cons.mp nonempty).2
          have rest : join separator (next :: parts) ≠ [] := join_ne_nil (later next (by simp))
          rw [List.getLast?_cons_cons, ← ih later, join_cons_cons, List.getLast?_append,
            List.getLast?_append, List.getLast?_eq_some_getLast rest, Option.some_or,
            Option.some_or]

theorem isBlank_space : isBlank ' ' = true := by decide

theorem Blank.nil : Blank [] := by simp [Blank]

theorem Blank.space : Blank [' '] := List.forall_mem_singleton.mpr isBlank_space

theorem Blank.append {front rest : Text} (first : Blank front) (second : Blank rest) :
    Blank (front ++ rest) := fun c member => (List.mem_append.mp member).elim (first c) (second c)

/-- No blank stands at either end. -/
structure Trimmed (text : Text) : Prop where
  head : ∀ c ∈ text.head?, isBlank c = false
  last : ∀ c ∈ text.getLast?, isBlank c = false

theorem trimLeft_of_blank {text : Text} (blank : Blank text) : text.trimLeft = [] :=
  List.dropWhile_eq_nil_iff.mpr blank

theorem trimRight_append_blank {text blanks : Text} (blank : Blank blanks) :
    (text ++ blanks).trimRight = text.trimRight := by
  have reversed : ∀ c ∈ blanks.reverse, isBlank c = true := fun c member =>
    blank c (List.mem_reverse.mp member)
  rw [trimRight, List.reverse_append, List.dropWhile_append_of_pos reversed, trimRight]

theorem trimRight_of_blank {text : Text} (blank : Blank text) : text.trimRight = [] :=
  @trimRight_append_blank [] text blank

theorem trimRight_cons {c : Char} {text : Text} (kept : isBlank c = true → text.trimRight ≠ []) :
    trimRight (c :: text) = c :: text.trimRight := by
  rw [trimRight, List.reverse_cons, List.dropWhile_append]
  split
  next empty =>
      have nothing : text.trimRight = [] := by
        rw [trimRight, List.isEmpty_iff.mp empty, List.reverse_nil]
      have solid : ¬ isBlank c = true := fun blank => kept blank nothing
      rw [List.dropWhile_cons_of_neg solid, nothing, List.reverse_singleton]
  next => rw [List.reverse_append, List.reverse_singleton, List.singleton_append, trimRight]

/-- Blanks around a text are trimmed with its own. -/
theorem trim_pad {before text after : Text} (leading : Blank before) (trailing : Blank after) :
    (before ++ (text ++ after)).trim = text.trim := by
  rw [trim, trimLeft, List.dropWhile_append_of_pos leading, List.dropWhile_append]
  split
  next empty =>
      have own : text.trimLeft = [] := List.isEmpty_iff.mp empty
      rw [show after.dropWhile isBlank = [] from trimLeft_of_blank trailing, trim, own]
  · exact trimRight_append_blank trailing

theorem Trimmed.trim_eq {text : Text} (trimmed : Trimmed text) : text.trim = text := by
  have left : text.trimLeft = text := by
    cases text with
    | nil => rfl
    | cons c text => simp [trimLeft, trimmed.head c rfl]
  have right : text.trimRight = text := by
    have last : ∀ c ∈ text.reverse.head?, isBlank c = false := by
      simpa using trimmed.last
    rw [trimRight, List.reverse_eq_iff]
    cases reversed : text.reverse with
    | nil => rfl
    | cons c rest => simp [last c (by simp [reversed])]
  rw [trim, left, right]

theorem trim_of_blank {text : Text} (blank : Blank text) : text.trim = [] := by
  rw [trim, trimLeft_of_blank blank]
  rfl

theorem trim_cons_blank {c : Char} {text : Text} (blank : isBlank c = true) :
    trim (c :: text) = text.trim := by
  rw [trim, trimLeft, List.dropWhile_cons_of_pos blank]
  rfl

theorem mem_of_mem_trim {text : Text} {c : Char} (member : c ∈ text.trim) : c ∈ text := by
  have kept : c ∈ text.trimLeft :=
    List.mem_reverse.mp ((List.dropWhile_sublist _).subset (List.mem_reverse.mp member))
  exact (List.dropWhile_sublist _).subset kept

theorem trim_split (text : Text) :
    ∃ before after, Blank before ∧ Blank after ∧ text = before ++ (text.trim ++ after) := by
  obtain ⟨before, leading, front⟩ := trimLeft_split text
  obtain ⟨after, trailing, back⟩ := trimRight_split text.trimLeft
  exact ⟨before, after, leading, trailing, front.trans (congrArg _ back)⟩

theorem trimmed_trim (text : Text) : Trimmed text.trim := by
  constructor
  · intro c head
    obtain ⟨blanks, _, split⟩ := trimRight_split text.trimLeft
    obtain ⟨rest, trimmed⟩ := List.head?_eq_some_iff.mp head
    have left : text.dropWhile isBlank = c :: (rest ++ blanks) := by
      rw [show text.dropWhile isBlank = text.trimLeft from rfl, split,
        show text.trimLeft.trimRight = c :: rest from trimmed, List.cons_append]
    exact head_dropWhile left
  · intro c last
    rw [trim, trimRight, List.getLast?_reverse] at last
    obtain ⟨rest, left⟩ := List.head?_eq_some_iff.mp last
    exact head_dropWhile left

theorem trimmed_iff {text : Text} : Trimmed text ↔ text.trim = text :=
  ⟨Trimmed.trim_eq, fun same => same ▸ trimmed_trim text⟩

theorem Trimmed.join {separator : Text} {parts : List Text}
    (trimmed : ∀ part ∈ parts, part ≠ [] ∧ Trimmed part) : Trimmed (join separator parts) := by
  have nonempty : ∀ part ∈ parts, part ≠ [] := fun part listed => (trimmed part listed).1
  constructor
  · intro c head
    rw [head?_join nonempty] at head
    obtain ⟨part, first, inside⟩ := Option.bind_eq_some_iff.mp head
    exact (trimmed part (List.mem_of_head? first)).2.head c inside
  · intro c last
    rw [getLast?_join nonempty] at last
    obtain ⟨part, final, inside⟩ := Option.bind_eq_some_iff.mp last
    exact (trimmed part (List.mem_of_getLast? final)).2.last c inside

theorem splitWhere_eq_splitOnP (cut : Char → Bool) (text : Text) :
    splitWhere cut text = text.splitOnP cut := by
  induction text with
  | nil => rfl
  | cons c text ih => rw [splitWhere, List.splitOnP_cons_eq_if_modifyHead, ih]

theorem splitWhere_ne_nil (cut : Char → Bool) (text : Text) : splitWhere cut text ≠ [] := by
  rw [splitWhere_eq_splitOnP]
  exact List.splitOnP_ne_nil cut text

theorem flatten_splitWhere (cut : Char → Bool) (text : Text) :
    (splitWhere cut text).flatten = text.filter (fun c => !cut c) := by
  induction text with
  | nil => rfl
  | cons c text ih =>
      rw [splitWhere]
      split
      next cuts => simp [cuts, ih]
      next keeps =>
          obtain ⟨part, parts, split⟩ := List.exists_cons_of_ne_nil (splitWhere_ne_nil cut text)
          rw [split] at ih ⊢
          simpa [keeps] using ih

theorem flatten_words (text : Text) : text.words.flatten = text.filter (fun c => !isBlank c) := by
  rw [← flatten_splitWhere, words]
  simpa using List.flatten_filter_ne_nil (L := splitWhere isBlank text)

def Word (text : Text) : Prop := text ≠ [] ∧ ∀ c ∈ text, isBlank c = false

instance (text : Text) : Decidable (Word text) :=
  @instDecidableAnd (text ≠ []) _ inferInstance (List.decidableBAll _ text)

theorem Word.trimmed {word : Text} (isWord : Word word) : Trimmed word :=
  ⟨fun c head => isWord.2 c (List.mem_of_head? head),
    fun c last => isWord.2 c (List.mem_of_getLast? last)⟩

theorem mem_of_mem_words {text word : Text} {c : Char} (listed : word ∈ text.words)
    (member : c ∈ word) : c ∈ text ∧ isBlank c = false := by
  have kept : c ∈ text.words.flatten := List.mem_flatten.mpr ⟨word, listed, member⟩
  simpa [flatten_words] using kept

theorem word_of_mem_words {text word : Text} (listed : word ∈ text.words) : Word word :=
  ⟨by simpa using (List.mem_filter.mp listed).2, fun _ member => (mem_of_mem_words listed member).2⟩

theorem words_append_blank {c : Char} (blank : isBlank c = true) (front rest : Text) :
    words (front ++ c :: rest) = words front ++ words rest := by
  simp only [words, splitWhere_eq_splitOnP, List.splitOnP_append_cons front rest blank,
    List.filter_append]

theorem words_of_word {word : Text} (isWord : Word word) : words word = [word] := by
  rw [words, splitWhere_eq_splitOnP, List.splitOnP_eq_singleton isWord.2]
  simp [isWord.1]

theorem words_join {parts : List Text} (solid : ∀ part ∈ parts, Word part) :
    words (join [' '] parts) = parts := by
  induction parts with
  | nil => rfl
  | cons part parts ih =>
      obtain ⟨first, later⟩ := List.forall_mem_cons.mp solid
      cases parts with
      | nil => simpa using words_of_word first
      | cons next parts =>
          rw [join_cons_cons, List.singleton_append, words_append_blank isBlank_space,
            words_of_word first, ih later]
          rfl

theorem collapse_collapse (text : Text) : text.collapse.collapse = text.collapse := by
  rw [collapse, collapse, words_join fun _ => word_of_mem_words]

theorem collapse_cons_blank {c : Char} {text : Text} (blank : isBlank c = true) :
    collapse (c :: text) = text.collapse := by
  have same : words (c :: text) = text.words := words_append_blank blank [] text
  rw [collapse, same, collapse]

theorem trimmed_collapse (text : Text) : Trimmed text.collapse :=
  .join fun _ listed => ⟨(word_of_mem_words listed).1, (word_of_mem_words listed).trimmed⟩

theorem mem_collapse {text : Text} {c : Char} (member : c ∈ text.collapse) :
    c = ' ' ∨ c ∈ text ∧ isBlank c = false := by
  rcases mem_join member with between | ⟨word, listed, inside⟩
  · exact .inl (List.mem_singleton.mp between)
  · exact .inr (mem_of_mem_words listed inside)

theorem collapse_eq_nil {text : Text} : text.collapse = [] ↔ Blank text := by
  cases listed : text.words with
  | nil =>
      have kept := flatten_words text
      rw [listed, List.flatten_nil, eq_comm, List.filter_eq_nil_iff] at kept
      have blank : Blank text := by simpa [Blank] using kept
      simp only [collapse, listed, blank, iff_true]
      rfl
  | cons word words =>
      have member : word ∈ text.words := by simp [listed]
      have first : word ≠ [] := (word_of_mem_words member).1
      have solid : ¬ Blank text := by
        obtain ⟨c, tail, rfl⟩ := List.exists_cons_of_ne_nil first
        obtain ⟨inside, unlike⟩ := mem_of_mem_words member (List.mem_cons_self ..)
        intro blank
        simp [blank c inside] at unlike
      rw [collapse, listed]
      exact iff_of_false (join_ne_nil first) solid

end Flatsheet.Text
