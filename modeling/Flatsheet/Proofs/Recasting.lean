import Flatsheet.Proofs.VariableNames

/-!
Texts that differ only in single words. Whether a name is declared or used is decided by blanks,
semicolons and line ends, so it is the same in two such texts. The passes over declarations and uses
put one word in place of another: neither makes nor breaks a declaration or a use elsewhere in the
text.
-/

namespace Flatsheet.Variable

open Text (Blank)

variable {after : Text → Prop}

/-- With these characters begin the words that are replaced, and those that replace them. -/
def marks : List Char := ['$', '-', 'v']

def Marked (word : Text) : Prop :=
  (∃ mark ∈ marks, word.head? = some mark) ∧ ∀ c ∈ word, isBlank c = false ∧ c ≠ ';'

/-- The same text, but for words that begin with a mark and hold no blank and no semicolon. -/
inductive Recast : Text → Text → Prop
  | nil : Recast [] []
  | char {text other : Text} (c : Char) (rest : Recast text other) :
      Recast (c :: text) (c :: other)
  | word {word word' text other : Text} (marked : Marked word) (marked' : Marked word')
      (rest : Recast text other) : Recast (word ++ text) (word' ++ other)

/-- A semicolon stands on the first line. -/
def EndsHere (text : Text) : Prop := ';' ∈ text.takeWhile (· ≠ '\n')

theorem endsHere_cons {c : Char} {text : Text} :
    EndsHere (c :: text) ↔ c ≠ '\n' ∧ (c = ';' ∨ EndsHere text) := by
  unfold EndsHere
  by_cases line : c = '\n'
  · simp [line]
  · simp [line, eq_comm]

theorem endsHere_append {word text : Text} (solid : ∀ c ∈ word, isBlank c = false ∧ c ≠ ';') :
    EndsHere (word ++ text) ↔ EndsHere text := by
  induction word with
  | nil => rfl
  | cons c word ih =>
      obtain ⟨⟨blank, other⟩, later⟩ := List.forall_mem_cons.mp solid
      have line : c ≠ '\n' := by
        intro same
        rw [same] at blank
        exact absurd blank (by decide)
      rw [List.cons_append, endsHere_cons, ih later]
      simp [line, other]

theorem endsHere_value {value : Text} (ended : ';' ∉ value) (rest : Text) :
    EndsHere (value ++ ';' :: rest) ↔ '\n' ∉ value := by
  induction value with
  | nil => simp [endsHere_cons]
  | cons c value ih =>
      obtain ⟨other, later⟩ : ';' ≠ c ∧ ';' ∉ value := by simpa using ended
      rw [List.cons_append, endsHere_cons, ih later]
      simp [Ne.symm other, eq_comm]

theorem value?_isSome {c : Char} {text : Text} :
    (value? (c :: text)).isSome = true ↔ c ≠ '\n' ∧ EndsHere text := by
  simp only [value?]
  cases read : Text.until? ';' text with
  | none =>
      have absent : ';' ∉ text := by
        intro member
        obtain ⟨before, left, found⟩ := Text.partition_of_mem member
        simp [Text.until?, found] at read
      have unended : ¬ EndsHere text := fun ends =>
        absent ((List.takeWhile_sublist _).subset ends)
      simp [unended]
  | some found =>
      obtain ⟨value, rest⟩ := found
      obtain ⟨split, ended⟩ := Text.until?_eq_some read
      have apart : c ≠ '\n' ∧ '\n' ∉ value ↔ '\n' ∉ c :: value := by
        rw [List.mem_cons, not_or, ne_comm]
      rw [split, endsHere_value ended, apart]
      dsimp only
      by_cases line : '\n' ∈ c :: value
      · rw [if_pos line]
        exact ⟨fun missing => absurd missing (by decide), fun absent => absurd line absent⟩
      · rw [if_neg line]
        exact ⟨fun _ => line, fun _ => rfl⟩

theorem spacedValue?_isSome {c : Char} {text : Text} :
    (spacedValue? (c :: text)).isSome = true ↔
      isBlank c = true ∧ (spacedValue? text).isSome = true ∨ c ≠ '\n' ∧ EndsHere text := by
  rw [← value?_isSome]
  generalize tail : spacedValue? text = longer
  unfold spacedValue?
  simp only [tail]
  by_cases blank : isBlank c = true
  · cases longer with
    | none => cases value? (c :: text) <;> simp [blank]
    | some found => simp [blank]
  · cases value? (c :: text) <;> simp [blank]

namespace Recast

variable {text other : Text}

theorem symm (recast : Recast text other) : Recast other text := by
  induction recast with
  | nil => exact .nil
  | char c _ ih => exact .char c ih
  | word marked marked' _ ih => exact .word marked' marked ih

theorem append (front : Text) (recast : Recast text other) :
    Recast (front ++ text) (front ++ other) := by
  induction front with
  | nil => exact recast
  | cons c front ih => exact .char c ih

theorem endsHere (recast : Recast text other) : EndsHere text ↔ EndsHere other := by
  induction recast with
  | nil => rfl
  | char c _ ih => rw [endsHere_cons, endsHere_cons, ih]
  | word marked marked' _ ih => rw [endsHere_append marked.2, endsHere_append marked'.2, ih]

end Recast

theorem Marked.split {word : Text} (marked : Marked word) :
    ∃ mark letters, word = mark :: letters ∧ mark ∈ marks ∧ isBlank mark = false ∧
      ∀ c ∈ letters, isBlank c = false ∧ c ≠ ';' := by
  obtain ⟨⟨mark, listed, first⟩, solid⟩ := marked
  obtain ⟨letters, rfl⟩ := List.head?_eq_some_iff.mp first
  obtain ⟨here, later⟩ := List.forall_mem_cons.mp solid
  exact ⟨mark, letters, rfl, listed, here.1, later⟩

theorem Marked.valued {word : Text} (marked : Marked word) (text : Text) :
    (spacedValue? (word ++ text)).isSome = true ↔ EndsHere text := by
  obtain ⟨mark, letters, rfl, _, solid, later⟩ := marked.split
  have line : mark ≠ '\n' := by
    intro same
    rw [same] at solid
    exact absurd solid (by decide)
  rw [List.cons_append, spacedValue?_isSome, endsHere_append later]
  simp [solid, line]

theorem Marked.trimLeft {word : Text} (marked : Marked word) (text : Text) :
    (word ++ text).trimLeft = word ++ text := by
  obtain ⟨mark, letters, rfl, _, solid, _⟩ := marked.split
  rw [List.cons_append, Text.trimLeft, List.dropWhile_cons_of_neg (by simp [solid])]

namespace Recast

variable {text other : Text}

theorem valued (recast : Recast text other) :
    (spacedValue? text).isSome = true ↔ (spacedValue? other).isSome = true := by
  induction recast with
  | nil => rfl
  | char c rest ih => rw [spacedValue?_isSome, spacedValue?_isSome, ih, rest.endsHere]
  | word marked marked' rest _ => rw [marked.valued, marked'.valued, rest.endsHere]

theorem trimLeft (recast : Recast text other) : Recast text.trimLeft other.trimLeft := by
  induction recast with
  | nil => exact .nil
  | char c rest ih =>
      by_cases blank : isBlank c = true
      · rw [Text.trimLeft, Text.trimLeft, List.dropWhile_cons_of_pos blank,
          List.dropWhile_cons_of_pos blank]
        exact ih
      · rw [Text.trimLeft, Text.trimLeft, List.dropWhile_cons_of_neg blank,
          List.dropWhile_cons_of_neg blank]
        exact .char c rest
  | word marked marked' rest _ =>
      rw [marked.trimLeft, marked'.trimLeft]
      exact .word marked marked' rest

theorem of_cons {c : Char} (unmarked : c ∉ marks) (recast : Recast (c :: text) other) :
    ∃ left, other = c :: left ∧ Recast text left := by
  generalize whole : c :: text = front at recast
  cases recast with
  | nil => cases whole
  | char d rest =>
      cases whole
      exact ⟨_, rfl, rest⟩
  | word marked marked' rest =>
      obtain ⟨mark, letters, rfl, listed, _⟩ := marked.split
      cases whole
      exact absurd listed unmarked

theorem of_append {front : Text} (unmarked : ∀ c ∈ front, c ∉ marks)
    (recast : Recast (front ++ text) other) :
    ∃ left, other = front ++ left ∧ Recast text left := by
  induction front generalizing other with
  | nil => exact ⟨other, rfl, recast⟩
  | cons c front ih =>
      obtain ⟨here, later⟩ := List.forall_mem_cons.mp unmarked
      obtain ⟨tail, rfl, inner⟩ := of_cons here recast
      obtain ⟨left, rfl, rest⟩ := ih later inner
      exact ⟨left, rfl, rest⟩

end Recast

/-- What follows a name may be recast. -/
def Stable (after : Text → Prop) : Prop :=
  ∀ ⦃text other⦄, Recast text other → after text → after other

theorem stable_assigned : Stable Assigned := by
  intro text other recast assigned
  obtain ⟨value, trimmed, valued⟩ := assigned
  have rest := recast.trimLeft
  rw [trimmed] at rest
  obtain ⟨left, trimmed', rest⟩ := rest.of_cons (by decide)
  exact ⟨left, trimmed', rest.valued.mp valued⟩

theorem unmarked_important : ∀ c ∈ important, c ∉ marks := by
  have apart : important.all (fun c => decide (c ∉ marks)) = true := by decide
  intro c member
  exact of_decide_eq_true (List.all_eq_true.mp apart c member)

theorem stable_ended : Stable Ended := by
  intro text other recast ended
  have closes {text other left : Text} (recast : Recast text other)
      (closed : text.trimLeft = ';' :: left) : ∃ left, other.trimLeft = ';' :: left := by
    have rest := recast.trimLeft
    rw [closed] at rest
    obtain ⟨left, closed', _⟩ := rest.of_cons (by decide)
    exact ⟨left, closed'⟩
  cases ended with
  | inl closed =>
      obtain ⟨left, closed⟩ := closed
      exact .inl (closes recast closed)
  | inr written =>
      obtain ⟨gap, modified, left, blank, nonempty, rfl, closed⟩ := written
      have gapUnmarked : ∀ c ∈ gap, c ∉ marks := by
        intro c member listed
        have solid : marks.all (fun mark => !isBlank mark) = true := by decide
        simpa [blank c member] using List.all_eq_true.mp solid c listed
      obtain ⟨tail, rfl, inner⟩ := recast.of_append gapUnmarked
      obtain ⟨modified', rfl, rest⟩ := inner.of_append unmarked_important
      obtain ⟨left', closed'⟩ := closes rest closed
      exact .inr ⟨gap, modified', left', blank, nonempty, rfl, closed'⟩

/-- One name, and texts after it that do not go on with the name and differ in single words. -/
def Parallel (text other : Text) : Prop :=
  ∃ name rest rest', text = name ++ rest ∧ other = name ++ rest' ∧
    (∀ c ∈ name, isNamePart c = true) ∧ (∀ c ∈ rest.head?, isNamePart c = false) ∧
    (∀ c ∈ rest'.head?, isNamePart c = false) ∧ Recast rest rest'

namespace Parallel

variable {text other : Text}

theorem begins_iff (parallel : Parallel text other) (stable : Stable after) :
    Begins after ('$' :: text) ↔ Begins after ('$' :: other) := by
  obtain ⟨name, rest, rest', rfl, rfl, inside, outside, outside', recast⟩ := parallel
  rw [begins_dollar inside outside, begins_dollar inside outside']
  exact and_congr Iff.rfl ⟨stable recast, stable recast.symm⟩

theorem cons {c : Char} (part : isNamePart c = true) (parallel : Parallel text other) :
    Parallel (c :: text) (c :: other) := by
  obtain ⟨name, rest, rest', rfl, rfl, inside, outside⟩ := parallel
  exact ⟨c :: name, rest, rest', rfl, rfl, List.forall_mem_cons.mpr ⟨part, inside⟩, outside⟩

theorem stop {c : Char} (other_part : isNamePart c = false) (recast : Recast text other) :
    Parallel (c :: text) (c :: other) := by
  have outside := Text.head?_cons_fails other_part
  exact ⟨[], c :: text, c :: other, rfl, rfl, by simp, outside text, outside other, .char c recast⟩

theorem before_semicolon (recast : Recast text other) (front : Text) :
    Parallel (front ++ ';' :: text) (front ++ ';' :: other) := by
  induction front with
  | nil => exact stop (by decide +kernel) recast
  | cons c front ih =>
      cases part : isNamePart c with
      | true => exact cons part ih
      | false => exact stop part (.append front (.char ';' recast))

end Parallel

/-- A pass over the text that puts one word in place of another wherever a name goes on as `after`
says. -/
structure Rewrites {α : Type} (pattern : Pattern α) (render : α → Text) (after : Text → Prop) :
    Prop where
  proper : pattern.Proper
  begins : ∀ text, (pattern text).isSome = true ↔ Begins after text
  words : ∀ source value rest, pattern (source ++ rest) = some (value, rest) →
    ∃ word word' tail, Marked word ∧ Marked word' ∧ source = word ++ tail ∧
      render value = word' ++ tail

namespace Rewrites

variable {α : Type} {pattern : Pattern α} {render : α → Text}

theorem not_begins (rewrites : Rewrites pattern render after) {text : Text} :
    pattern text = none ↔ ¬ Begins after text := by
  rw [← rewrites.begins, Bool.not_eq_true, Option.isSome_eq_false_iff, Option.isNone_iff_eq_none]

theorem recast (rewrites : Rewrites pattern render after) (text : Text) :
    Recast text (pattern.replace render text) := by
  refine Pattern.cut_induction rewrites.proper (motive := fun text _ =>
    Recast text (pattern.replace render text)) .nil ?_ ?_ text
  · intro c rest missed ih
    rw [Pattern.replace_of_none missed]
    exact .char c ih
  · intro source value rest covers found ih
    rw [Pattern.replace_of_some covers found]
    obtain ⟨word, word', tail, marked, marked', rfl, written⟩ :=
      rewrites.words source value rest found
    rw [written, List.append_assoc, List.append_assoc]
    exact .word marked marked' (ih.append tail)

/-- A name that is not rewritten does not run into a match, which would make it a part of a name
that is rewritten. -/
theorem parallel (rewrites : Rewrites pattern render after) {run text : Text}
    (inside : ∀ c ∈ run, isNamePart c = true) (missed : ¬ Begins after ('$' :: (run ++ text))) :
    Parallel text (pattern.replace render text) := by
  revert run
  refine Pattern.cut_induction rewrites.proper (motive := fun text _ => ∀ {run : Text},
    (∀ c ∈ run, isNamePart c = true) → ¬ Begins after ('$' :: (run ++ text)) →
    Parallel text (pattern.replace render text)) ?_ ?_ ?_ text
  · intro run _ _
    exact ⟨[], [], [], rfl, rfl, by simp, by simp, by simp, .nil⟩
  · intro c rest unmatched ih run inside missed
    rw [Pattern.replace_of_none unmatched]
    cases part : isNamePart c with
    | true =>
        have longer : ∀ d ∈ run ++ [c], isNamePart d = true := by
          intro d member
          cases List.mem_append.mp member with
          | inl early => exact inside d early
          | inr last =>
              rw [List.mem_singleton.mp last]
              exact part
        exact .cons part (ih longer (by simpa using missed))
    | false => exact .stop part (rewrites.recast rest)
  · intro source value rest covers found ih run inside missed
    have matched : (pattern (source ++ rest)).isSome = true := by rw [found]; rfl
    obtain ⟨name, left, split, named, outside, holds⟩ := ((rewrites.begins _).mp matched).split
    have longer : ∀ c ∈ run ++ '$' :: name, isNamePart c = true := by
      intro c member
      cases List.mem_append.mp member with
      | inl early => exact inside c early
      | inr late =>
          cases List.mem_cons.mp late with
          | inl dollar => rw [dollar]; exact isNamePart_dollar
          | inr last => exact named c last
    refine absurd ?_ missed
    have whole : '$' :: (run ++ (source ++ rest)) = '$' :: (run ++ '$' :: name ++ left) := by
      simp [split]
    rw [whole, begins_dollar longer outside]
    exact ⟨by simp, holds⟩

theorem begins_iff (rewrites : Rewrites pattern render after) {other : Text → Prop}
    (stable : Stable other) {c : Char} {text : Text} (missed : pattern (c :: text) = none) :
    Begins other (c :: text) ↔ Begins other (c :: pattern.replace render text) := by
  by_cases dollar : c = '$'
  · subst dollar
    have unmet := rewrites.not_begins.mp missed
    exact (rewrites.parallel (fun _ member => absurd member List.not_mem_nil) unmet).begins_iff stable
  · exact iff_of_false (not_begins_of_ne dollar _) (not_begins_of_ne dollar _)

end Rewrites

theorem solid_of_all {word : Text} (solid : word.all (fun c => !isBlank c && c != ';') = true) :
    ∀ c ∈ word, isBlank c = false ∧ c ≠ ';' := by
  simpa using solid

theorem marked_dollar {name : Text} (inside : ∀ c ∈ name, isNamePart c = true) :
    Marked ('$' :: name) := by
  refine ⟨⟨'$', by decide, rfl⟩, ?_⟩
  intro c member
  have part : isNamePart c = true := by
    cases List.mem_cons.mp member with
    | inl same => rw [same]; exact isNamePart_dollar
    | inr named => exact inside c named
  constructor
  · cases blank : isBlank c with
    | false => rfl
    | true => rw [not_isNamePart_of_isBlank blank] at part; cases part
  · intro same
    rw [same] at part
    exact absurd part (by decide +kernel)

theorem Marked.surround {name front back : Text} (named : Marked ('$' :: name))
    (opened : Marked front) (closed : ∀ c ∈ back, isBlank c = false ∧ c ≠ ';') :
    Marked (front ++ name ++ back) := by
  obtain ⟨mark, letters, rfl, listed, _⟩ := opened.split
  refine ⟨⟨mark, listed, rfl⟩, ?_⟩
  intro c member
  cases List.mem_append.mp member with
  | inl early =>
      cases List.mem_append.mp early with
      | inl first => exact opened.2 c first
      | inr middle => exact named.2 c (List.mem_cons_of_mem _ middle)
  | inr late => exact closed c late

theorem declaration?_source {source rest : Text} {declaration : Declaration}
    (found : declaration? (source ++ rest) = some (declaration, rest)) :
    ∃ body, source = '$' :: (body ++ [';']) ∧ declaration.render = '-' :: '-' :: (body ++ [';']) := by
  obtain ⟨_, _, _, _, _, _, shape⟩ := declaration?_eq_some found
  refine ⟨declaration.name ++ declaration.separator ++ declaration.value, ?_, rfl⟩
  exact List.append_cancel_right (shape.trans (by simp))

theorem rewrites_declarations : Rewrites declaration? Declaration.render Assigned where
  proper := declaration?_whole.proper
  begins _ := declaration?_isSome
  words source declaration rest found := by
    obtain ⟨body, rfl, written⟩ := declaration?_source found
    refine ⟨['$'], ['-', '-'], body ++ [';'], marked_dollar (by simp), ?_, rfl, written⟩
    exact ⟨⟨'-', by decide, rfl⟩, solid_of_all (by decide)⟩

theorem use?_source {source rest : Text} {use : Use}
    (found : use? (source ++ rest) = some (use, rest)) :
    ∃ middle, (∀ c ∈ use.name, isNamePart c = true) ∧
      (Blank middle ∨ ∃ gap space, Blank gap ∧ Blank space ∧ middle = gap ++ (important ++ space)) ∧
      use.ending = middle ++ [';'] ∧ source = '$' :: use.name ++ use.ending := by
  obtain ⟨middle, named, shape, ended, whole⟩ := use?_eq_some found
  refine ⟨middle, named, ?_, ended, List.append_cancel_right (whole.trans (by simp))⟩
  refine shape.imp_right ?_
  intro ⟨gap, space, gapBlank, spaceBlank, written⟩
  exact ⟨gap, space, gapBlank, spaceBlank, by rw [written, List.append_assoc]; rfl⟩

theorem use_render_eq (use : Use) :
    ∃ opening, Marked opening ∧ '$' ∉ opening ∧
      use.render = opening ++ (use.name ++ ')' :: use.ending) := by
  refine ⟨"var(--".toList, ?_, by decide, List.append_assoc _ _ _⟩
  exact ⟨⟨'v', by decide, by decide⟩, solid_of_all (by decide)⟩

theorem rewrites_uses : Rewrites use? Use.render Ended where
  proper := use?_whole.proper
  begins _ := use?_isSome
  words source use rest found := by
    obtain ⟨middle, named, _, _, rfl⟩ := use?_source found
    obtain ⟨opening, opened, _, written⟩ := use_render_eq use
    have closed : ∀ c ∈ [')'], isBlank c = false ∧ c ≠ ';' := solid_of_all (by decide)
    refine ⟨'$' :: use.name, opening ++ use.name ++ [')'], use.ending, marked_dollar named,
      (marked_dollar named).surround opened closed, rfl, ?_⟩
    simp [written]

end Flatsheet.Variable
