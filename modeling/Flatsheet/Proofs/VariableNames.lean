import Flatsheet.Proofs.Variables

/-!
Where declarations and uses of variables begin. Both begin with a `$` and the longest name after it;
which of the two it is, or neither, is decided by what follows the name. So a text holds none of them
if and only if none of its names is followed by what makes one.
-/

namespace Flatsheet.Variable

open Text (Blank)

/-- A variable is named here, and what follows the name is as `after` says. -/
def Begins (after : Text → Prop) (text : Text) : Prop :=
  ∃ name rest, name? text = some (name, rest) ∧ after rest

def Assigned (rest : Text) : Prop :=
  ∃ value, rest.trimLeft = ':' :: value ∧ (spacedValue? value).isSome = true

def important : Text := "!important"

def Ended (rest : Text) : Prop :=
  (∃ left, rest.trimLeft = ';' :: left) ∨
    ∃ gap modified left, Blank gap ∧ gap ≠ [] ∧ rest = gap ++ (important ++ modified) ∧
      modified.trimLeft = ';' :: left

variable {after : Text → Prop}

theorem isNamePart_dollar : isNamePart '$' = true := by decide +kernel

theorem not_isNamePart_of_isBlank {c : Char} (blank : isBlank c = true) :
    isNamePart c = false := by
  have other : c ≠ '$' := by
    intro same
    rw [same] at blank
    exact absurd blank (by decide)
  simp [isNamePart, not_isName_of_isBlank blank, other]

theorem Begins.split {text : Text} (begins : Begins after text) :
    ∃ name rest, text = '$' :: (name ++ rest) ∧ (∀ c ∈ name, isNamePart c = true) ∧
      (∀ c ∈ rest.head?, isNamePart c = false) ∧ after rest := by
  obtain ⟨name, rest, named, holds⟩ := begins
  obtain ⟨_, rfl⟩ := name?_eq_some named
  obtain ⟨_, _, inside, outside⟩ := Text.run?_eq_some.mp named
  exact ⟨name, rest, rfl, inside, outside, holds⟩

theorem not_begins_of_ne {c : Char} (other : c ≠ '$') (text : Text) :
    ¬ Begins after (c :: text) := by
  intro begins
  obtain ⟨name, rest, split, _⟩ := begins.split
  exact other (List.cons.inj split).1

theorem begins_dollar {name rest : Text} (inside : ∀ c ∈ name, isNamePart c = true)
    (outside : ∀ c ∈ rest.head?, isNamePart c = false) :
    Begins after ('$' :: (name ++ rest)) ↔ name ≠ [] ∧ after rest := by
  constructor
  · intro begins
    obtain ⟨run, left, named, holds⟩ := begins
    have read : Text.run? isNamePart (name ++ rest) = some (run, left) := named
    cases name with
    | nil =>
        obtain ⟨split, nonempty, part, _⟩ := Text.run?_eq_some.mp read
        obtain ⟨c, run, rfl⟩ := List.exists_cons_of_ne_nil nonempty
        have first : rest.head? = some c := by
          rw [← List.nil_append rest, split]
          rfl
        exact absurd (part c (by simp)) (by simp [outside c first])
    | cons c name =>
        have known : Text.run? isNamePart (c :: name ++ rest) = some (c :: name, rest) :=
          Text.run?_eq_some.mpr ⟨rfl, by simp, inside, outside⟩
        rw [known] at read
        cases read
        exact ⟨by simp, holds⟩
  · intro named
    exact ⟨name, rest, Text.run?_eq_some.mpr ⟨rfl, named.1, inside, outside⟩, named.2⟩

theorem declaration?_isSome {text : Text} :
    (declaration? text).isSome = true ↔ Begins Assigned text := by
  cases named : name? text with
  | none => simp [declaration?, Begins, named]
  | some found =>
      obtain ⟨name, rest⟩ := found
      have begins : Begins Assigned text ↔ Assigned rest := by simp [Begins, named]
      rw [begins]
      cases colon : Text.dropPrefix? [':'] rest.trimLeft with
      | none =>
          have unassigned : ¬ Assigned rest := by
            intro assigned
            obtain ⟨value, trimmed, _⟩ := assigned
            rw [Text.dropPrefix?_eq_some.mpr trimmed] at colon
            cases colon
          simp [declaration?, named, colon, unassigned]
      | some value =>
          have trimmed : rest.trimLeft = ':' :: value := Text.dropPrefix?_eq_some.mp colon
          have assigned : Assigned rest ↔ (spacedValue? value).isSome = true := by
            simp [Assigned, trimmed]
          rw [assigned]
          cases valued : spacedValue? value <;> simp [declaration?, named, colon, valued]

theorem important_eq : ∃ letters, important = '!' :: letters := ⟨"important".toList, by decide⟩

theorem modified_iff {rest modified : Text} :
    (Text.skipBlanks? rest).bind (Text.dropPrefix? important) = some modified ↔
      ∃ gap, Blank gap ∧ gap ≠ [] ∧ rest = gap ++ (important ++ modified) := by
  constructor
  · intro found
    obtain ⟨left, skipped, dropped⟩ := Option.bind_eq_some_iff.mp found
    obtain ⟨gap, blank, nonempty, split⟩ := Text.skipBlanks?_eq_some skipped
    exact ⟨gap, blank, nonempty, by rw [split, Text.dropPrefix?_eq_some.mp dropped]⟩
  · intro written
    obtain ⟨gap, blank, nonempty, split⟩ := written
    have solid : ∀ c ∈ (important ++ modified).head?, isBlank c = false := by
      obtain ⟨letters, spelled⟩ := important_eq
      rw [spelled]
      exact Text.head?_cons_fails (by decide) _
    have skipped : Text.skipBlanks? rest = some (important ++ modified) := by
      rw [split, Text.skipBlanks?, Text.run?_eq_some.mpr ⟨rfl, nonempty, blank, solid⟩]
      rfl
    rw [skipped]
    exact Text.dropPrefix?_eq_some.mpr rfl

theorem use?_isSome {text : Text} : (use? text).isSome = true ↔ Begins Ended text := by
  cases named : name? text with
  | none => simp [use?, Begins, named]
  | some found =>
      obtain ⟨name, rest⟩ := found
      have begins : Begins Ended text ↔ Ended rest := by simp [Begins, named]
      rw [begins]
      unfold use?
      simp only [named, Option.bind_eq_bind, Option.bind_some]
      generalize read : rest.skipBlanks?.bind (Text.dropPrefix? "!important".toList) = modified
      have read : rest.skipBlanks?.bind (Text.dropPrefix? important) = modified := read
      have closes (text : Text) : (∃ left, text.trimLeft = ';' :: left) ↔
          (Text.dropPrefix? [';'] text.trimLeft).isSome = true := by
        rw [Option.isSome_iff_exists]
        exact exists_congr fun left => (@Text.dropPrefix?_eq_some [';'] _ left).symm
      cases modified with
      | none =>
          have unmodified : Ended rest ↔ ∃ left, rest.trimLeft = ';' :: left := by
            constructor
            · intro ended
              cases ended with
              | inl closed => exact closed
              | inr written =>
                  obtain ⟨gap, modified, _, blank, nonempty, split, _⟩ := written
                  rw [modified_iff.mpr ⟨gap, blank, nonempty, split⟩] at read
                  cases read
            · exact .inl
          rw [unmodified, closes]
          cases Text.dropPrefix? [';'] rest.trimLeft <;> rfl
      | some modified =>
          obtain ⟨gap, blank, nonempty, split⟩ := modified_iff.mp read
          have modifies : Ended rest ↔ ∃ left, modified.trimLeft = ';' :: left := by
            constructor
            · intro ended
              cases ended with
              | inl closed =>
                  obtain ⟨left, closed⟩ := closed
                  obtain ⟨letters, spelled⟩ := important_eq
                  rw [split, Text.trimLeft_append blank, spelled, Text.trimLeft,
                    List.cons_append, List.dropWhile_cons_of_neg (by decide)] at closed
                  cases closed
              | inr written =>
                  obtain ⟨gap', modified', left, blank', nonempty', split', closed⟩ := written
                  rw [modified_iff.mpr ⟨gap', blank', nonempty', split'⟩] at read
                  cases read
                  exact ⟨left, closed⟩
            · intro closed
              obtain ⟨left, closed⟩ := closed
              exact .inr ⟨gap, modified, left, blank, nonempty, split, closed⟩
          rw [modifies, closes]
          cases Text.dropPrefix? [';'] modified.trimLeft <;> rfl

/-- In the text before `rest`, nothing begins that goes on as `after` says. -/
def Free (after : Text → Prop) (front rest : Text) : Prop :=
  ∀ start, start <:+ front → start ≠ [] → ¬ Begins after (start ++ rest)

theorem free_nil (rest : Text) : Free after [] rest := by
  intro start suffix nonempty
  exact absurd (List.suffix_nil.mp suffix) nonempty

theorem free_cons {c : Char} {front rest : Text} :
    Free after (c :: front) rest ↔
      ¬ Begins after (c :: (front ++ rest)) ∧ Free after front rest := by
  constructor
  · intro free
    refine ⟨free (c :: front) List.suffix_rfl (by simp), ?_⟩
    intro start suffix
    exact free start (suffix.trans (List.suffix_cons c front))
  · intro ⟨here, later⟩ start suffix nonempty
    cases List.suffix_cons_iff.mp suffix with
    | inl same => rwa [same]
    | inr inside => exact later start inside nonempty

theorem free_append {front middle rest : Text} :
    Free after (front ++ middle) rest ↔
      Free after front (middle ++ rest) ∧ Free after middle rest := by
  induction front with
  | nil => simp [free_nil]
  | cons c front ih => rw [List.cons_append, free_cons, ih, free_cons, List.append_assoc, and_assoc]

theorem free_of_not_mem {front : Text} (absent : '$' ∉ front) (rest : Text) :
    Free after front rest := by
  intro start suffix nonempty
  obtain ⟨c, start, rfl⟩ := List.exists_cons_of_ne_nil nonempty
  apply not_begins_of_ne
  intro same
  exact absent (suffix.subset (by simp [same]))

theorem free_name {name rest : Text} (inside : ∀ c ∈ name, isNamePart c = true)
    (outside : ∀ c ∈ rest.head?, isNamePart c = false) (unmet : ¬ after rest) :
    Free after name rest := by
  induction name with
  | nil => exact free_nil rest
  | cons c name ih =>
      obtain ⟨_, later⟩ := List.forall_mem_cons.mp inside
      refine free_cons.mpr ⟨?_, ih later⟩
      by_cases dollar : c = '$'
      · rw [dollar, begins_dollar later outside]
        intro named
        exact unmet named.2
      · exact not_begins_of_ne dollar _

end Flatsheet.Variable
