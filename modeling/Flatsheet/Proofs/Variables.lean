import Flatsheet.Proofs.Headings
import Flatsheet.Proofs.IntactPasses
import Flatsheet.Proofs.Table

/-!
Variables are evaluated eagerly. The table after a text is the table before it, with the declarations
of the text entered from left to right, and a bare reference is entered with the value that its
variable has at that point. So no reference is left in the table once every variable is declared
before it is referred to.
-/

namespace Flatsheet

namespace Table

universe u

variable {α : Type u}

/-- Names in the order in which they first come in. -/
def enter (names : List Text) (name : Text) : List Text :=
  if names.contains name then names else names ++ [name]

theorem enter_of_mem {names : List Text} {name : Text} (known : name ∈ names) :
    enter names name = names :=
  if_pos (List.contains_iff_mem.mpr known)

theorem enter_of_not_mem {names : List Text} {name : Text} (new : name ∉ names) :
    enter names name = names ++ [name] :=
  if_neg fun known => new (List.contains_iff_mem.mp known)

theorem mem_enter {names : List Text} {name other : Text} :
    other ∈ enter names name ↔ other ∈ names ∨ other = name := by
  by_cases known : name ∈ names
  · rw [enter_of_mem known]
    constructor
    · exact .inl
    · intro member
      cases member with
      | inl inside => exact inside
      | inr same => exact same ▸ known
  · simp [enter_of_not_mem known]

theorem map_fst_put (name : Text) (value : α) (entries : List (Text × α)) :
    (put name value entries).map Prod.fst = enter (entries.map Prod.fst) name := by
  induction entries with
  | nil => rfl
  | cons entry entries ih =>
      rw [put]
      by_cases same : entry.1 = name
      · rw [if_pos same, enter_of_mem (by simp [same]), List.map_cons, List.map_cons, same]
      · rw [if_neg same, List.map_cons, ih, List.map_cons]
        by_cases later : name ∈ entries.map Prod.fst
        · rw [enter_of_mem later, enter_of_mem (List.mem_cons_of_mem _ later)]
        · have absent : name ∉ entry.1 :: entries.map Prod.fst := by simp [Ne.symm same, later]
          rw [enter_of_not_mem later, enter_of_not_mem absent, List.cons_append]

theorem names_insert (table : Table α) (name : Text) (value : α) :
    (table.insert name value).names = enter table.names name :=
  map_fst_put name value table.entries

end Table

namespace Variable

open Text (Blank)

def declared? : Piece Declaration → Option Declaration
  | .char _ => none
  | .hit declaration _ => some declaration

/-- From left to right. -/
def declarations (text : Text) : List Declaration := (declaration?.cut text).filterMap declared?

theorem declarations_of_none {c : Char} {text : Text} (missed : declaration? (c :: text) = none) :
    declarations (c :: text) = declarations text := by
  rw [declarations, Pattern.cut_of_none missed]
  rfl

theorem declarations_of_some {source rest : Text} {declaration : Declaration}
    (covers : source ≠ [])
    (found : declaration? (source ++ rest) = some (declaration, rest)) :
    declarations (source ++ rest) = declaration :: declarations rest := by
  rw [declarations, Pattern.cut_of_some covers found]
  rfl

/-- The text that is left does not depend on the table. -/
theorem run_declareAll (text : Text) (globals : Table Text) :
    (declareAll text).run globals =
      (declaration?.replace Declaration.render text,
        (declarations text).foldl declare globals) := by
  let replace : Nat → Declaration → Text → StateM (Table Text) Text := fun _ declaration _ => do
    modify (declare · declaration)
    return declaration.render
  suffices pieces : ∀ line globals,
      (Pattern.replacePieces replace line (declaration?.cut text)).run globals =
        (declaration?.replace Declaration.render text,
          (declarations text).foldl declare globals) from pieces 1 globals
  refine Pattern.cut_induction declaration?_whole.proper (motive := fun text pieces =>
    ∀ line globals, (Pattern.replacePieces replace line pieces).run globals =
      (declaration?.replace Declaration.render text,
        (declarations text).foldl declare globals)) ?_ ?_ ?_ text
  · intro line globals
    rfl
  · intro c rest missed ih line globals
    rw [Pattern.run_replacePieces_char, ih, Pattern.replace_of_none missed,
      declarations_of_none missed]
  · intro source declaration rest covers found ih line globals
    have ran : (replace line declaration source).run globals =
        (declaration.render, declare globals declaration) := rfl
    rw [Pattern.run_replacePieces_hit, ran, Pattern.replace_of_some covers found,
      declarations_of_some covers found]
    simp only [ih, List.foldl_cons]

theorem run_substitute (text : Text) (globals : Table Text) :
    (substitute text).run globals =
      (use?.replace Use.render (declaration?.replace Declaration.render text),
        (declarations text).foldl declare globals) := by
  have run : (substitute text).run globals =
      (use?.replace Use.render ((declareAll text).run globals).1,
        ((declareAll text).run globals).2) := rfl
  rw [run, run_declareAll]

theorem declaration?_of_ne {c : Char} (other : c ≠ '$') (text : Text) :
    declaration? (c :: text) = none := by
  have unnamed : name? (c :: text) = none := by
    unfold name?
    split
    next same => exact absurd (List.cons.inj same).1 other
    · rfl
  simp [declaration?, unnamed]

theorem declarations_append {front : Text} (free : '$' ∉ front) (rest : Text) :
    declarations (front ++ rest) = declarations rest := by
  induction front with
  | nil => rfl
  | cons c front ih =>
      have other : c ≠ '$' := fun same => free (by simp [same])
      rw [List.cons_append, declarations_of_none (declaration?_of_ne other _),
        ih fun member => free (by simp [member])]

/-- A declaration as it is written, and the blanks after it. -/
structure Assignment where
  name : Text
  value : Text
  gap : Text

namespace Assignment

def text (assignment : Assignment) : Text :=
  '$' :: (assignment.name ++ ':' :: ' ' :: (assignment.value ++ ';' :: assignment.gap))

def entry (assignment : Assignment) : Text × Text := (assignment.name, assignment.value)

structure Proper (assignment : Assignment) : Prop where
  name : Mixin.Name assignment.name
  value : assignment.value ≠ []
  solid : assignment.value.head?.any isBlank = false
  ended : ';' ∉ assignment.value
  line : '\n' ∉ assignment.value
  gap : assignment.gap.all isBlank = true

instance (assignment : Assignment) : Decidable assignment.Proper :=
  decidable_of_iff (Mixin.Name assignment.name ∧ assignment.value ≠ [] ∧
      assignment.value.head?.any isBlank = false ∧ ';' ∉ assignment.value ∧
      '\n' ∉ assignment.value ∧ assignment.gap.all isBlank = true)
    ⟨fun ⟨name, value, solid, ended, line, gap⟩ => ⟨name, value, solid, ended, line, gap⟩,
      fun ⟨name, value, solid, ended, line, gap⟩ => ⟨name, value, solid, ended, line, gap⟩⟩

end Assignment

theorem isNamePart_colon : isNamePart ':' = false := by decide +kernel

theorem isBlank_colon : isBlank ':' = false := by decide

theorem spacedValue?_solid {c : Char} {value : Text} (solid : isBlank c = false)
    (ended : ';' ∉ value) (line : '\n' ∉ c :: value) (rest : Text) :
    spacedValue? (c :: (value ++ ';' :: rest)) = some (([], c :: value), rest) := by
  have read : value? (c :: (value ++ ';' :: rest)) = some (c :: value, rest) := by
    unfold value?
    simp only [Text.until?_of_not_mem ended]
    exact if_neg line
  unfold spacedValue?
  simp only [solid, read]
  rfl

theorem Assignment.Proper.declaration? {assignment : Assignment} (proper : assignment.Proper)
    (rest : Text) :
    declaration? (assignment.text ++ rest) =
      some (⟨assignment.name, [':', ' '], assignment.value⟩, assignment.gap ++ rest) := by
  obtain ⟨c, value, split⟩ := List.exists_cons_of_ne_nil proper.value
  have solid : isBlank c = false := by simpa [split] using proper.solid
  have line : '\n' ∉ c :: value := split ▸ proper.line
  have ended : ';' ∉ value := fun member => proper.ended (by simp [split, member])
  have named : name? (assignment.text ++ rest) =
      some (assignment.name,
        ':' :: ' ' :: (assignment.value ++ ';' :: (assignment.gap ++ rest))) := by
    simp only [Assignment.text, List.cons_append, List.append_assoc, name?]
    apply Text.run?_eq_some.mpr
    refine ⟨rfl, proper.name.1, ?_, ?_⟩
    · intro d member
      simp [isNamePart, proper.name.2 d member]
    · intro d head
      obtain rfl : ':' = d := by simpa using head
      exact isNamePart_colon
  have spaced : spacedValue? (' ' :: (assignment.value ++ ';' :: (assignment.gap ++ rest))) =
      some (([' '], assignment.value), assignment.gap ++ rest) := by
    unfold spacedValue?
    rw [split, List.cons_append, spacedValue?_solid solid ended line]
    rfl
  have trimmed (after : Text) : Text.dropPrefix? [':'] (Text.trimLeft (':' :: after)) =
      some after := by
    rw [Text.trimLeft, List.dropWhile_cons_of_neg (by simp [isBlank_colon])]
    exact Text.dropPrefix?_eq_some.mpr rfl
  have gap (after : Text) : (':' :: after).takeWhile isBlank = [] := by
    simp [isBlank_colon]
  simp only [Variable.declaration?, named, Option.bind_eq_bind, Option.bind_some, trimmed, spaced,
    gap, List.nil_append, Option.pure_def]

theorem declarations_assignments {assignments : List Assignment}
    (proper : ∀ assignment ∈ assignments, assignment.Proper) :
    declarations (assignments.flatMap Assignment.text) =
      assignments.map fun assignment => ⟨assignment.name, [':', ' '], assignment.value⟩ := by
  induction assignments with
  | nil => rfl
  | cons assignment assignments ih =>
      obtain ⟨first, later⟩ := List.forall_mem_cons.mp proper
      have found := first.declaration? (assignments.flatMap Assignment.text)
      have free : '$' ∉ assignment.gap := fun member =>
        absurd (List.all_eq_true.mp first.gap '$' member) (by decide)
      have split : assignment.text ++ assignments.flatMap Assignment.text =
          '$' :: (assignment.name ++ ':' :: ' ' :: (assignment.value ++ [';'])) ++
            (assignment.gap ++ assignments.flatMap Assignment.text) := by
        simp [Assignment.text]
      rw [split] at found
      rw [List.flatMap_cons, split, declarations_of_some (by simp) found,
        declarations_append free, ih later]
      rfl

/-- Nothing but a variable, blanks apart. -/
def Refers (value source : Text) : Prop :=
  value.trim = '$' :: source ∧ source ≠ [] ∧ ∀ c ∈ source, isName c = true

theorem reference?_eq_some {value source : Text} :
    reference? value = some source ↔ Refers value source := by
  unfold reference? Refers
  split
  next name trimmed =>
      rw [trimmed]
      by_cases named : name ≠ [] ∧ name.all isName
      · rw [if_pos named]
        constructor
        · intro same
          cases same
          exact ⟨rfl, named.1, List.all_eq_true.mp named.2⟩
        · intro refers
          rw [(List.cons.inj refers.1).2]
      · rw [if_neg named]
        constructor
        · intro same
          cases same
        · intro refers
          obtain rfl : name = source := (List.cons.inj refers.1).2
          exact absurd ⟨refers.2.1, List.all_eq_true.mpr refers.2.2⟩ named
  next other =>
      constructor
      · intro same
        cases same
      · intro refers
        exact absurd refers.1 (other source)

/-- No reference to a variable. -/
def Settled (value : Text) : Prop := ∀ source, ¬ Refers value source

theorem settled_iff {value : Text} : Settled value ↔ reference? value = none := by
  simp only [Settled, ← reference?_eq_some, Option.eq_none_iff_forall_ne_some, ne_eq]

instance : DecidablePred Settled := fun _ => decidable_of_iff _ settled_iff.symm

/-- Enters names with their values, one after the other. A reference to a variable that the table
holds is entered with the value that it has there. -/
inductive Evaluates : Table Text → List (Text × Text) → Table Text → Prop
  | done (globals : Table Text) : Evaluates globals [] globals
  | copied {globals final : Table Text} {name value source current : Text}
      {entries : List (Text × Text)} (refers : Refers value source)
      (known : globals.get? source = some current)
      (rest : Evaluates (globals.insert name current) entries final) :
      Evaluates globals ((name, value) :: entries) final
  | stored {globals final : Table Text} {name value : Text} {entries : List (Text × Text)}
      (unknown : ∀ source, Refers value source → globals.get? source = none)
      (rest : Evaluates (globals.insert name value) entries final) :
      Evaluates globals ((name, value) :: entries) final

theorem declare_of_known {globals : Table Text} {declaration : Declaration} {source current : Text}
    (refers : Refers declaration.value source) (known : globals.get? source = some current) :
    declare globals declaration = globals.insert declaration.name current := by
  simp [declare, reference?_eq_some.mpr refers, known]

theorem declare_of_unknown {globals : Table Text} {declaration : Declaration}
    (unknown : ∀ source, Refers declaration.value source → globals.get? source = none) :
    declare globals declaration = globals.insert declaration.name declaration.value := by
  cases found : reference? declaration.value with
  | none => simp [declare, found]
  | some source => simp [declare, found, unknown source (reference?_eq_some.mp found)]

theorem evaluates_iff {declarations : List Declaration} {globals final : Table Text} :
    Evaluates globals (declarations.map fun declaration => (declaration.name, declaration.value))
      final ↔ final = declarations.foldl declare globals := by
  induction declarations generalizing globals with
  | nil =>
      constructor
      · intro evaluates
        cases evaluates
        rfl
      · intro same
        rw [same]
        exact .done globals
  | cons declaration declarations ih =>
      rw [List.map_cons, List.foldl_cons, ← ih]
      constructor
      · intro evaluates
        cases evaluates with
        | copied refers known rest => rwa [declare_of_known refers known]
        | stored unknown rest => rwa [declare_of_unknown unknown]
      · intro rest
        by_cases known : ∃ source current,
            Refers declaration.value source ∧ globals.get? source = some current
        · obtain ⟨source, current, refers, found⟩ := known
          rw [declare_of_known refers found] at rest
          exact .copied refers found rest
        · have unknown : ∀ source, Refers declaration.value source →
              globals.get? source = none := by
            intro source refers
            cases found : globals.get? source with
            | none => rfl
            | some current => exact absurd ⟨source, current, refers, found⟩ known
          rw [declare_of_unknown unknown] at rest
          exact .stored unknown rest

/-- Each variable that is referred to is among the names or comes in before. -/
def Declared : (names : List Text) → (entries : List (Text × Text)) → Prop
  | _, [] => True
  | names, (name, value) :: entries =>
      (∀ source, Refers value source → source ∈ names) ∧ Declared (name :: names) entries

instance Declared.decidable :
    (names : List Text) → (entries : List (Text × Text)) → Decidable (Declared names entries)
  | _, [] => .isTrue trivial
  | names, (name, value) :: entries =>
      have := Declared.decidable (name :: names) entries
      have first : (reference? value).all (fun source => decide (source ∈ names)) = true ↔
          ∀ source, Refers value source → source ∈ names := by
        simp [Option.all_eq_true, reference?_eq_some]
      decidable_of_iff (_ ∧ Declared (name :: names) entries) (and_congr first Iff.rfl)

theorem cons_subset_names {globals : Table Text} {names : List Text} {name value : Text}
    (known : names ⊆ globals.names) : name :: names ⊆ (globals.insert name value).names := by
  intro other member
  rw [Table.names_insert, Table.mem_enter]
  cases List.mem_cons.mp member with
  | inl same => exact .inr same
  | inr listed => exact .inl (known listed)

namespace Evaluates

variable {globals final : Table Text} {entries : List (Text × Text)}

theorem names_eq (evaluates : Evaluates globals entries final) :
    final.names = (entries.map Prod.fst).foldl Table.enter globals.names := by
  induction evaluates with
  | done globals => rfl
  | copied _ _ _ ih => rw [ih, Table.names_insert, List.map_cons, List.foldl_cons]
  | stored _ _ ih => rw [ih, Table.names_insert, List.map_cons, List.foldl_cons]

theorem settled (evaluates : Evaluates globals entries final) (start : globals.All Settled)
    {names : List Text} (known : names ⊆ globals.names) (declared : Declared names entries) :
    final.All Settled := by
  induction evaluates generalizing names with
  | done globals => exact start
  | copied refers found rest ih =>
      exact ih (start.insert (start.get? found)) (cons_subset_names known) declared.2
  | @stored globals final name value entries unknown rest ih =>
      have unreferring : Settled value := by
        intro source refers
        have listed := Table.contains_iff.mpr (known (declared.1 source refers))
        simp [Table.contains, unknown source refers] at listed
      exact ih (start.insert unreferring) (cons_subset_names known) declared.2

end Evaluates

/-- Assignments in a row are evaluated one after the other: this fixes the table that they leave,
whose names stand in the order in which they first came in. -/
theorem substitute_evaluates (globals : Table Text) (assignments : List Assignment)
    (proper : ∀ assignment ∈ assignments, assignment.Proper) :
    ∃ final, ((substitute (assignments.flatMap Assignment.text)).run globals).2 = final ∧
      (∀ other, Evaluates globals (assignments.map Assignment.entry) other ↔ other = final) ∧
      final.names = (assignments.map Assignment.name).foldl Table.enter globals.names ∧
      (globals.All Settled → Declared globals.names (assignments.map Assignment.entry) →
        final.All Settled) := by
  rw [run_substitute, declarations_assignments proper]
  refine ⟨_, rfl, ?_⟩
  have evaluated (other : Table Text) :
      Evaluates globals (assignments.map Assignment.entry) other ↔
        other = (assignments.map fun assignment =>
          (⟨assignment.name, [':', ' '], assignment.value⟩ : Declaration)).foldl declare globals := by
    rw [← evaluates_iff, List.map_map]
    rfl
  have evaluates := (evaluated _).mpr rfl
  refine ⟨evaluated, ?_, fun start declared => ?_⟩
  · rw [evaluates.names_eq, List.map_map]
    rfl
  · exact evaluates.settled start (List.Subset.refl _) declared

/-- A chain of references, a variable that is overwritten after it is copied, and a value with a
reference and a colon in it. -/
theorem substitute_evaluates_chain :
    let globals : Table Text := ⟨[("x".toList, "1px".toList), ("y".toList, "$x 0".toList)]⟩
    let assignments : List Assignment :=
      [⟨"a".toList, "$x".toList, "\n\t".toList⟩, ⟨"x".toList, "2px".toList, []⟩,
        ⟨"b-1".toList, "$a ".toList, " ".toList⟩, ⟨"a".toList, "$z: $b-1".toList, []⟩]
    (∀ assignment ∈ assignments, assignment.Proper) ∧ globals.All Settled ∧
      Declared globals.names (assignments.map Assignment.entry) ∧
      ((substitute (assignments.flatMap Assignment.text)).run globals).2.entries =
        [("x".toList, "2px".toList), ("y".toList, "$x 0".toList), ("a".toList, "$z: $b-1".toList),
          ("b-1".toList, "1px".toList)] ∧
      ((substitute (assignments.flatMap Assignment.text)).run globals).2.All Settled := by
  intro globals assignments
  have proper : ∀ assignment ∈ assignments, assignment.Proper := by decide +kernel
  have start : globals.All Settled := by decide +kernel
  have declared : Declared globals.names (assignments.map Assignment.entry) := by decide +kernel
  obtain ⟨final, left, _, _, settled⟩ := substitute_evaluates globals assignments proper
  refine ⟨proper, start, declared, by decide +kernel, ?_⟩
  rw [left]
  exact settled start declared

end Variable

end Flatsheet
