import Flatsheet.Proofs.Recasting

/-!
Substitution of variables in a text that it has gone over before. The first run leaves no use behind,
and it leaves a declaration behind only where one begins inside another: in its name, which may hold
a `$`, or in its value. So the second run changes nothing if and only if no declaration of the text
begins inside another.
-/

namespace Flatsheet.Variable

open Text (Blank)

variable {after : Text → Prop}

theorem trimLeft_of_solid {c : Char} (solid : isBlank c = false) (text : Text) :
    Text.trimLeft (c :: text) = c :: text := by
  rw [Text.trimLeft, List.dropWhile_cons_of_neg (by simp [solid])]

theorem not_assigned_parenthesis (text : Text) : ¬ Assigned (')' :: text) := by
  intro assigned
  obtain ⟨value, trimmed, _⟩ := assigned
  rw [trimLeft_of_solid (by decide)] at trimmed
  cases trimmed

theorem not_ended_parenthesis (text : Text) : ¬ Ended (')' :: text) := by
  intro ended
  cases ended with
  | inl closed =>
      obtain ⟨left, closed⟩ := closed
      rw [trimLeft_of_solid (by decide)] at closed
      cases closed
  | inr written =>
      obtain ⟨gap, modified, left, blank, nonempty, split, _⟩ := written
      obtain ⟨c, gap, rfl⟩ := List.exists_cons_of_ne_nil nonempty
      obtain rfl : ')' = c := (List.cons.inj split).1
      exact absurd (blank ')' (by simp)) (by decide)

theorem not_mem_of_blank {text : Text} (blank : Blank text) : '$' ∉ text := fun member =>
  absurd (blank '$' member) (by decide)

theorem ending_after {middle : Text} (rest : Text)
    (shape : Blank middle ∨
      ∃ gap space, Blank gap ∧ Blank space ∧ middle = gap ++ (important ++ space)) :
    '$' ∉ middle ∧ (∀ c ∈ (middle ++ ';' :: rest).head?, isNamePart c = false) ∧
      ¬ Assigned (middle ++ ';' :: rest) := by
  have split : '$' ∉ middle ∧ ∃ gap mark left, Blank gap ∧ (mark = ';' ∨ mark = '!') ∧
      middle ++ ';' :: rest = gap ++ mark :: left := by
    cases shape with
    | inl blank => exact ⟨not_mem_of_blank blank, middle, ';', rest, blank, .inl rfl, rfl⟩
    | inr written =>
        obtain ⟨gap, space, gapBlank, spaceBlank, rfl⟩ := written
        obtain ⟨letters, spelled⟩ := important_eq
        refine ⟨?_, gap, '!', letters ++ (space ++ ';' :: rest), gapBlank, .inr rfl, ?_⟩
        · have free : '$' ∉ important := by decide
          simp [not_mem_of_blank gapBlank, not_mem_of_blank spaceBlank, free]
        · simp [spelled]
  obtain ⟨free, gap, mark, left, blank, marked, whole⟩ := split
  have solid : isBlank mark = false ∧ isNamePart mark = false ∧ mark ≠ ':' := by
    cases marked with
    | inl same => rw [same]; decide +kernel
    | inr same => rw [same]; decide +kernel
  refine ⟨free, ?_, ?_⟩
  · rw [whole]
    cases gap with
    | nil => exact Text.head?_cons_fails solid.2.1 left
    | cons b gap =>
        exact Text.head?_cons_fails (not_isNamePart_of_isBlank (blank b (by simp))) _
  · intro assigned
    obtain ⟨value, trimmed, _⟩ := assigned
    rw [whole, Text.trimLeft_append blank, trimLeft_of_solid solid.1] at trimmed
    exact solid.2.2 (List.cons.inj trimmed).1

theorem free_source {source rest : Text} {use : Use}
    (found : use? (source ++ rest) = some (use, rest)) : Free Assigned source rest := by
  obtain ⟨middle, named, shape, ended, rfl⟩ := use?_source found
  obtain ⟨free, outside, unassigned⟩ := ending_after rest shape
  have inside : ∀ c ∈ '$' :: use.name, isNamePart c = true :=
    List.forall_mem_cons.mpr ⟨isNamePart_dollar, named⟩
  have whole : use.ending ++ rest = middle ++ ';' :: rest := by simp [ended]
  rw [free_append, whole]
  exact ⟨free_name inside outside unassigned, free_of_not_mem (by simp [ended, free]) rest⟩

theorem free_render {source rest : Text} {use : Use}
    (found : use? (source ++ rest) = some (use, rest)) (unmet : ∀ text, ¬ after (')' :: text))
    (rest' : Text) : Free after use.render rest' := by
  obtain ⟨middle, named, shape, ended, _⟩ := use?_source found
  obtain ⟨free, _⟩ := ending_after rest shape
  have outside : isNamePart ')' = false := by decide +kernel
  have closed := Text.head?_cons_fails outside (use.ending ++ rest')
  obtain ⟨opening, _, bare, written⟩ := use_render_eq use
  rw [written, free_append, free_append]
  refine ⟨free_of_not_mem bare _, free_name named closed (unmet _), ?_⟩
  exact free_of_not_mem (by simp [ended, free]) rest'

theorem free_uses (text : Text) : Free Ended (use?.replace Use.render text) [] := by
  refine Pattern.cut_induction rewrites_uses.proper (motive := fun text _ =>
    Free Ended (use?.replace Use.render text) []) (free_nil []) ?_ ?_ text
  · intro c rest missed ih
    rw [Pattern.replace_of_none missed, free_cons, List.append_nil]
    refine ⟨?_, ih⟩
    rw [← rewrites_uses.begins_iff stable_ended missed]
    exact rewrites_uses.not_begins.mp missed
  · intro source use rest covers found ih
    rw [Pattern.replace_of_some covers found, free_append]
    exact ⟨free_render found not_ended_parenthesis _, ih⟩

theorem free_replace_uses_iff (text : Text) :
    Free Assigned (use?.replace Use.render text) [] ↔ Free Assigned text [] := by
  refine Pattern.cut_induction rewrites_uses.proper (motive := fun text _ =>
    Free Assigned (use?.replace Use.render text) [] ↔ Free Assigned text []) Iff.rfl ?_ ?_ text
  · intro c rest missed ih
    rw [Pattern.replace_of_none missed, free_cons, free_cons, List.append_nil, List.append_nil, ih,
      rewrites_uses.begins_iff stable_assigned missed]
  · intro source use rest covers found ih
    rw [Pattern.replace_of_some covers found, free_append, free_append, ih, List.append_nil,
      List.append_nil]
    exact and_congr
      (iff_of_true (free_render found not_assigned_parenthesis _) (free_source found)) Iff.rfl

/-- No declaration begins inside another. -/
def Apart (text : Text) : Prop :=
  ∀ before source rest declaration, text = before ++ (source ++ rest) →
    declaration? (source ++ rest) = some (declaration, rest) →
    ∀ inner, inner <:+ source.tail → inner ≠ [] → declaration? (inner ++ rest) = none

theorem apart_of_none {c : Char} {rest : Text} (missed : declaration? (c :: rest) = none) :
    Apart (c :: rest) ↔ Apart rest := by
  constructor
  · intro apart before source left declaration split
    exact apart (c :: before) source left declaration (by rw [split]; rfl)
  · intro apart before source left declaration split found
    cases before with
    | nil =>
        have here : source ++ left = c :: rest := split.symm
        rw [here, missed] at found
        cases found
    | cons d before =>
        exact apart before source left declaration (List.cons.inj split).2 found

theorem apart_of_some {source rest : Text} {declaration : Declaration}
    (found : declaration? (source ++ rest) = some (declaration, rest)) :
    Apart (source ++ rest) ↔ Free Assigned source.tail rest ∧ Apart rest := by
  constructor
  · intro apart
    constructor
    · intro inner suffix nonempty
      exact rewrites_declarations.not_begins.mp
        (apart [] source rest declaration rfl found inner suffix nonempty)
    · intro before source' left declaration' split
      exact apart (source ++ before) source' left declaration' (by simp [split])
  · intro ⟨free, apart⟩ before source' left declaration' split found'
    cases List.append_eq_append_iff.mp split with
    | inl later =>
        obtain ⟨tail, _, behind⟩ := later
        exact apart tail source' left declaration' behind found'
    | inr within =>
        obtain ⟨tail, covered, here⟩ := within
        rw [here] at found'
        cases before with
        | nil =>
            have same : tail = source := covered.symm
            rw [same, found] at found'
            cases found'
            rw [same] at here
            rw [List.append_cancel_right here]
            intro inner suffix nonempty
            exact rewrites_declarations.not_begins.mpr (free inner suffix nonempty)
        | cons c before =>
            cases tail with
            | nil => exact apart [] source' left declaration' here.symm (by rwa [here])
            | cons d tail =>
                have inside : d :: tail <:+ source.tail := ⟨before, by rw [covered]; rfl⟩
                have unmet := free (d :: tail) inside (by simp)
                rw [rewrites_declarations.not_begins.mpr unmet] at found'
                cases found'

/-- The words of a declaration are kept, and so is what decides whether another begins in them. -/
theorem free_declaration_iff {source rest rest' : Text} {declaration : Declaration}
    (found : declaration? (source ++ rest) = some (declaration, rest))
    (recast : Recast rest rest') :
    Free Assigned declaration.render rest' ↔ Free Assigned source.tail rest := by
  obtain ⟨body, rfl, written⟩ := declaration?_source found
  have dashes : Free Assigned ['-', '-'] (body ++ [';'] ++ rest') :=
    free_of_not_mem (by decide) _
  have semicolon (left : Text) : Free Assigned [';'] left := free_of_not_mem (by decide) left
  have kept {rest rest' : Text} (recast : Recast rest rest')
      (free : Free Assigned body (';' :: rest)) : Free Assigned body (';' :: rest') := by
    intro start suffix nonempty
    have unmet := free start suffix nonempty
    obtain ⟨c, start, rfl⟩ := List.exists_cons_of_ne_nil nonempty
    by_cases dollar : c = '$'
    · subst dollar
      exact fun begins => unmet
        (((Parallel.before_semicolon recast start).begins_iff stable_assigned).mpr begins)
    · exact not_begins_of_ne dollar _
  have shape : declaration.render = ['-', '-'] ++ (body ++ [';']) := written
  rw [shape, free_append, List.tail_cons, free_append, free_append]
  simp only [List.append_assoc] at dashes ⊢
  constructor
  · intro ⟨_, free, _⟩
    exact ⟨kept recast.symm free, semicolon rest⟩
  · intro ⟨free, _⟩
    exact ⟨dashes, kept recast free, semicolon rest'⟩

theorem free_replace_declarations_iff (text : Text) :
    Free Assigned (declaration?.replace Declaration.render text) [] ↔ Apart text := by
  refine Pattern.cut_induction rewrites_declarations.proper (motive := fun text _ =>
    Free Assigned (declaration?.replace Declaration.render text) [] ↔ Apart text) ?_ ?_ ?_ text
  · refine iff_of_true (free_nil []) ?_
    intro before source rest declaration split found
    obtain ⟨_, rfl, _⟩ := declaration?_source found
    simp at split
  · intro c rest missed ih
    rw [Pattern.replace_of_none missed, free_cons, List.append_nil, ih, apart_of_none missed,
      ← rewrites_declarations.begins_iff stable_assigned missed]
    exact and_iff_right (rewrites_declarations.not_begins.mp missed)
  · intro source declaration rest covers found ih
    rw [Pattern.replace_of_some covers found, free_append, List.append_nil, ih,
      apart_of_some found, free_declaration_iff found (rewrites_declarations.recast rest)]

theorem length_replace_declarations (text : Text) :
    (declaration?.replace Declaration.render text).length =
      text.length + (declarations text).length := by
  refine Pattern.cut_induction rewrites_declarations.proper (motive := fun text _ =>
    (declaration?.replace Declaration.render text).length =
      text.length + (declarations text).length) rfl ?_ ?_ text
  · intro c rest missed ih
    rw [Pattern.replace_of_none missed, declarations_of_none missed, List.length_cons,
      List.length_cons, ih]
    omega
  · intro source declaration rest covers found ih
    obtain ⟨body, rfl, written⟩ := declaration?_source found
    rw [Pattern.replace_of_some covers found, declarations_of_some covers found, written,
      List.length_append, List.length_append, ih]
    simp only [List.length_cons]
    omega

theorem length_le_replace_uses (text : Text) :
    text.length ≤ (use?.replace Use.render text).length := by
  refine Pattern.cut_induction rewrites_uses.proper (motive := fun text _ =>
    text.length ≤ (use?.replace Use.render text).length) (Nat.le_refl 0) ?_ ?_ text
  · intro c rest missed ih
    rw [Pattern.replace_of_none missed, List.length_cons, List.length_cons]
    omega
  · intro source use rest covers found ih
    obtain ⟨_, _, _, _, rfl⟩ := use?_source found
    obtain ⟨opening, _, _, written⟩ := use_render_eq use
    rw [Pattern.replace_of_some covers found, written]
    simp only [List.length_append, List.length_cons]
    omega

theorem free_of_declarations_eq_nil {text : Text} (none : declarations text = []) :
    Free Assigned text [] := by
  revert none
  refine Pattern.cut_induction rewrites_declarations.proper (motive := fun text _ =>
    declarations text = [] → Free Assigned text []) (fun _ => free_nil []) ?_ ?_ text
  · intro c rest missed ih none
    rw [declarations_of_none missed] at none
    rw [free_cons, List.append_nil]
    exact ⟨rewrites_declarations.not_begins.mp missed, ih none⟩
  · intro source declaration rest covers found ih none
    rw [declarations_of_some covers found] at none
    cases none

theorem Rewrites.absent {α : Type} {pattern : Pattern α} {render : α → Text}
    (rewrites : Rewrites pattern render after) {text : Text} (free : Free after text []) :
    ∀ start, start <:+ text → pattern start = none := by
  intro start suffix
  rw [rewrites.not_begins]
  cases start with
  | nil =>
      intro begins
      obtain ⟨_, _, split, _⟩ := begins.split
      cases split
  | cons c start => simpa using free (c :: start) suffix (by simp)

theorem run_substitute_of_free {text : Text} (assigned : Free Assigned text [])
    (ended : Free Ended text []) (globals : Table Text) :
    (substitute text).run globals = (text, globals) := by
  have undeclared := rewrites_declarations.absent assigned
  have none : declarations text = [] := by
    rw [declarations, Pattern.cut_of_absent undeclared, List.filterMap_map]
    exact List.filterMap_eq_nil_iff.mpr fun _ _ => rfl
  rw [run_substitute, Pattern.replace_of_absent undeclared,
    Pattern.replace_of_absent (rewrites_uses.absent ended), none]
  rfl

/-- A second run leaves the text and the table as they are if and only if no declaration of the text
begins inside another. -/
theorem substitute_again_iff (text : Text) (globals : Table Text) :
    (substitute ((substitute text).run globals).1).run ((substitute text).run globals).2 =
      (substitute text).run globals ↔ Apart text := by
  rw [← free_replace_declarations_iff, ← free_replace_uses_iff]
  rw [run_substitute text globals]
  generalize written : use?.replace Use.render (declaration?.replace Declaration.render text) = out
  constructor
  · intro same
    apply free_of_declarations_eq_nil
    rw [run_substitute] at same
    have length := congrArg (fun ran => ran.1.length) same
    have declared := length_replace_declarations out
    have used := length_le_replace_uses (declaration?.replace Declaration.render out)
    simp only at length
    apply List.length_eq_zero_iff.mp
    omega
  · intro assigned
    have ended : Free Ended out [] := by
      rw [← written]
      exact free_uses _
    exact run_substitute_of_free assigned ended _

/-- A name with a `$` in it, and a value with a declaration in it. -/
theorem substitute_again_within :
    let name : Text := "$a$b: 1;"
    let value : Text := "$a: $b: 1;"
    ((substitute name).run Table.empty).1 = "--a$b: 1;".toList ∧
      ((substitute "--a$b: 1;").run ((substitute name).run Table.empty).2).1 =
        "--a--b: 1;".toList ∧
      ((substitute "--a$b: 1;").run ((substitute name).run Table.empty).2).2.entries =
        [("a$b".toList, "1".toList), ("b".toList, "1".toList)] ∧
      ((substitute value).run Table.empty).1 = "--a: $b: 1;".toList ∧
      ((substitute "--a: $b: 1;").run ((substitute value).run Table.empty).2).1 =
        "--a: --b: 1;".toList := by
  decide +kernel

end Flatsheet.Variable
