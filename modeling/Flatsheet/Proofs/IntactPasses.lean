import Flatsheet.Proofs.Intact
import Flatsheet.Proofs.Table

/-!
The passes over newlines, literals, comments, declarations and variables keep placeholders whole.
-/

namespace Flatsheet

open Std.Do Vault Pattern

variable {alone : Prop} {low high : Nat}

theorem Vault.unmarked_of_isName {name : Text} (inside : ∀ c ∈ name, isName c = true) :
    Unmarked name := fun c member => ne_marks_of_isName (inside c member)

theorem Text.unifyNewlines_cons {c : Char} (text : Text) (other : c ≠ '\r') :
    unifyNewlines (c :: text) = c :: unifyNewlines text := by
  rw [unifyNewlines, if_neg other]
  rintro text rfl
  exact absurd rfl other

theorem Text.unifyNewlines_append {front : Text} (rest : Text) (absent : '\r' ∉ front) :
    unifyNewlines (front ++ rest) = front ++ unifyNewlines rest := by
  induction front with
  | nil => rfl
  | cons c front ih =>
      obtain ⟨other, later⟩ : '\r' ≠ c ∧ '\r' ∉ front := by simpa using absent
      rw [List.cons_append, unifyNewlines_cons _ other.symm, ih later]
      rfl

theorem Text.unifyNewlines_return (text : Text) :
    unifyNewlines ('\r' :: text) = unifyNewlines text ∨
      unifyNewlines ('\r' :: text) = '\n' :: unifyNewlines text := by
  rw [unifyNewlines.eq_def]
  split
  · contradiction
  next text same =>
      obtain ⟨_, rfl⟩ := List.cons.inj same
      exact .inl (unifyNewlines_cons text (by decide)).symm
  next c rest _ same =>
      obtain ⟨rfl, rfl⟩ := List.cons.inj same
      exact .inr rfl

theorem Text.unifyNewlines_intact {text : Text} (intact : Intact alone low high text) :
    Intact alone low high text.unifyNewlines := by
  induction intact with
  | nil => exact .nil
  | @char c text opening closing _ ih =>
      by_cases returns : c = '\r'
      · subst returns
        rcases unifyNewlines_return text with same | same
        · rwa [same]
        · rw [same]
          exact .of_solid (by decide) ih
      · rw [unifyNewlines_cons text returns]
        exact .char opening closing ih
  | @placeholder number text above below _ ih =>
      have absent : '\r' ∉ Vault.placeholder number := fun member =>
        not_solid_of_mem_placeholder member (by decide)
      rw [unifyNewlines_append text absent]
      exact .placeholder above below ih

namespace Vault

theorem literal?_whole : Whole literal? := by
  refine .of_ends fun text value rest found => ?_
  obtain ⟨quote, inside, listed, rfl, _⟩ := literal?_eq_some found
  have solid : Solid quote := by rcases List.mem_pair.mp listed with rfl | rfl <;> decide
  exact ⟨quote :: inside ++ [quote], by simp, by simp, .of_solid solid, .of_solid solid⟩

/-- Literals are lifted out of a text that may hold placeholders already. -/
theorem protect_intact {vault : Vault} {text : Text} (start : low ≤ vault.size)
    (intact : Intact alone low vault.size text) :
    Intact alone low (vault.protect text).2.size (vault.protect text).1 := by
  suffices lifted : low ≤ (vault.protect text).2.size ∧
      Intact alone low (vault.protect text).2.size (vault.protect text).1 from lifted.2
  refine replaceM_run_invariant literal?_whole.proper
    (fun text (vault : Vault) => low ≤ vault.size ∧ Intact alone low vault.size text) ?_
    ⟨start, intact⟩
  rintro line written source value left found vault ⟨start, holds⟩
  obtain ⟨before, _, after⟩ := literal?_whole.splits found holds
  have next : (vault.store source).2.size = vault.size + 1 := by simp [store, size]
  have grown : vault.size ≤ (vault.store source).2.size := by omega
  have stored : Intact alone low (vault.store source).2.size (vault.store source).1 := by
    have numbered : (vault.store source).1 = placeholder (vault.size + 1 : Nat) ++ [] := by
      simp [store]
    rw [next, numbered]
    exact .placeholder (Nat.lt_succ_of_le start) (Nat.le_refl _) .nil
  exact ⟨start.trans grown, (before.grow grown).append (stored.append (after.grow grown))⟩

end Vault

namespace Comment

theorem block?_whole : Whole block? := by
  refine .of_ends fun text value rest found => ?_
  obtain ⟨inside, rfl⟩ := block?_eq_some found
  refine ⟨"/*".toList ++ inside ++ "*/".toList, by simp, rfl, .of_solid (by decide), ?_⟩
  have closed : "/*".toList ++ inside ++ "*/".toList =
      ("/*".toList ++ inside ++ ['*']) ++ ['/'] := by
    simp
  rw [closed]
  exact .of_solid (by decide)

theorem nestedBlock?_whole : Whole nestedBlock? := by
  refine .of_ends fun text value rest found => ?_
  obtain ⟨⟨inside, opened⟩, closed⟩ := nestedBlock?_eq_some found
  have starts : Starts text := by
    rw [opened]
    exact .of_solid (by decide)
  rcases closed with rfl | ⟨before, split⟩
  · exact ⟨text, by simp [opened], by simp, starts, .inr (.inr (by simp))⟩
  · refine ⟨before ++ "*/".toList, by simp, split, starts, ?_⟩
    rw [show before ++ "*/".toList = before ++ ['*'] ++ ['/'] by simp]
    exact .of_solid (by decide)

theorem line?_whole : Whole line? := by
  refine .of_ends fun text value rest found => ?_
  obtain ⟨inside, rfl, ended⟩ := line?_eq_some found
  refine ⟨"//".toList ++ inside, by simp, rfl, .of_solid (by decide), .inr (.inr ?_)⟩
  intro c head
  rw [ended c head]
  decide

theorem strip_intact {text : Text} (nested : Bool) (intact : Intact alone low high text) :
    Intact alone low high (strip nested text) := by
  refine line?_whole.erase ?_
  split
  · exact nestedBlock?_whole.erase intact
  · exact block?_whole.erase intact

end Comment

namespace Declaration

theorem unended?_whole : Whole unended? := by
  refine .of_ends fun text declaration rest found => ?_
  obtain ⟨pair, stops, rfl⟩ := unended?_eq_some found
  obtain ⟨name, gap, space, value, nonempty, inside, gapBlank, _, _, _, rfl⟩ := pair
  obtain ⟨spaces, c, left, blank, ends, rfl⟩ := stops
  have named : Unmarked (name ++ gap) :=
    Unmarked.append (fun c member => ne_marks_of_isWord (inside c member)) (.of_blank gapBlank)
  refine ⟨name ++ (gap ++ ':' :: (space ++ value)), by simp, rfl, ?_, .inr (.inr ?_)⟩
  · have shape : name ++ (gap ++ ':' :: (space ++ value)) ++ (spaces ++ c :: left) =
        name ++ gap ++ ':' :: (space ++ value ++ (spaces ++ c :: left)) := by
      simp
    rw [shape]
    exact .of_unmarked named (by decide)
  · intro first head
    cases spaces with
    | nil =>
        obtain rfl : c = first := by simpa using head
        rcases ends with rfl | rfl <;> decide
    | cons space spaces =>
        obtain rfl : space = first := by simpa using head
        rw [blank space (by simp)]
        decide

/-- The repair succeeds, because what it reports can be restored. -/
theorem endAll_intact {vault : Vault} {text : Text} (notices : List Notice)
    (intact : Intact alone low vault.size text) :
    ∃ result reported, (endAll vault text).run.run notices = (.ok result, reported) ∧
      Intact alone low vault.size result := by
  refine replaceM_ok_invariant unended?_whole.proper
    (fun text _ => Intact alone low vault.size text) ?_ intact
  intro line written source declaration left found notices holds
  obtain ⟨before, covered, after⟩ := unended?_whole.splits found holds
  obtain ⟨_, _, same⟩ := unended?_eq_some found
  obtain rfl := List.append_cancel_right same
  obtain ⟨restored, ok⟩ := restore_of_intact covered
  refine ⟨source ++ [';'],
    notices ++ [⟨.missingSemicolon restored, some line, some source⟩], ?_, ?_⟩
  · simp only [ok]
    rfl
  · exact before.append ((covered.append (.of_unmarked (by decide))).append after)

theorem nestedProperty?_whole : Whole nestedProperty? := by
  refine .of_ends fun text property rest found => ?_
  obtain ⟨gap, space, named, gapBlank, spaceBlank, _, rfl⟩ := nestedProperty?_eq_some found
  refine ⟨property.name ++ gap ++ ':' :: (space ++ '{' :: property.body) ++ ['}'], by simp, by simp,
    .of_unmarked ?_ (by decide), .of_solid (by decide)⟩
  exact (unmarked_of_isName named).append (.of_blank gapBlank)

theorem label?_whole : Whole label? := by
  refine .of_ends fun text name rest found => ?_
  obtain ⟨gap, named, gapBlank, rfl⟩ := label?_eq_some found
  refine ⟨name ++ gap ++ [':'], by simp, by simp, .of_unmarked ?_ (by decide),
    .of_solid (by decide)⟩
  exact (unmarked_of_isName named).append (.of_blank gapBlank)

theorem flattenNested_intact {text : Text} (intact : Intact alone low high text) :
    Intact alone low high (flattenNested text) := by
  refine nestedProperty?_whole.replace ?_ intact
  intro source property rest found covered
  obtain ⟨gap, space, named, gapBlank, spaceBlank, _, shape⟩ := nestedProperty?_eq_some found
  have source_eq : source =
      property.name ++ gap ++ ':' :: space ++ '{' :: (property.body ++ ['}']) :=
    List.append_cancel_right (shape.trans (by simp))
  rw [source_eq] at covered
  have body : Intact alone low high property.body :=
    ((covered.split_solid (by decide)).2.split_solid (by decide)).1
  refine label?_whole.replace ?_ body
  intro source label rest found _
  obtain ⟨_, labelled, _, _⟩ := label?_eq_some found
  have written : Unmarked (property.name ++ '-' :: label ++ [':']) :=
    ((unmarked_of_isName named).append
      (.append (by decide : Unmarked ['-']) (unmarked_of_isName labelled))).append (by decide)
  exact .of_unmarked written

end Declaration

namespace Variable

theorem unmarked_of_isNamePart {name : Text} (inside : ∀ c ∈ name, isNamePart c = true) :
    Unmarked name := by
  intro c member
  have part := inside c member
  rw [isNamePart, Bool.or_eq_true, beq_iff_eq] at part
  rcases part with named | rfl
  · exact ne_marks_of_isName named
  · decide

theorem declaration?_whole : Whole declaration? := by
  refine .of_ends fun text declaration rest found => ?_
  obtain ⟨_, _, _, _, _, _, rfl⟩ := declaration?_eq_some found
  exact ⟨'$' :: (declaration.name ++ declaration.separator ++ declaration.value) ++ [';'], by simp,
    by simp, .of_solid (by decide), .of_solid (by decide)⟩

theorem use?_whole : Whole use? := by
  refine .of_ends fun text use rest found => ?_
  obtain ⟨middle, _, _, ended, rfl⟩ := use?_eq_some found
  refine ⟨'$' :: (use.name ++ middle) ++ [';'], by simp, by simp [ended], .of_solid (by decide),
    .of_solid (by decide)⟩

theorem Use.render_unmarked {source rest : Text} {use : Use}
    (found : use? (source ++ rest) = some (use, rest)) : Unmarked use.render := by
  obtain ⟨middle, named, shape, ended, _⟩ := use?_eq_some found
  have between : Unmarked middle := by
    rcases shape with blank | ⟨gap, space, gapBlank, spaceBlank, rfl⟩
    · exact .of_blank blank
    · exact (Unmarked.append (.of_blank gapBlank) (by decide)).append (.of_blank spaceBlank)
  unfold Use.render
  rw [ended]
  exact Unmarked.append (.append (by decide) (unmarked_of_isNamePart named))
    (.append (by decide : Unmarked [')']) (between.append (by decide)))

/-- The value of a declaration is intact, and so is what the declaration becomes. -/
theorem Declaration.intact {source rest : Text} {declaration : Declaration}
    (found : declaration? (source ++ rest) = some (declaration, rest))
    (covered : Intact alone low high source) :
    Intact alone low high declaration.value ∧ Intact alone low high declaration.render := by
  obtain ⟨gap, space, named, gapBlank, spaceBlank, separated, shape⟩ := declaration?_eq_some found
  have source_eq : source = '$' :: (declaration.name ++ declaration.separator) ++
      (declaration.value ++ [';']) := List.append_cancel_right (shape.trans (by simp))
  have separator : Unmarked declaration.separator := by
    rw [separated]
    exact Unmarked.append (.of_blank gapBlank)
      (.append (by decide : Unmarked [':']) (.of_blank spaceBlank))
  have front : Unmarked (declaration.name ++ declaration.separator) :=
    (unmarked_of_isNamePart named).append separator
  rw [source_eq] at covered
  have ended := (covered.split_after fun c member => by
    rcases List.mem_cons.mp member with rfl | inside
    · decide
    · exact (front c inside).1).2
  have value := (ended.split_solid (by decide)).1
  refine ⟨value, ?_⟩
  have start : Unmarked ("--".toList ++ declaration.name ++ declaration.separator) := by
    rw [List.append_assoc]
    exact .append (by decide) front
  exact ((Intact.of_unmarked start).append value).append (.of_unmarked (by decide))

theorem declare_intact {globals : Table Text} {declaration : Declaration}
    (intact : globals.All (Intact alone low high))
    (value : Intact alone low high declaration.value) :
    (declare globals declaration).All (Intact alone low high) := by
  refine intact.insert ?_
  split
  next name _ =>
      cases found : globals.get? name with
      | none => exact value
      | some known => exact intact.get? found
  · exact value

theorem declareAll_intact {text : Text} {globals : Table Text}
    (known : globals.All (Intact alone low high)) (intact : Intact alone low high text) :
    Intact alone low high ((declareAll text).run globals).1 ∧
      ((declareAll text).run globals).2.All (Intact alone low high) := by
  refine replaceM_run_invariant declaration?_whole.proper
    (fun text (globals : Table Text) =>
      Intact alone low high text ∧ globals.All (Intact alone low high)) ?_ ⟨intact, known⟩
  rintro line written source declaration left found globals ⟨holds, known⟩
  obtain ⟨before, covered, after⟩ := declaration?_whole.splits found holds
  obtain ⟨value, rendered⟩ := Declaration.intact found covered
  exact ⟨before.append (rendered.append after), declare_intact known value⟩

theorem substitute_intact {text : Text} {globals : Table Text}
    (known : globals.All (Intact alone low high)) (intact : Intact alone low high text) :
    Intact alone low high ((substitute text).run globals).1 ∧
      ((substitute text).run globals).2.All (Intact alone low high) := by
  obtain ⟨declared, filed⟩ := declareAll_intact known intact
  refine ⟨use?_whole.replace (fun source use rest found _ => ?_) declared, filed⟩
  exact .of_unmarked (Use.render_unmarked found)

end Variable

end Flatsheet
