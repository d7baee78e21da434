import Flatsheet.Proofs.Substitution
import Flatsheet.Proofs.WrapperMixins

/-!
Parameters handed on. A mixin that includes another one hands its own parameters on as arguments, so
their names are put into the body first and bound afterwards. A name takes the place of a name, and
the body is cut at the same places again; so the two bindings are one, unless a name of the second
stood in the body before.
-/

namespace Flatsheet

namespace Binding

/-- A dollar and word characters, at least one. -/
def IsVariable (name : Text) : Prop :=
  ∃ word, word ≠ [] ∧ (∀ c ∈ word, isWord c = true) ∧ name = '$' :: word

/-- The names of the parameters are variables, all of them different. -/
structure Variables (parameters : List Parameter) : Prop where
  named : ∀ parameter ∈ parameters, IsVariable parameter.name
  distinct : (parameters.map Parameter.name).Nodup

namespace IsVariable

theorem isName_tail {name : Text} (named : IsVariable name) :
    ∃ word, Mixin.Name word ∧ name = '$' :: word := by
  obtain ⟨word, nonempty, inside, rfl⟩ := named
  refine ⟨word, ⟨nonempty, fun c member => ?_⟩, rfl⟩
  rw [isName, inside c member, Bool.true_or]

theorem isWord_last {word : Text} (named : IsVariable ('$' :: word)) :
    word.getLast?.any isWord = true := by
  obtain ⟨word', nonempty, inside, same⟩ := named
  obtain rfl : word = word' := (List.cons.inj same).2
  rw [List.getLast?_eq_getLast_of_ne_nil nonempty]
  exact inside _ (List.getLast_mem nonempty)

theorem isSpread_eq_false {parameter : Parameter} (named : IsVariable parameter.name) :
    parameter.isSpread = false := by
  rw [Bool.eq_false_iff]
  intro spread
  obtain ⟨front, split⟩ := Text.endsWith_iff.mp spread
  obtain ⟨word, _, inside, shape⟩ := named
  have dot : '.' ∈ '$' :: word := by
    rw [← shape, split]
    exact List.mem_append_right _ (by decide)
  have word_dot := inside '.' (by simpa using dot)
  revert word_dot
  decide +kernel

theorem placeholder_eq {parameter : Parameter} (named : IsVariable parameter.name) :
    parameter.placeholder = parameter.name := by
  rw [Parameter.placeholder, named.isSpread_eq_false]
  rfl

end IsVariable

theorem entries_extend {binding : Binding} {previous : Text} {parameters : List Parameter}
    {arguments : List Text} (listed : Variables parameters)
    (new : ∀ parameter ∈ parameters, binding.get? parameter.name = none)
    (paired : arguments.length = parameters.length)
    (given : ∀ argument ∈ arguments, argument ≠ []) :
    (extend binding previous parameters arguments).entries =
      binding.entries ++ (parameters.map Parameter.name).zip arguments := by
  induction parameters generalizing binding previous arguments with
  | nil => simp [extend]
  | cons parameter parameters ih =>
      obtain ⟨argument, arguments, rfl⟩ := List.exists_cons_of_length_eq_add_one paired
      obtain ⟨here, later⟩ := List.forall_mem_cons.mp listed.named
      obtain ⟨apart, distinct⟩ := List.nodup_cons.mp listed.distinct
      have value : firstGiven argument parameter.default previous = argument :=
        if_pos (given argument (by simp))
      rw [extend]
      simp only [here.isSpread_eq_false, here.placeholder_eq, Bool.false_eq_true, if_false,
        List.headD_cons, List.tail_cons, value]
      rw [ih ⟨later, distinct⟩ ?_ (Nat.succ.inj paired) (List.forall_mem_cons.mp given).2,
        Table.insert_of_get?_eq_none (new parameter (by simp)), List.append_assoc]
      · rfl
      · intro other member
        rw [Table.get?_insert, if_neg, new other (by simp [member])]
        rintro same
        exact apart (same ▸ List.mem_map_of_mem member)

/-- Each of the names bound to the value at its place. -/
def pairing (names values : List Text) : Binding := ⟨names.zip values⟩

theorem ofArguments_eq_pairing {parameters : List Parameter} {arguments : List Text}
    (listed : Variables parameters) (paired : arguments.length = parameters.length)
    (given : ∀ argument ∈ arguments, argument ≠ []) :
    ofArguments parameters arguments = pairing (parameters.map Parameter.name) arguments :=
  congrArg Table.mk (entries_extend listed (fun _ _ => rfl) paired given)

theorem get?_pairing_cons (first value : Text) (names values : List Text) (name : Text) :
    (pairing (first :: names) (value :: values)).get? name =
      if first = name then some value else (pairing names values).get? name := by
  by_cases same : first = name <;> simp [pairing, Table.get?, same]

theorem get?_pairing_eq_none_iff {names values : List Text} (paired : names.length = values.length)
    {name : Text} : (pairing names values).get? name = none ↔ name ∉ names := by
  have listed : (pairing names values).names = names := List.map_fst_zip (Nat.le_of_eq paired)
  rw [← Option.not_isSome_iff_eq_none, ← Table.contains, Table.contains_iff, listed]

theorem mem_of_get?_pairing {names values : List Text} {name value : Text}
    (found : (pairing names values).get? name = some value) : name ∈ names ∧ value ∈ values :=
  List.of_mem_zip (Table.mem_of_get?_eq_some found)

/-- A name of the first pairing leads to a name of the second one, and through it to the value at
the same place. -/
theorem get?_pairing_of_get?_pairing {first second values : List Text} (distinct : second.Nodup)
    (paired : first.length = second.length) (valued : second.length = values.length)
    {name middle : Text} (found : (pairing first second).get? name = some middle) :
    ∃ value, (pairing second values).get? middle = some value ∧
      (pairing first values).get? name = some value := by
  induction first generalizing second values with
  | nil => cases found
  | cons own first ih =>
      obtain ⟨next, second, rfl⟩ := List.exists_cons_of_length_eq_add_one paired.symm
      obtain ⟨value, values, rfl⟩ := List.exists_cons_of_length_eq_add_one valued.symm
      obtain ⟨apart, distinct⟩ := List.nodup_cons.mp distinct
      rw [get?_pairing_cons] at found
      rw [get?_pairing_cons, get?_pairing_cons]
      by_cases here : own = name
      · rw [if_pos here] at found
        rw [if_pos here, if_pos (Option.some.inj found)]
        exact ⟨value, rfl, rfl⟩
      · rw [if_neg here] at found
        have other : next ≠ middle := fun same => apart (same ▸ (mem_of_get?_pairing found).2)
        rw [if_neg here, if_neg other]
        exact ih distinct (Nat.succ.inj paired) (Nat.succ.inj valued) found

/-- The part with its name changed. -/
def Lexeme.renamed (rename : Text → Text) : Lexeme → Lexeme
  | .name text => .name (rename text)
  | .char c => .char c

/-- The part as it stands in the body. -/
def Lexeme.text : Lexeme → Text
  | .name text => text
  | .char c => [c]

theorem filled_eq_text (value? : Text → Option Text) (lexeme : Lexeme) :
    lexeme.filled value? = (lexeme.renamed fun name => (value? name).getD name).text := by
  cases lexeme <;> rfl

/-- A name is kept, or gives way to a variable if it is one. -/
def Renames (rename : Text → Text) : Prop :=
  ∀ name, rename name = name ∨ IsVariable name ∧ IsVariable (rename name)

variable {rename : Text → Text}

/-- What a name becomes goes as far as names go, and ends in a word character if the name does. -/
theorem Renames.dollar (renames : Renames rename) {word : Text}
    (named : ∀ c ∈ word, isName c = true) :
    ∃ other, rename ('$' :: word) = '$' :: other ∧ (∀ c ∈ other, isName c = true) ∧
      other.getLast?.any isWord = word.getLast?.any isWord := by
  rcases renames ('$' :: word) with kept | ⟨before, after⟩
  · exact ⟨word, kept, named, rfl⟩
  · obtain ⟨other, inside, shape⟩ := after.isName_tail
    exact ⟨other, shape, inside.2, (shape ▸ after).isWord_last.trans before.isWord_last.symm⟩

theorem Renames.head?_text (renames : Renames rename) (afterWord : Bool) (text : Text) :
    ((lexemes afterWord text).flatMap fun lexeme => (lexeme.renamed rename).text).head? =
      text.head? := by
  cases text with
  | nil => rw [lexemes]; rfl
  | cons c text =>
      rw [lexemes]
      split
      next dollar =>
          have word : ∀ d ∈ text.takeWhile isName, isName d = true :=
            fun d member => List.mem_takeWhile_imp member
          obtain ⟨other, shape, _⟩ := renames.dollar word
          rw [dollar.1, List.flatMap_cons, Lexeme.renamed, shape]
          rfl
      · rfl

/-- A renamed body is cut where the body was cut. -/
theorem Renames.lexemes_text (renames : Renames rename) (afterWord : Bool) (text : Text) :
    lexemes afterWord
        ((lexemes afterWord text).flatMap fun lexeme => (lexeme.renamed rename).text) =
      (lexemes afterWord text).map (Lexeme.renamed rename) := by
  fun_induction lexemes afterWord text with
  | case1 afterWord => rw [List.flatMap_nil, lexemes]; rfl
  | case2 afterWord c text dollar ih =>
      obtain ⟨rfl, rfl⟩ := dollar
      have word : ∀ d ∈ text.takeWhile isName, isName d = true :=
        fun d member => List.mem_takeWhile_imp member
      obtain ⟨other, shape, named, last⟩ := renames.dollar word
      have first := renames.head?_text ((text.takeWhile isName).getLast?.any isWord)
        (text.dropWhile isName)
      rw [List.flatMap_cons, List.map_cons, ← ih]
      generalize List.flatMap (fun lexeme => (lexeme.renamed rename).text)
        (lexemes ((text.takeWhile isName).getLast?.any isWord) (text.dropWhile isName)) = rest
        at first ⊢
      have ended : ∀ d ∈ rest.head?, isName d = false := by
        rw [first]
        exact Text.head?_dropWhile_fails isName text
      obtain ⟨taken, left⟩ := Text.span_append named ended
      simp only [Lexeme.renamed, Lexeme.text, shape, List.cons_append]
      rw [lexemes, if_pos ⟨rfl, rfl⟩, taken, left, last]
  | case3 afterWord c text other ih =>
      rw [List.flatMap_cons, List.map_cons, ← ih]
      simp only [Lexeme.renamed, Lexeme.text, List.singleton_append]
      rw [lexemes, if_neg other]

/-- The names of a body stand in it. -/
theorem standsIn_of_mem_lexemes {front text name : Text}
    (member : .name name ∈ lexemes (front.getLast?.any isWord) text) :
    StandsIn name (front ++ text) := by
  generalize start : front.getLast?.any isWord = afterWord at member
  fun_induction lexemes afterWord text generalizing front with
  | case1 => cases member
  | case2 afterWord c text dollar ih =>
      obtain ⟨rfl, rfl⟩ := dollar
      rcases List.mem_cons.mp member with same | later
      · obtain rfl := Lexeme.name.inj same
        exact ⟨front, '$' :: text, rfl, (Option.any_eq_false _ _).mp start,
          (standsAt_dollar fun c inside => List.mem_takeWhile_imp inside).mpr rfl⟩
      · have ends : (front ++ '$' :: text.takeWhile isName).getLast?.any isWord =
            (text.takeWhile isName).getLast?.any isWord := by
          rw [← endsInWord_false, ← endsInWord_false]
          simp [endsInWord, isWord_dollar]
        have stands := ih ends later
        rwa [List.append_assoc, List.cons_append, List.takeWhile_append_dropWhile] at stands
  | case3 afterWord c text other ih =>
      have later : .name name ∈ lexemes (isWord c) text := by simpa using member
      have stands := @ih (front ++ [c]) (by simp) later
      rwa [List.append_assoc] at stands

theorem bindArguments_eq_flatMap {parameters : List Parameter} {arguments : List Text}
    (listed : Variables parameters) (paired : arguments.length = parameters.length)
    (given : ∀ argument ∈ arguments, argument ≠ []) (body : Text) :
    bindArguments body parameters arguments = (lexemes false body).flatMap
      (Lexeme.filled (pairing (parameters.map Parameter.name) arguments).get?) := by
  have named : ∀ parameter ∈ parameters, ∃ name,
      Mixin.Name name ∧ parameter.placeholder = '$' :: name := by
    intro parameter member
    rw [(listed.named parameter member).placeholder_eq]
    exact (listed.named parameter member).isName_tail
  rw [bindArguments, apply, (dollared_ofArguments named arguments).applyFrom_eq,
    ofArguments_eq_pairing listed paired given]

theorem flatMap_filled_of_renames {value? : Text → Option Text}
    (renames : Renames fun name => (value? name).getD name) (next? : Text → Option Text)
    (body : Text) :
    (lexemes false ((lexemes false body).flatMap (Lexeme.filled value?))).flatMap
        (Lexeme.filled next?) =
      (lexemes false body).flatMap fun lexeme =>
        (lexeme.renamed fun name => (value? name).getD name).filled next? := by
  rw [funext (filled_eq_text value?), renames.lexemes_text, List.flatMap_map]

theorem renames_pairing {names others : List Text} (named : ∀ name ∈ names, IsVariable name)
    (renamed : ∀ name ∈ others, IsVariable name) :
    Renames fun name => ((pairing names others).get? name).getD name := by
  intro name
  dsimp only
  cases found : (pairing names others).get? name with
  | none => exact .inl rfl
  | some other =>
      obtain ⟨own, theirs⟩ := mem_of_get?_pairing found
      exact .inr ⟨named name own, renamed other theirs⟩

/-- Binding the parameters of one mixin to those of another, and these to arguments, binds the
former to the arguments. Of the names that stand in the body, the second binding may know only those
that the first one replaces. -/
theorem bindArguments_handed_on {inner outer : List Parameter} (innerListed : Variables inner)
    (outerListed : Variables outer) {arguments : List Text} (handed : outer.length = inner.length)
    (paired : arguments.length = outer.length) (given : ∀ argument ∈ arguments, argument ≠ [])
    {body : Text}
    (uncaptured : ∀ name ∈ outer.map Parameter.name, StandsIn name body →
      name ∈ inner.map Parameter.name) :
    bindArguments (bindArguments body inner (outer.map Parameter.name)) outer arguments =
      bindArguments body inner arguments := by
  have innerNamed : ∀ name ∈ inner.map Parameter.name, IsVariable name := by
    simpa using innerListed.named
  have outerNamed : ∀ name ∈ outer.map Parameter.name, IsVariable name := by
    simpa using outerListed.named
  have written : ∀ name ∈ outer.map Parameter.name, name ≠ [] := by
    rintro _ member rfl
    obtain ⟨_, _, _, shape⟩ := outerNamed _ member
    cases shape
  have innerSize : (inner.map Parameter.name).length = (outer.map Parameter.name).length := by
    simp [handed]
  have outerSize : (outer.map Parameter.name).length = arguments.length := by simp [paired]
  rw [bindArguments_eq_flatMap outerListed paired given,
    bindArguments_eq_flatMap innerListed (by simp [handed]) written,
    bindArguments_eq_flatMap innerListed (paired.trans handed) given,
    flatMap_filled_of_renames (renames_pairing innerNamed outerNamed)]
  refine List.flatMap_congr fun lexeme member => ?_
  cases lexeme with
  | char c => rfl
  | name name =>
      simp only [Lexeme.renamed, Lexeme.filled]
      cases found : (pairing (inner.map Parameter.name) (outer.map Parameter.name)).get? name with
      | some other =>
          obtain ⟨value, later, direct⟩ :=
            get?_pairing_of_get?_pairing outerListed.distinct innerSize outerSize found
          rw [Option.getD_some, later, direct]
          rfl
      | none =>
          have free := (get?_pairing_eq_none_iff innerSize).mp found
          have unknown : name ∉ outer.map Parameter.name := fun known =>
            free (uncaptured name known (@standsIn_of_mem_lexemes [] body name member))
          rw [Option.getD_none, (get?_pairing_eq_none_iff outerSize).mpr unknown,
            (get?_pairing_eq_none_iff (innerSize.trans outerSize)).mpr free]

/-- Names that change places, one that stands after a word and one that goes on, and an argument
that is itself a name. -/
theorem bindArguments_handed_on_swapped :
    let inner : List Parameter := [⟨"$a", none⟩, ⟨"$b", some "2px"⟩, ⟨"$c", none⟩]
    let outer : List Parameter := [⟨"$b", none⟩, ⟨"$a", none⟩, ⟨"$d", some "red"⟩]
    let arguments : List Text := ["$b", "1px", "x, $a"]
    let body : Text := "$a $b-$a $a$b x$d $d-e -$c $b;"
    Variables inner ∧ Variables outer ∧ (∀ argument ∈ arguments, argument ≠ []) ∧
      (∀ name ∈ outer.map Parameter.name, Binding.StandsIn name body →
        name ∈ inner.map Parameter.name) ∧
      bindArguments (bindArguments body inner (outer.map Parameter.name)) outer arguments =
        "$b $b-$b $b$b x$d $d-e -x, $a 1px;".toList := by
  intro inner outer arguments body
  have single (letter : Char) (word : isWord letter = true) : IsVariable ['$', letter] :=
    ⟨[letter], by simp, by simpa using word, rfl⟩
  have innerListed : Variables inner := by
    refine ⟨List.forall_mem_cons.mpr ⟨single 'a' (by decide +kernel), List.forall_mem_cons.mpr
      ⟨single 'b' (by decide +kernel), List.forall_mem_singleton.mpr
        (single 'c' (by decide +kernel))⟩⟩, by decide +kernel⟩
  have outerListed : Variables outer := by
    refine ⟨List.forall_mem_cons.mpr ⟨single 'b' (by decide +kernel), List.forall_mem_cons.mpr
      ⟨single 'a' (by decide +kernel), List.forall_mem_singleton.mpr
        (single 'd' (by decide +kernel))⟩⟩, by decide +kernel⟩
  have given : ∀ argument ∈ arguments, argument ≠ [] := by decide +kernel
  have uncaptured : ∀ name ∈ outer.map Parameter.name, Binding.StandsIn name body →
      name ∈ inner.map Parameter.name := by decide +kernel
  refine ⟨innerListed, outerListed, given, uncaptured, ?_⟩
  rw [bindArguments_handed_on innerListed outerListed rfl rfl given uncaptured]
  decide +kernel

end Binding

end Flatsheet
