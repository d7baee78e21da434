import Flatsheet.Proofs.Binding
import Flatsheet.Proofs.Intact

/-!
Mixins, their binding and their expansion keep placeholders whole. Binding is the delicate part: a
name made of digits alone could be found inside a placeholder, between the marks. With no such name
bound, every name that is found ends where a placeholder may end.
-/

namespace Flatsheet

open Vault Pattern

variable {alone : Prop} {low high : Nat}

namespace Parameter

structure Intact (alone : Prop) (low high : Nat) (parameter : Parameter) : Prop where
  name : Vault.Intact alone low high parameter.name
  default : ∀ value ∈ parameter.default, Vault.Intact alone low high value

theorem Intact.grow {parameter : Parameter} {high' : Nat}
    (intact : parameter.Intact alone low high) (grown : high ≤ high') :
    parameter.Intact alone low high' :=
  ⟨intact.name.grow grown, fun value given => (intact.default value given).grow grown⟩

theorem ofText_intact {text : Text} (intact : Vault.Intact alone low high text) :
    (ofText text).Intact alone low high := by
  unfold ofText
  split
  next name split =>
      obtain ⟨rfl, _⟩ := Text.partition_eq_none split
      exact ⟨intact.trim, by simp⟩
  next name default split =>
      obtain ⟨rfl, _⟩ := Text.partition_eq_some split
      obtain ⟨before, after⟩ := intact.split_solid (by decide)
      refine ⟨before.trim, ?_⟩
      intro value given
      split at given
      · simp at given
      · obtain rfl : default.trim = value := by simpa using given
        exact after.trim

theorem listOfText_intact {text : Text} (intact : Vault.Intact alone low high text) :
    ∀ parameter ∈ listOfText text, parameter.Intact alone low high := by
  intro parameter member
  obtain ⟨item, inside, rfl⟩ := List.mem_map.mp member
  exact ofText_intact (intact.splitList item inside)

theorem Intact.placeholder_intact {parameter : Parameter}
    (intact : parameter.Intact alone low high) :
    Vault.Intact alone low high parameter.placeholder := by
  unfold placeholder
  split
  next spread =>
      obtain ⟨front, split⟩ := Text.endsWith_iff.mp spread
      have kept : parameter.name.take (parameter.name.length - spreadMark.length) = front := by
        rw [split, List.length_append, Nat.add_sub_cancel, List.take_left]
      have name := intact.name
      rw [split] at name
      rw [kept]
      exact (name.split_solid (by decide)).1
  · exact intact.name

end Parameter

namespace Mixin

structure Intact (alone : Prop) (low high : Nat) (mixin : Mixin) : Prop where
  parameters : ∀ parameter ∈ mixin.parameters, parameter.Intact alone low high
  body : Vault.Intact alone low high mixin.body

theorem Intact.grow {mixin : Mixin} {high' : Nat} (intact : mixin.Intact alone low high)
    (grown : high ≤ high') : mixin.Intact alone low high' :=
  ⟨fun parameter member => (intact.parameters parameter member).grow grown, intact.body.grow grown⟩

theorem Listed.intact {list : Option Text} {front written rest : Text}
    (listed : Listed list written)
    (whole : Vault.Intact alone low high (front ++ written ++ rest)) :
    Vault.Intact alone low high (list.getD []) := by
  rcases listed with ⟨rfl, _⟩ | ⟨gap, inside, rfl, _, _, rfl⟩
  · exact .nil
  · have parted : front ++ (gap ++ '(' :: (inside ++ [')'])) ++ rest =
        (front ++ gap) ++ '(' :: (inside ++ ')' :: rest) := by simp
    rw [parted] at whole
    exact ((whole.split_solid (by decide)).2.split_solid (by decide)).1

theorem definition?_whole : Whole definition? := by
  refine .of_ends fun text definition rest found => ?_
  obtain ⟨_, _, _, gap, inside, _, _, _, _, _, _, _, body, heading, rfl⟩ :=
    definition?_eq_some found
  have starts : Starts (definition.heading ++ inside) := by
    rw [heading]
    exact .of_solid (by decide)
  rcases Block.body_split body with rfl | ⟨rfl, rfl⟩
  · exact ⟨definition.heading ++ definition.mixin.body ++ ['}'], by simp, by simp, starts,
      .of_solid (by decide)⟩
  · exact ⟨definition.heading ++ definition.mixin.body, by simp [heading], by simp, starts,
      .inr (.inr (by simp))⟩

theorem definition?_intact {source rest : Text} {definition : Definition}
    (found : definition? (source ++ rest) = some (definition, rest))
    (covered : Vault.Intact alone low high (source ++ rest)) :
    definition.mixin.Intact alone low high := by
  obtain ⟨blanks, list, written, gap, inside, _, _, _, _, listed, _, parameters, body, heading,
    split⟩ := definition?_eq_some found
  rw [split, heading] at covered
  constructor
  · have listing : Vault.Intact alone low high ("@mixin".toList ++ blanks ++
        definition.mixin.name ++ written ++ (gap ++ ['{'] ++ inside)) := by
      simpa using covered
    rw [parameters]
    exact Parameter.listOfText_intact (listed.intact listing)
  · rw [List.append_assoc, List.singleton_append] at covered
    exact ((covered.split_solid (by decide)).2.body body).1

end Mixin

namespace Include

theorem include?_whole : Whole include? := by
  refine .of_ends fun text inclusion rest found => ?_
  obtain ⟨blanks, written, gap, after, _, _, _, _, ends, rfl⟩ := include?_eq_some found
  have starts (more : Text) : Starts ("@include".toList ++ blanks ++ inclusion.name ++ written ++
      gap ++ more) := .of_solid (by decide)
  generalize inclusion.content = block at ends
  cases ends with
  | semicolon rest =>
      exact ⟨"@include".toList ++ blanks ++ inclusion.name ++ written ++ gap ++ [';'], by simp,
        by simp, starts _, .of_solid (by decide)⟩
  | @block inside content rest body =>
      rcases Block.body_split body with rfl | ⟨rfl, rfl⟩
      · exact ⟨"@include".toList ++ blanks ++ inclusion.name ++ written ++ gap ++
          '{' :: content ++ ['}'], by simp, by simp, starts _, .of_solid (by decide)⟩
      · exact ⟨"@include".toList ++ blanks ++ inclusion.name ++ written ++ gap ++ '{' :: inside,
          by simp, by simp, starts _, .inr (.inr (by simp))⟩
  | brace rest =>
      refine ⟨"@include".toList ++ blanks ++ inclusion.name ++ written ++ gap, by simp, by simp,
        starts _, .inr (.inr ?_)⟩
      intro c head
      obtain rfl : '}' = c := by simpa using head
      decide

theorem include?_intact {source rest : Text} {inclusion : Include}
    (found : include? (source ++ rest) = some (inclusion, rest))
    (covered : Intact alone low high (source ++ rest)) :
    Intact alone low high (inclusion.arguments.getD []) ∧
      Intact alone low high (inclusion.content.getD []) := by
  obtain ⟨blanks, written, gap, after, _, _, listed, _, ends, split⟩ := include?_eq_some found
  rw [split] at covered
  constructor
  · have listing : Intact alone low high
        ("@include".toList ++ blanks ++ inclusion.name ++ written ++ (gap ++ after)) := by
      simpa using covered
    exact listed.intact listing
  · generalize inclusion.content = block at ends
    cases ends with
    | semicolon => exact .nil
    | brace => exact .nil
    | block body => exact ((covered.split_solid (by decide)).2.body body).1

theorem contentSlot?_whole : Whole contentSlot? := by
  refine .of_ends fun text value rest found => ?_
  obtain ⟨gap, ending, gapBlank, ended, rfl⟩ := contentSlot?_eq_some found
  have unmarked : Unmarked ("@content".toList ++ gap ++ ending) := by
    refine (Unmarked.append (by decide) (.of_blank gapBlank)).append ?_
    rcases ended with rfl | rfl <;> decide
  exact ⟨"@content".toList ++ gap ++ ending, by simp, rfl, .of_solid (by decide),
    .inl fun c member => (unmarked c member).1⟩

theorem argumentsOf_intact {globals : Table Text} {list : Option Text}
    (known : globals.All (Intact alone low high)) (intact : Intact alone low high (list.getD [])) :
    ∀ argument ∈ argumentsOf globals list, Intact alone low high argument := by
  intro argument member
  rcases mem_argumentsOf member with listed | ⟨entry, stored, listed⟩
  · exact intact.splitList argument listed
  · exact (known entry stored).splitList argument listed

end Include

/-- Digits alone, at least one. -/
def Text.Numeric (text : Text) : Prop := text ≠ [] ∧ ∀ c ∈ text, c.isDigit = true

instance (text : Text) : Decidable text.Numeric :=
  @instDecidableAnd _ _ inferInstance (List.decidableBAll _ text)

namespace Binding

/-- Names and values are intact, and no name could stand between the marks of a placeholder. -/
structure Sound (low high : Nat) (binding : Binding) : Prop where
  names : ∀ entry ∈ binding.entries, Intact False low high entry.1 ∧ ¬ entry.1.Numeric
  values : binding.All (Intact False low high)

/-- No bound name stands between the marks of a placeholder. -/
theorem Sound.nameAt?_ofNat {binding : Binding} (sound : binding.Sound low high) (number : Nat)
    (rest : Text) : binding.nameAt? (Text.ofNat number ++ closeMark :: rest) = none := by
  rw [Option.eq_none_iff_forall_ne_some]
  rintro ⟨name, value⟩ found
  obtain ⟨member, stands⟩ := nameAt?_eq_some found
  obtain ⟨intact, notNumeric⟩ := sound.names _ member
  obtain ⟨after, split, ended⟩ := split_of_standsAt stands
  have whole : name ≠ Text.ofNat number := by
    rintro rfl
    exact notNumeric ⟨Text.ofNat_ne_nil number, fun c => Text.isDigit_of_mem_ofNat⟩
  rcases List.append_eq_append_iff.mp split with ⟨excess, longer, left⟩ | ⟨excess, shorter, left⟩
  · cases excess with
    | nil => exact whole (by simpa using longer)
    | cons c excess =>
        obtain ⟨rfl, _⟩ : closeMark = c ∧ rest = excess ++ after := by simpa using left
        have unopened : ∀ c ∈ Text.ofNat number, c ≠ openMark := by
          rintro c inside rfl
          exact openMark_not_mem_ofNat number inside
        obtain rfl : name = _ := longer
        have alone := (intact.split_after unopened).2
        cases alone with
        | char _ closing _ => exact closing rfl
  · cases excess with
    | nil => exact whole (by simpa using shorter.symm)
    | cons c excess =>
        have digit : c.isDigit = true := Text.isDigit_of_mem_ofNat (by
          rw [shorter]
          simp)
        have := ended c (by simp [left])
        simp [isName, isWord_of_isDigit digit] at this

/-- After a word character no name stands, so a word and a closing mark after it are copied. -/
theorem applyFrom_word (binding : Binding) {word : Text} (rest : Text)
    (inside : ∀ c ∈ word, isWord c = true) :
    binding.applyFrom true 0 (word ++ closeMark :: rest) =
      word ++ closeMark :: binding.applyFrom false 0 rest := by
  induction word with
  | nil => simp [applyFrom, not_isWord_closeMark]
  | cons c word ih =>
      have first := inside c (by simp)
      simp [applyFrom, first, ih fun c member => inside c (by simp [member])]

theorem Sound.applyFrom_ofNat {binding : Binding} (sound : binding.Sound low high) (number : Nat)
    (rest : Text) :
    binding.applyFrom false 0 (Text.ofNat number ++ closeMark :: rest) =
      Text.ofNat number ++ closeMark :: binding.applyFrom false 0 rest := by
  have missed := sound.nameAt?_ofNat number rest
  have words : ∀ c ∈ Text.ofNat number, isWord c = true := fun c member =>
    isWord_of_isDigit (Text.isDigit_of_mem_ofNat member)
  obtain ⟨c, digits, split⟩ := List.exists_cons_of_ne_nil (Text.ofNat_ne_nil number)
  rw [split] at missed words ⊢
  rw [List.cons_append] at missed ⊢
  have later : ∀ c ∈ digits, isWord c = true := fun c member => words c (by simp [member])
  simp [applyFrom, missed, words c (by simp), applyFrom_word binding rest later]

/-- A character that is copied: the first of a placeholder takes the rest of it along. -/
theorem Sound.copied_intact {binding : Binding} (sound : binding.Sound low high) {c : Char}
    {text : Text} (intact : Intact False low high (c :: text))
    (shorter : ∀ rest, rest.length ≤ text.length → Intact False low high rest →
      ∀ afterWord, Intact False low high (binding.applyFrom afterWord 0 rest)) :
    Intact False low high (c :: binding.applyFrom (isWord c) 0 text) := by
  generalize whole : c :: text = all at intact
  cases intact with
  | nil => contradiction
  | char opening closing rest =>
      obtain ⟨rfl, rfl⟩ := List.cons.inj whole
      exact .char opening closing (shorter text (Nat.le_refl _) rest _)
  | @placeholder number left above below rest =>
      obtain ⟨rfl, rfl⟩ : c = openMark ∧ text = Text.ofNat number ++ closeMark :: left := by
        simpa [placeholder_eq] using whole
      have kept := shorter left (by simp; omega) rest false
      rw [not_isWord_openMark, sound.applyFrom_ofNat]
      simpa [placeholder_eq] using Intact.placeholder above below kept

theorem Sound.applyFrom_intact {binding : Binding} (sound : binding.Sound low high) {text : Text}
    (intact : Intact False low high text) (afterWord : Bool) :
    Intact False low high (binding.applyFrom afterWord 0 text) := by
  induction size : text.length using Nat.strongRecOn generalizing text afterWord with
  | ind length ih =>
      subst size
      cases text with
      | nil =>
          rw [applyFrom]
          split
          next name value found =>
              obtain ⟨_, found⟩ := Option.ite_none_left_eq_some.mp found
              exact sound.values _ (nameAt?_eq_some found).1
          · exact .nil
      | cons c text =>
          have copied := sound.copied_intact intact fun rest shorter intact afterWord =>
            ih rest.length (Nat.lt_succ_of_le shorter) intact afterWord rfl
          rw [applyFrom]
          split
          next value found =>
              obtain ⟨_, found⟩ := Option.ite_none_left_eq_some.mp found
              exact (sound.values _ (nameAt?_eq_some found).1).append copied
          next first name value found =>
              obtain ⟨_, found⟩ := Option.ite_none_left_eq_some.mp found
              obtain ⟨member, stands⟩ := nameAt?_eq_some found
              obtain ⟨rest, split, _⟩ := split_of_standsAt stands
              obtain ⟨rfl, rfl⟩ : c = first ∧ text = name ++ rest := by simpa using split
              have dropped := applyFrom_covered binding (isWord c) name rest
              rw [dropped]
              refine (sound.values _ member).append (ih rest.length ?_ ?_ _ rfl)
              · rw [List.length_cons, List.length_append]
                omega
              · exact (sound.names _ member).1.of_append_left (by simpa using intact)
          · exact copied

theorem Sound.ofArguments {parameters : List Parameter} {arguments : List Text}
    (bound : ∀ parameter ∈ parameters,
      parameter.Intact False low high ∧ ¬ parameter.placeholder.Numeric)
    (argued : ∀ argument ∈ arguments, Vault.Intact False low high argument) :
    (Binding.ofArguments parameters arguments).Sound low high := by
  have each (entry : Text × Text)
      (member : entry ∈ (Binding.ofArguments parameters arguments).entries) :=
    mem_ofArguments (.of_unmarked (by decide : Unmarked initialValue))
      (fun parameter listed => (bound parameter listed).1.default) argued
      (fun _ intact => .join (by decide) intact) member
  refine ⟨fun entry member => ?_, fun entry member => (each entry member).2⟩
  obtain ⟨⟨parameter, listed, name⟩, _⟩ := each entry member
  obtain ⟨intact, notNumeric⟩ := bound parameter listed
  rw [name]
  exact ⟨intact.placeholder_intact, notNumeric⟩

end Binding

theorem bindArguments_intact {body : Text} {parameters : List Parameter} {arguments : List Text}
    (intact : Intact False low high body)
    (bound : ∀ parameter ∈ parameters,
      parameter.Intact False low high ∧ ¬ parameter.placeholder.Numeric)
    (argued : ∀ argument ∈ arguments, Intact False low high argument) :
    Intact False low high (bindArguments body parameters arguments) :=
  (Binding.Sound.ofArguments bound argued).applyFrom_intact intact false

theorem Mixin.register_intact {mixins : Table Mixin} {notices : List Notice}
    {definition : Definition} (line : Nat) (known : mixins.All (Mixin.Intact alone low high))
    (intact : definition.mixin.Intact alone low high) :
    ((register line definition).run (mixins, notices)).2.1.All (Mixin.Intact alone low high) := by
  change Table.All _ (Prod.fst (if mixins.contains (key definition.mixin.name) then _ else _))
  split
  · exact known
  · exact known.insert intact

theorem Mixin.registerAll_intact {text : Text} {mixins : Table Mixin} {notices : List Notice}
    (known : mixins.All (Mixin.Intact alone low high)) (intact : Vault.Intact alone low high text) :
    Vault.Intact alone low high ((registerAll text).run (mixins, notices)).1 ∧
      ((registerAll text).run (mixins, notices)).2.1.All (Mixin.Intact alone low high) := by
  refine spliceM_run_invariant definition?_whole.proper
    (fun text (state : Table Mixin × List Notice) =>
      Vault.Intact alone low high text ∧ state.1.All (Mixin.Intact alone low high)) ?_
    ⟨intact, known⟩
  rintro line written source definition left _ found ⟨mixins, notices⟩ ⟨holds, known⟩
  obtain ⟨before, covered, after⟩ := definition?_whole.splits found holds
  exact ⟨before.append after,
    register_intact line known (definition?_intact found (covered.append after))⟩

/-- No mixin is removed or replaced. -/
theorem Mixin.registerAll_entries (text : Text) (mixins : Table Mixin) (notices : List Notice) :
    mixins.entries ⊆ ((registerAll text).run (mixins, notices)).2.1.entries := by
  refine spliceM_run_invariant definition?_whole.proper
    (fun _ (state : Table Mixin × List Notice) => mixins.entries ⊆ state.1.entries) ?_
    (List.Subset.refl _)
  rintro line written source definition left _ _ ⟨known, notices⟩ kept
  refine List.Subset.trans kept ?_
  change _ ⊆ Table.entries (Prod.fst (if known.contains (key definition.mixin.name) then _ else _))
  split
  · exact List.Subset.refl _
  next free =>
      have unknown : known.get? (key definition.mixin.name) = none := by
        simpa [Table.contains] using free
      change _ ⊆ (known.insert _ _).entries
      rw [Table.insert_of_get?_eq_none unknown]
      exact List.subset_append_left _ _

namespace Expansion

section Runs

variable {scope : Scope} {expandContent expandBody : Text → StateM State Text} {line : Option Int}
  {inclusion : Include} {state : State}

theorem run_expandInclude_of_guarded
    (guarded : state.guard.contains (Mixin.key inclusion.name) = true) :
    (expandInclude scope expandContent expandBody line inclusion).run state = ([], { state with
      notices := state.notices ++
        [⟨.endlessRecursion inclusion.name, line, some inclusion.heading⟩] }) := by
  simp only [expandInclude, guarded, StateT.run_bind, StateT.run_get, pure_bind]
  rfl

theorem run_expandInclude_of_unknown
    (free : state.guard.contains (Mixin.key inclusion.name) = false)
    (unknown : scope.mixins.get? (Mixin.key inclusion.name) = none) :
    (expandInclude scope expandContent expandBody line inclusion).run state = ([], { state with
      notices := state.notices ++
        [⟨.unknownMixin inclusion.name, line, some inclusion.heading⟩] }) := by
  simp only [expandInclude, free, unknown, StateT.run_bind, StateT.run_get, pure_bind]
  rfl

theorem run_expandInclude_of_known {mixin : Mixin}
    (free : state.guard.contains (Mixin.key inclusion.name) = false)
    (known : scope.mixins.get? (Mixin.key inclusion.name) = some mixin) :
    (expandInclude scope expandContent expandBody line inclusion).run state =
      let (content, outside) := (expandContent (inclusion.content.getD [])).run state
      let (body, inside) := (expandBody mixin.body).run
        { outside with guard := Mixin.key inclusion.name :: outside.guard }
      let arguments := Include.argumentsOf scope.globals inclusion.arguments
      (Include.contentSlot?.replace (fun _ => content)
          (bindArguments body mixin.parameters arguments),
        { inside with guard := inside.guard.erase (Mixin.key inclusion.name) }) := by
  simp only [expandInclude, free, known, StateT.run_bind, StateT.run_get, pure_bind]
  rfl

end Runs

/-- What expansion reads is intact, and no parameter could stand between the marks of a
placeholder. -/
structure Scope.Sound (low high : Nat) (scope : Scope) : Prop where
  mixins : scope.mixins.All (Mixin.Intact False low high)
  globals : scope.globals.All (Intact False low high)
  names : scope.mixins.All fun mixin =>
    ∀ parameter ∈ mixin.parameters, ¬ parameter.placeholder.Numeric

/-- The expansion of an intact text is intact, whatever the state. -/
def Keeps (low high : Nat) (expand : Text → StateM State Text) : Prop :=
  ∀ text state, Intact False low high text → Intact False low high ((expand text).run state).1

theorem expandInclude_intact {scope : Scope} {expandContent expandBody : Text → StateM State Text}
    {inclusion : Include} (sound : scope.Sound low high) (content : Keeps low high expandContent)
    (body : Keeps low high expandBody)
    (argued : Intact False low high (inclusion.arguments.getD []))
    (given : Intact False low high (inclusion.content.getD []))
    (line : Option Int) (state : State) :
    Intact False low high
      ((expandInclude scope expandContent expandBody line inclusion).run state).1 := by
  cases guarded : state.guard.contains (Mixin.key inclusion.name) with
  | true =>
      rw [run_expandInclude_of_guarded guarded]
      exact .nil
  | false =>
      cases found : scope.mixins.get? (Mixin.key inclusion.name) with
      | none =>
          rw [run_expandInclude_of_unknown guarded found]
          exact .nil
      | some mixin =>
          rw [run_expandInclude_of_known guarded found]
          refine Include.contentSlot?_whole.replace (fun _ _ _ _ _ => content _ _ given) ?_
          refine bindArguments_intact (body _ _ (sound.mixins.get? found).body) ?_
            (Include.argumentsOf_intact sound.globals argued)
          intro parameter member
          exact ⟨(sound.mixins.get? found).parameters parameter member,
            sound.names.get? found parameter member⟩

/-- Includes are replaced one by one, so what holds of one expansion holds of all. -/
theorem keeps_spliceM {scope : Scope} {expandContent expandBody : Text → StateM State Text}
    (sound : scope.Sound low high) (content : Keeps low high expandContent)
    (body : Keeps low high expandBody) (lineOf : Nat → Option Int) :
    Keeps low high (Include.include?.spliceM fun line inclusion =>
      expandInclude scope expandContent expandBody (lineOf line) inclusion) := by
  intro text state intact
  refine spliceM_run_invariant Include.include?_whole.proper
    (fun text (_ : State) => Intact False low high text) ?_ intact
  intro line written source inclusion left _ found state holds
  obtain ⟨before, covered, after⟩ := Include.include?_whole.splits found holds
  obtain ⟨argued, given⟩ := Include.include?_intact found (covered.append after)
  exact before.append ((expandInclude_intact sound content body argued given _ state).append after)

theorem keeps_expandNested {scope : Scope} {expandBody : Text → StateM State Text}
    (sound : scope.Sound low high) (body : Keeps low high expandBody) (depth : Nat) :
    Keeps low high (expandNested scope expandBody depth) := by
  induction depth with
  | zero =>
      intro text state intact
      exact intact
  | succ depth ih => exact keeps_spliceM sound ih body fun _ => none

theorem keeps_expandBody {scope : Scope} (sound : scope.Sound low high) (levels : Nat) :
    Keeps low high (expandBody scope levels) := by
  induction levels with
  | zero =>
      have unchanged : Keeps low high pure := fun _ _ intact => intact
      intro text state intact
      exact keeps_expandNested sound unchanged text.length text state intact
  | succ levels ih =>
      intro text state intact
      exact keeps_expandNested sound ih text.length text state intact

theorem keeps_expandAll {scope : Scope} (sound : scope.Sound low high) :
    Keeps low high (expandAll scope) := by
  have body := keeps_expandBody sound scope.mixins.size
  have content : Keeps low high (expandWithin scope) := fun text state intact =>
    keeps_expandNested sound body text.length text state intact
  exact keeps_spliceM sound content body fun line => some line

end Expansion

end Flatsheet
