import Flatsheet.Proofs.FinishedIncludes
import Flatsheet.Proofs.Headings

/-!
A mixin that does nothing but include another one. Its parameters are bound after the body has been
expanded, so they capture the variables of the mixin inside, and content slots are filled once more.
The wrapper gives what the mixin inside gives wherever neither happens.
-/

namespace Flatsheet

universe u

namespace Pattern

variable {α : Type u} {σ : Type} {pattern : Pattern α} {replace : Nat → α → StateM σ Text}

theorem run_spliceM_whole {source : Text} {value : α} (covers : source ≠ [])
    (found : pattern source = some (value, [])) (state : σ) :
    (pattern.spliceM replace source).run state = (replace 1 value).run state := by
  have cut : pattern.cut (source ++ []) = .hit value source :: pattern.cut [] :=
    cut_of_some covers (by simpa using found)
  rw [List.append_nil] at cut
  rcases ran : (replace 1 value).run state with ⟨replacement, next⟩
  rw [spliceM, cut, run_splicePieces_hit ran]
  change (replacement ++ [], next) = (replacement, next)
  rw [List.append_nil]

theorem run_spliceM_of_absent {text : Text}
    (absent : ∀ start, start <:+ text → pattern start = none) (state : σ) :
    (pattern.spliceM replace text).run state = (text, state) := by
  have chars := @run_splicePieces_chars _ _ replace 1 text [] state
  rw [List.append_nil] at chars
  rw [spliceM, cut_of_absent absent, chars]
  exact Prod.ext (List.append_nil text) rfl

end Pattern

namespace Binding

/-- The name stands in the text, not directly after a word character, and does not go on. -/
def StandsIn (name text : Text) : Prop :=
  ∃ before start, text = before ++ start ∧ (∀ c ∈ before.getLast?, isWord c = false) ∧
    standsAt start name = true

instance (name text : Text) : Decidable (StandsIn name text) :=
  decidable_of_iff (∃ before ∈ text.inits, before.getLast?.any isWord = false ∧
      standsAt (text.drop before.length) name = true) <| by
    constructor
    · rintro ⟨before, inside, apart, stands⟩
      obtain ⟨start, rfl⟩ := (List.mem_inits _ _).mp inside
      rw [List.drop_left] at stands
      exact ⟨before, start, rfl, (Option.any_eq_false _ _).mp apart, stands⟩
    · rintro ⟨before, start, rfl, apart, stands⟩
      exact ⟨before, (List.mem_inits _ _).mpr (List.prefix_append _ _),
        (Option.any_eq_false _ _).mpr apart, by rwa [List.drop_left]⟩

variable {binding : Binding}

theorem nameAt?_of_not_standsIn {front text : Text}
    (absent : ∀ entry ∈ binding.entries, ¬ StandsIn entry.1 (front ++ text)) :
    (if front.getLast?.any isWord then none else binding.nameAt? text) = none := by
  rw [Option.eq_none_iff_forall_ne_some]
  intro entry found
  obtain ⟨apart, found⟩ := Option.ite_none_left_eq_some.mp found
  obtain ⟨member, stands⟩ := nameAt?_eq_some found
  refine absent entry member ⟨front, text, rfl, fun c last => ?_, stands⟩
  rw [Option.mem_def.mp last] at apart
  simpa using apart

theorem applyFrom_of_not_standsIn {front text : Text}
    (absent : ∀ entry ∈ binding.entries, ¬ StandsIn entry.1 (front ++ text)) :
    binding.applyFrom (front.getLast?.any isWord) 0 text = text := by
  induction text generalizing front with
  | nil => rw [applyFrom, nameAt?_of_not_standsIn absent]
  | cons c text ih =>
      have later := @ih (front ++ [c]) (by simpa using absent)
      rw [List.getLast?_concat, Option.any_some] at later
      rw [applyFrom, nameAt?_of_not_standsIn absent]
      exact congrArg (c :: ·) later

theorem apply_of_not_standsIn {text : Text}
    (absent : ∀ entry ∈ binding.entries, ¬ StandsIn entry.1 text) : binding.apply text = text :=
  @applyFrom_of_not_standsIn binding [] text absent

end Binding

namespace Include

open Mixin (Name Listed)

/-- An include that a semicolon ends, with a list or without. -/
def statement (name : Text) (list : Option Text) : Text :=
  "@include ".toList ++ name ++ (list.map fun inside => '(' :: (inside ++ [')'])).getD [] ++ [';']

theorem statement_ne_nil (name : Text) (list : Option Text) : statement name list ≠ [] :=
  List.append_ne_nil_of_right_ne_nil _ (by simp)

theorem include?_statement {name : Text} {list : Option Text} (named : Name name)
    (closed : ∀ inside ∈ list, ')' ∉ inside) :
    include? (statement name list) = some (⟨name, list, none⟩, []) := by
  have listed : Listed list ((list.map fun inside => '(' :: (inside ++ [')'])).getD []) := by
    cases list with
    | none => exact .inl ⟨rfl, rfl⟩
    | some inside => exact .inr ⟨[], inside, rfl, by simp [Text.Blank], closed inside rfl, rfl⟩
  have written : statement name list = "@include".toList ++ [' '] ++ name ++
      (list.map fun inside => '(' :: (inside ++ [')'])).getD [] ++ ([] ++ [';']) := rfl
  rw [written]
  exact include?_written .space (by simp) named.2 named.1 listed .nil (.semicolon [])

theorem contentSlot?_of_not_infix {text start : Text} (absent : ¬ "@content".toList <:+: text)
    (suffix : start <:+ text) : contentSlot? start = none := by
  rw [Option.eq_none_iff_forall_ne_some]
  rintro ⟨value, rest⟩ found
  obtain ⟨gap, ending, _, _, rfl⟩ := contentSlot?_eq_some found
  exact absent (List.IsInfix.trans ⟨[], gap ++ ending ++ rest, by simp⟩ suffix.isInfix)

end Include

namespace Expansion

open Pattern Include

variable {scope : Scope}

theorem run_expandWithin_of_absent {text : Text} (absent : Absent text) (state : State) :
    (expandWithin scope text).run state = (text, state) := by
  rw [run_expandWithin]
  exact run_spliceM_of_absent absent state

/-- An include without content, in terms of what the body of its mixin becomes. -/
theorem run_expandInclude_statement {name body : Text} {list : Option Text} {mixin : Mixin}
    {guard : List Text} {notices : List Notice} (free : Mixin.key name ∉ guard)
    (known : scope.mixins.get? (Mixin.key name) = some mixin)
    (inner : (expandWithin scope mixin.body).run ⟨Mixin.key name :: guard, notices⟩ =
      (body, ⟨Mixin.key name :: guard, notices⟩)) (line : Option Int) :
    (expandInclude scope (expandWithin scope) (expandWithin scope) line
        ⟨name, list, none⟩).run ⟨guard, notices⟩ =
      (contentSlot?.erase (bindArguments body mixin.parameters (argumentsOf scope.globals list)),
        ⟨guard, notices⟩) := by
  have content := @run_expandWithin_of_absent scope [] (by decide) ⟨guard, notices⟩
  rw [run_expandInclude_of_runs free known content inner]
  dsimp only
  rw [List.erase_cons_head]
  rfl

theorem run_expandWithin_statement {name body : Text} {list : Option Text} {mixin : Mixin}
    {guard : List Text} {notices : List Notice} (named : Mixin.Name name)
    (closed : ∀ inside ∈ list, ')' ∉ inside) (free : Mixin.key name ∉ guard)
    (known : scope.mixins.get? (Mixin.key name) = some mixin)
    (inner : (expandWithin scope mixin.body).run ⟨Mixin.key name :: guard, notices⟩ =
      (body, ⟨Mixin.key name :: guard, notices⟩)) :
    (expandWithin scope (statement name list)).run ⟨guard, notices⟩ =
      (contentSlot?.erase (bindArguments body mixin.parameters (argumentsOf scope.globals list)),
        ⟨guard, notices⟩) := by
  rw [run_expandWithin, expandRound,
    run_spliceM_whole (statement_ne_nil name list) (include?_statement named closed)]
  exact run_expandInclude_statement free known inner none

theorem run_expandAll_statement {name body : Text} {list : Option Text} {mixin : Mixin}
    {guard : List Text} {notices : List Notice} (named : Mixin.Name name)
    (closed : ∀ inside ∈ list, ')' ∉ inside) (free : Mixin.key name ∉ guard)
    (known : scope.mixins.get? (Mixin.key name) = some mixin)
    (inner : (expandWithin scope mixin.body).run ⟨Mixin.key name :: guard, notices⟩ =
      (body, ⟨Mixin.key name :: guard, notices⟩)) :
    (expandAll scope (statement name list)).run ⟨guard, notices⟩ =
      (contentSlot?.erase (bindArguments body mixin.parameters (argumentsOf scope.globals list)),
        ⟨guard, notices⟩) := by
  rw [run_expandAll,
    run_spliceM_whole (statement_ne_nil name list) (include?_statement named closed)]
  exact run_expandInclude_statement free known inner _

/-- The first mixin does nothing but include the second, which has no parameters and includes
nothing itself. -/
structure Wraps (scope : Scope) (outerName innerName : Text) (outer inner : Mixin) : Prop where
  outerNamed : Mixin.Name outerName
  innerNamed : Mixin.Name innerName
  outerKnown : scope.mixins.get? (Mixin.key outerName) = some outer
  innerKnown : scope.mixins.get? (Mixin.key innerName) = some inner
  outerBody : outer.body = statement innerName none
  innerBody : Absent inner.body
  innerParameters : inner.parameters = []

namespace Wraps

variable {outerName innerName : Text} {outer inner : Mixin}

theorem key_ne (wraps : Wraps scope outerName innerName outer inner) :
    Mixin.key innerName ≠ Mixin.key outerName := by
  intro same
  have equal : outer = inner := by
    have known := wraps.innerKnown
    rw [same, wraps.outerKnown] at known
    exact Option.some.inj known
  have absent := wraps.innerBody _ List.suffix_rfl
  rw [← equal, wraps.outerBody, include?_statement wraps.innerNamed (by simp)] at absent
  cases absent

theorem bindArguments_inner (wraps : Wraps scope outerName innerName outer inner) (body : Text)
    (arguments : List Text) : bindArguments body inner.parameters arguments = body := by
  rw [wraps.innerParameters]
  exact Binding.apply_of_not_standsIn (by simp [Binding.ofArguments, Binding.extend, Table.empty])

theorem run_inner (wraps : Wraps scope outerName innerName outer inner) (notices : List Notice) :
    (expandAll scope (statement innerName none)).run ⟨[], notices⟩ =
      (contentSlot?.erase inner.body, ⟨[], notices⟩) := by
  rw [run_expandAll_statement wraps.innerNamed (by simp) (by simp) wraps.innerKnown
    (run_expandWithin_of_absent wraps.innerBody _), wraps.bindArguments_inner]

theorem run_outer (wraps : Wraps scope outerName innerName outer inner) {list : Option Text}
    (closed : ∀ inside ∈ list, ')' ∉ inside) (notices : List Notice) :
    (expandAll scope (statement outerName list)).run ⟨[], notices⟩ =
      (contentSlot?.erase (bindArguments (contentSlot?.erase inner.body) outer.parameters
        (argumentsOf scope.globals list)), ⟨[], notices⟩) := by
  refine run_expandAll_statement wraps.outerNamed closed (by simp) wraps.outerKnown ?_
  rw [wraps.outerBody, run_expandWithin_statement wraps.innerNamed (by simp)
    (by simpa using wraps.key_ne) wraps.innerKnown (run_expandWithin_of_absent wraps.innerBody _),
    wraps.bindArguments_inner]

/-- The parameters of a wrapper are bound in what the mixin inside gives, and content slots are
removed from it. So the wrapper gives the same as the mixin inside if none of its parameters stands
there, and no content slot. -/
theorem expandAll_wrapper (wraps : Wraps scope outerName innerName outer inner)
    {list : Option Text} (closed : ∀ inside ∈ list, ')' ∉ inside) (notices : List Notice) :
    let direct := ((expandAll scope (statement innerName none)).run ⟨[], notices⟩).1
    let wrapped := ((expandAll scope (statement outerName list)).run ⟨[], notices⟩).1
    wrapped = contentSlot?.erase
        (bindArguments direct outer.parameters (argumentsOf scope.globals list)) ∧
      ((∀ parameter ∈ outer.parameters, ¬ Binding.StandsIn parameter.placeholder direct) →
        ¬ "@content".toList <:+: direct → wrapped = direct) := by
  intro direct wrapped
  have wrote : wrapped = contentSlot?.erase
      (bindArguments direct outer.parameters (argumentsOf scope.globals list)) := by
    simp only [wrapped, direct, wraps.run_inner, wraps.run_outer closed]
  refine ⟨wrote, fun uncaptured unfilled => ?_⟩
  have bound : bindArguments direct outer.parameters (argumentsOf scope.globals list) = direct := by
    refine Binding.apply_of_not_standsIn fun entry member => ?_
    obtain ⟨⟨parameter, listed, name⟩, _⟩ := @Binding.mem_ofArguments (fun _ => True) _ _ entry
      trivial (by simp) (by simp) (by simp) member
    rw [name]
    exact uncaptured parameter listed
  rw [wrote, bound]
  exact replace_of_absent (fun _ => contentSlot?_of_not_infix unfilled) _

/-- The name of the parameter goes on in one place and comes after a word in the other, and the
content slot is gone by the time the wrapper looks for one. -/
theorem expandAll_wrapper_apart :
    let outer : Mixin := ⟨"outer", [⟨"$c", some "1px"⟩], "@include inner;"⟩
    let inner : Mixin := ⟨"inner", [], "w: $cc a$c; @content;"⟩
    let scope : Scope := ⟨Table.ofList [("outer".toList, outer), ("inner".toList, inner)],
      Table.empty⟩
    let direct := ((expandAll scope (statement "inner" none)).run ⟨[], []⟩).1
    Wraps scope "outer" "inner" outer inner ∧
      (∀ parameter ∈ outer.parameters, ¬ Binding.StandsIn parameter.placeholder direct) ∧
      ¬ "@content".toList <:+: direct ∧
      ((expandAll scope (statement "outer" (some "red"))).run ⟨[], []⟩).1 = direct := by
  intro outer inner scope direct
  have wraps : Wraps scope "outer" "inner" outer inner :=
    ⟨by decide +kernel, by decide +kernel, by decide +kernel, by decide +kernel, rfl,
      by decide +kernel, rfl⟩
  have uncaptured : ∀ parameter ∈ outer.parameters,
      ¬ Binding.StandsIn parameter.placeholder direct := by decide +kernel
  have unfilled : ¬ "@content".toList <:+: direct := by decide +kernel
  have same := (expandAll_wrapper wraps (by decide : ∀ inside ∈ some "red".toList, ')' ∉ inside)
    []).2 uncaptured unfilled
  exact ⟨wraps, uncaptured, unfilled, same⟩

/-- A parameter that captures a variable of the mixin inside, and a content slot that comes about
when another one is removed. -/
theorem expandAll_wrapper_captures :
    let outer (parameters : List Parameter) : Mixin := ⟨"outer", parameters, "@include inner;"⟩
    let inner (body : Text) : Mixin := ⟨"inner", [], body⟩
    let scope (parameters : List Parameter) (body : Text) : Scope :=
      ⟨Table.ofList [("outer".toList, outer parameters), ("inner".toList, inner body)], Table.empty⟩
    let expand (scope : Scope) (text : Text) := ((expandAll scope text).run ⟨[], []⟩).1
    let capturing := scope [⟨"$c", none⟩] "color: $c;"
    let refilling := scope [] "@con@content;tent;"
    (Wraps capturing "outer" "inner" (outer [⟨"$c", none⟩]) (inner "color: $c;") ∧
      expand capturing (statement "inner" none) = "color: $c;" ∧
      expand capturing (statement "outer" (some "red")) = "color: red;") ∧
    (Wraps refilling "outer" "inner" (outer []) (inner "@con@content;tent;") ∧
      expand refilling (statement "inner" none) = "@content;" ∧
      expand refilling (statement "outer" none) = "") := by
  intro outer inner scope expand capturing refilling
  have captures : Wraps capturing "outer" "inner" (outer [⟨"$c", none⟩]) (inner "color: $c;") :=
    ⟨by decide +kernel, by decide +kernel, by decide +kernel, by decide +kernel, rfl,
      by decide +kernel, rfl⟩
  have refills : Wraps refilling "outer" "inner" (outer []) (inner "@con@content;tent;") :=
    ⟨by decide +kernel, by decide +kernel, by decide +kernel, by decide +kernel, rfl,
      by decide +kernel, rfl⟩
  exact ⟨⟨captures, by decide +kernel⟩, refills, by decide +kernel⟩

end Wraps

end Expansion

end Flatsheet
