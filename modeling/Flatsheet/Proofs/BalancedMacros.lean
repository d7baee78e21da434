import Flatsheet.Proofs.Expansion
import Flatsheet.Proofs.Headings
import Flatsheet.Proofs.IntactPasses

/-!
The macro passes keep braces balanced. Nested properties lose an opening and a closing brace that
need not belong together; a definition and a content block are cut out with their own braces; and
binding puts in texts without any. So no pass leaves a closing brace over, after which the sheet
would be cut off.
-/

namespace Flatsheet

universe u

open Text (Blank Unbraced SameDepth)

namespace Pattern

variable {α : Type u} {σ : Type} {pattern : Pattern α}

theorem replace_sameDepth (proper : pattern.Proper) {replacement : α → Text}
    (hit : ∀ source value rest, pattern (source ++ rest) = some (value, rest) →
      SameDepth (replacement value) source) (text : Text) :
    SameDepth (pattern.replace replacement text) text := by
  refine replace_invariant proper (SameDepth · text) ?_ (.refl text)
  intro written source value left found same
  have replaced := (hit source value left found).append (.refl left)
  exact ((SameDepth.refl written).append replaced).trans same

/-- A match is reached with some braces open, which the text from there on closes. -/
theorem spliceM_balanced (proper : pattern.Proper) {replace : Nat → α → StateM σ Text}
    (holds : σ → Prop) {text : Text} {state : σ}
    (hit : ∀ line value source rest depth state, .hit value source ∈ pattern.cut text →
      pattern (source ++ rest) = some (value, rest) →
      unclosed? '{' '}' depth (source ++ rest) = some 0 → holds state →
      source.Balanced ∧ ((replace line value).run state).1.Balanced ∧
        holds ((replace line value).run state).2)
    (balanced : text.Balanced) (start : holds state) :
    ((pattern.spliceM replace text).run state).1.Balanced ∧
      holds ((pattern.spliceM replace text).run state).2 := by
  refine spliceM_run_invariant proper (fun text state => text.Balanced ∧ holds state) ?_
    ⟨balanced, start⟩
  rintro line written source value left member found state ⟨balanced, kept⟩
  obtain ⟨depth, closes⟩ := balanced.closes
  obtain ⟨covered, replaced, next⟩ :=
    hit line value source left depth state member found closes kept
  exact ⟨replaced.insert_iff.mpr (covered.insert_iff.mp balanced), next⟩

end Pattern

open Pattern

theorem Declaration.flattenNested_sameDepth (text : Text) :
    SameDepth (flattenNested text) text := by
  refine replace_sameDepth nestedProperty?_whole.proper ?_ text
  intro source property rest found
  obtain ⟨gap, space, named, gapBlank, spaceBlank, unclosed, split⟩ := nestedProperty?_eq_some found
  have name : Unbraced property.name := .of_isName named
  have labelled : SameDepth (label?.replace
      (fun label => property.name ++ '-' :: label ++ [':']) property.body) property.body := by
    refine replace_sameDepth label?_whole.proper ?_ property.body
    intro source label rest found
    obtain ⟨gap, named, gapBlank, split⟩ := label?_eq_some found
    obtain rfl : source = label ++ gap ++ [':'] := by
      refine (List.append_left_inj rest).mp ?_
      simpa using split
    have free : Unbraced label := .of_isName named
    have colon : Unbraced [':'] := by decide
    have dashed : Unbraced (property.name ++ ['-']) := name.append (by decide)
    have given : Unbraced (property.name ++ '-' :: label ++ [':']) := by
      simpa using (dashed.append free).append colon
    have written : Unbraced (label ++ gap ++ [':']) :=
      (free.append (.of_blank gapBlank)).append colon
    exact .of_balanced given.balanced written.balanced
  have front : Unbraced (property.name ++ gap ++ [':'] ++ space) :=
    ((name.append (.of_blank gapBlank)).append (by decide)).append (.of_blank spaceBlank)
  obtain rfl : source = property.name ++ gap ++ [':'] ++ space ++
      '{' :: (property.body ++ ['}']) := by
    refine (List.append_left_inj rest).mp ?_
    simpa using split
  have braced := SameDepth.append (SameDepth.of_balanced front.balanced .nil) (.braced unclosed)
  exact fun depth => (labelled depth).trans (braced depth).symm

namespace Mixin

theorem Listed.unbraced {list : Option Text} {written : Text} (listed : Listed list written)
    (plain : ∀ inside ∈ list, Unbraced inside) : Unbraced written := by
  rcases listed with ⟨_, rfl⟩ | ⟨gap, inside, rfl, blank, _, rfl⟩
  · simp [Unbraced]
  · have parenthesis : Unbraced ['('] := by decide
    have closed : Unbraced (inside ++ [')']) := (plain inside rfl).append (by decide)
    exact (Unbraced.of_blank blank).append (parenthesis.append closed)

/-- No list of parameters holds a brace in the definitions that are cut out of the text. -/
def PlainLists (text : Text) : Prop :=
  ∀ piece ∈ definition?.cut text, ∀ found ∈ heading? "@mixin" piece.source,
    ∀ list ∈ found.1.2, Unbraced list

instance (text : Text) : Decidable (PlainLists text) := List.decidableBAll _ (definition?.cut text)

theorem definition?_balanced {source rest : Text} {definition : Definition} {depth : Nat}
    (found : definition? (source ++ rest) = some (definition, rest))
    (plain : ∀ found ∈ heading? "@mixin" source, ∀ list ∈ found.1.2, Unbraced list)
    (closes : unclosed? '{' '}' depth (source ++ rest) = some 0) :
    source.Balanced ∧ definition.mixin.body.Balanced := by
  obtain ⟨blanks, list, written, gap, inside, blank, spaced, named, nonempty, listed, gapBlank, _,
    body, heading, split⟩ := definition?_eq_some found
  let front := "@mixin".toList ++ blanks ++ definition.mixin.name ++ written
  have whole : source ++ rest = front ++ gap ++ '{' :: inside := by simp [split, heading, front]
  obtain ⟨more, covered⟩ : ∃ more, source = front ++ (gap ++ '{' :: more) := by
    rcases Block.body_split body with rfl | ⟨rfl, rfl⟩
    · refine ⟨definition.mixin.body ++ ['}'], (List.append_left_inj rest).mp ?_⟩
      simpa using whole
    · exact ⟨definition.mixin.body, by simpa using whole⟩
  have read := heading?_written "@mixin" blank spaced named nonempty listed
    (.pad gapBlank (.of_cons (.inr (.inl rfl)) more))
  rw [← covered] at read
  have keyword : Unbraced "@mixin".toList := by decide
  have free : Unbraced (front ++ gap) :=
    (((keyword.append (.of_blank blank)).append (.of_isName named)).append
      (listed.unbraced (plain _ read))).append (.of_blank gapBlank)
  exact Block.covered_balanced free body whole closes

theorem registerAll_balanced {text : Text} (plain : PlainLists text) (balanced : text.Balanced)
    (mixins : Table Mixin) (notices : List Notice) :
    ((registerAll text).run (mixins, notices)).1.Balanced ∧
      ∀ entry ∈ ((registerAll text).run (mixins, notices)).2.1.entries,
        entry ∈ mixins.entries ∨ entry.2.body.Balanced := by
  refine spliceM_balanced definition?_whole.proper
    (fun state : Table Mixin × List Notice => ∀ entry ∈ state.1.entries,
      entry ∈ mixins.entries ∨ entry.2.body.Balanced) ?_ balanced fun _ => .inl
  rintro line definition source rest depth ⟨known, notices⟩ member found closes kept
  obtain ⟨covered, body⟩ := definition?_balanced found (plain _ member) closes
  refine ⟨covered, .nil, ?_⟩
  change ∀ entry ∈ Table.entries
    (Prod.fst (if known.contains (key definition.mixin.name) then _ else _)), _
  split
  · exact kept
  · intro entry inside
    rcases Table.mem_insert inside with rfl | old
    · exact .inr body
    · exact kept entry old

end Mixin

namespace Binding

theorem applyFrom_sameDepth {binding : Binding}
    (plain : ∀ entry ∈ binding.entries, Unbraced entry.1 ∧ Unbraced entry.2) (text : Text)
    (afterWord : Bool) (skip : Nat) :
    SameDepth (binding.applyFrom afterWord skip text) (text.drop skip) := by
  have bound {afterWord : Bool} {start name value : Text}
      (found : (if afterWord then none else binding.nameAt? start) = some (name, value)) :
      SameDepth value name ∧ ∃ rest, start = name ++ rest := by
    obtain ⟨_, found⟩ := Option.ite_none_left_eq_some.mp found
    obtain ⟨member, stands⟩ := nameAt?_eq_some found
    obtain ⟨rest, split, _⟩ := split_of_standsAt stands
    obtain ⟨name, value⟩ := plain _ member
    exact ⟨.of_balanced value.balanced name.balanced, rest, split⟩
  induction text generalizing afterWord skip with
  | nil =>
      rw [applyFrom, List.drop_nil]
      split
      next name value found =>
          obtain ⟨same, rest, split⟩ := bound found
          obtain ⟨rfl, rfl⟩ := List.append_eq_nil_iff.mp split.symm
          exact same
      · exact .refl []
  | cons c text ih =>
      cases skip with
      | succ skip => exact ih (isWord c) skip
      | zero =>
          have copied := (SameDepth.refl [c]).append (ih (isWord c) 0)
          rw [applyFrom]
          split
          next value found => exact (bound found).1.append copied
          next first name value found =>
              obtain ⟨same, rest, split⟩ := bound found
              obtain ⟨rfl, rfl⟩ : c = first ∧ text = name ++ rest := by simpa using split
              have later := ih (isWord c) name.length
              rw [List.drop_left] at later
              exact same.append later
          · exact copied

theorem bindArguments_sameDepth {parameters : List Parameter} {arguments : List Text}
    (names : ∀ parameter ∈ parameters, Unbraced parameter.name)
    (defaults : ∀ parameter ∈ parameters, ∀ value ∈ parameter.default, Unbraced value)
    (argued : ∀ argument ∈ arguments, Unbraced argument) (body : Text) :
    SameDepth (bindArguments body parameters arguments) body := by
  refine applyFrom_sameDepth ?_ body false 0
  intro entry member
  have joined (values : List Text) (free : ∀ value ∈ values, Unbraced value) :
      Unbraced (Text.join ", " values) := by
    intro c inside
    rcases Text.mem_join inside with separates | ⟨value, listed, inside⟩
    · exact (by decide : Unbraced ", ".toList) c separates
    · exact free value listed c inside
  obtain ⟨⟨parameter, listed, name⟩, value⟩ :=
    mem_ofArguments (by decide : Unbraced initialValue) defaults argued joined member
  refine ⟨(names parameter listed).of_subset ?_, value⟩
  rw [name, Parameter.placeholder]
  split
  · exact List.take_subset _ _
  · exact List.Subset.refl _

end Binding

namespace Include

/-- No argument list holds a brace in the includes that stand in the text. -/
def PlainArguments (text : Text) : Prop :=
  ∀ inclusion : Include, inclusion.Stands text → ∀ list ∈ inclusion.arguments, Unbraced list

instance (text : Text) : Decidable (PlainArguments text) :=
  decidable_of_iff (∀ start ∈ text.tails, ∀ found ∈ include? start,
      ∀ list ∈ found.1.arguments, Unbraced list) <| by
    constructor
    · rintro all inclusion ⟨start, rest, suffix, found⟩
      exact all start ((List.mem_tails _ _).mpr suffix) (inclusion, rest) found
    · rintro plain start suffix ⟨inclusion, rest⟩ found
      exact plain inclusion ⟨start, rest, (List.mem_tails _ _).mp suffix, found⟩

theorem PlainArguments.of_isInfix {part text : Text} (plain : PlainArguments text)
    (inside : part <:+: text) : PlainArguments part := by
  intro inclusion stands list given
  obtain ⟨other, standing, _, arguments⟩ := stands.of_isInfix inside
  exact plain other standing list (arguments ▸ given)

theorem stands_of_mem_cut {text source : Text} {inclusion : Include}
    (member : .hit inclusion source ∈ include?.cut text) : inclusion.Stands text := by
  obtain ⟨before, rest, split, found⟩ := split_of_mem_cut include?_whole.proper member
  exact ⟨source ++ rest, rest, ⟨before, split.symm⟩, found⟩

theorem isInfix_content {text source : Text} {inclusion : Include}
    (member : .hit inclusion source ∈ include?.cut text) :
    inclusion.content.getD [] <:+: text := by
  obtain ⟨before, rest, rfl, found⟩ := split_of_mem_cut include?_whole.proper member
  obtain ⟨blanks, written, gap, after, _, _, _, _, ends, shape⟩ := include?_eq_some found
  have inside : inclusion.content.getD [] <:+: after := by
    generalize inclusion.content = block at ends
    cases ends with
    | semicolon => exact List.nil_infix
    | brace => exact List.nil_infix
    | @block inside content rest body =>
        rcases Block.body_split body with rfl | ⟨rfl, rfl⟩
        · exact ⟨['{'], '}' :: rest, by simp⟩
        · exact ⟨['{'], [], by simp⟩
  rw [shape]
  exact inside.trans ⟨before ++ ("@include".toList ++ blanks ++ inclusion.name ++ written ++ gap),
    [], by simp⟩

theorem include?_balanced {source rest : Text} {inclusion : Include} {depth : Nat}
    (found : include? (source ++ rest) = some (inclusion, rest))
    (plain : ∀ list ∈ inclusion.arguments, Unbraced list)
    (closes : unclosed? '{' '}' depth (source ++ rest) = some 0) :
    source.Balanced ∧ (inclusion.content.getD []).Balanced := by
  obtain ⟨blanks, written, gap, after, blank, named, listed, gapBlank, ends, shape⟩ :=
    include?_eq_some found
  have keyword : Unbraced "@include".toList := by decide
  have free : Unbraced ("@include".toList ++ blanks ++ inclusion.name ++ written ++ gap) :=
    (((keyword.append (.of_blank blank)).append (.of_isName named)).append
      (listed.unbraced plain)).append (.of_blank gapBlank)
  generalize "@include".toList ++ blanks ++ inclusion.name ++ written ++ gap = front at free shape
  generalize inclusion.content = block at ends
  cases ends with
  | semicolon rest =>
      obtain rfl : source = front ++ [';'] := by
        refine (List.append_left_inj rest).mp ?_
        simpa using shape
      exact ⟨(free.append (by decide)).balanced, .nil⟩
  | block body => exact Block.covered_balanced free body shape closes
  | brace rest =>
      obtain rfl : source = front := List.append_cancel_right shape
      exact ⟨free.balanced, .nil⟩

theorem contentSlot?_sameDepth {content : Text} (balanced : content.Balanced) (text : Text) :
    SameDepth (contentSlot?.replace (fun _ => content) text) text := by
  refine replace_sameDepth contentSlot?_whole.proper ?_ text
  intro source _ rest found
  obtain ⟨gap, ending, gapBlank, ended, split⟩ := contentSlot?_eq_some found
  obtain rfl : source = "@content".toList ++ gap ++ ending := List.append_cancel_right split
  have keyword : Unbraced "@content".toList := by decide
  have last : Unbraced ending := by rcases ended with rfl | rfl <;> decide
  exact .of_balanced balanced ((keyword.append (.of_blank gapBlank)).append last).balanced

end Include

namespace Expansion

open Include

/-- Bodies are balanced, and no brace stands in what is bound or in the argument lists of bodies. -/
structure Scope.Balanced (scope : Scope) : Prop where
  bodies : scope.mixins.All fun mixin => mixin.body.Balanced
  names : scope.mixins.All fun mixin => ∀ parameter ∈ mixin.parameters, Unbraced parameter.name
  defaults : scope.mixins.All fun mixin =>
    ∀ parameter ∈ mixin.parameters, ∀ value ∈ parameter.default, Unbraced value
  globals : scope.globals.All Unbraced
  arguments : scope.mixins.All fun mixin => PlainArguments mixin.body

variable {scope : Scope}

theorem expandInclude_balanced {inclusion : Include} {state : State} {guard : List Text}
    (sound : scope.Balanced) (plain : ∀ list ∈ inclusion.arguments, Unbraced list)
    (same : state.guard = guard)
    (contents : ∀ mixin, Mixin.key inclusion.name ∉ guard →
      scope.mixins.get? (Mixin.key inclusion.name) = some mixin → ∀ notices,
        ((expandWithin scope (inclusion.content.getD [])).run ⟨guard, notices⟩).1.Balanced)
    (bodies : ∀ mixin, Mixin.key inclusion.name ∉ guard →
      scope.mixins.get? (Mixin.key inclusion.name) = some mixin → ∀ notices,
        ((expandWithin scope mixin.body).run
          ⟨Mixin.key inclusion.name :: guard, notices⟩).1.Balanced)
    (line : Option Int) :
    ((expandInclude scope (expandWithin scope) (expandWithin scope) line
      inclusion).run state).1.Balanced := by
  refine expandInclude_induction same .nil contents bodies ?_ line
  intro mixin content body known given expanded
  have listed : Unbraced (inclusion.arguments.getD []) := by
    cases arguments : inclusion.arguments with
    | none => simp [Unbraced]
    | some list => exact plain list arguments
  have argued : ∀ argument ∈ argumentsOf scope.globals inclusion.arguments, Unbraced argument := by
    intro argument member
    rcases mem_argumentsOf member with item | ⟨entry, stored, item⟩
    · exact listed.of_subset fun _ => Text.mem_of_mem_splitList item
    · exact (sound.globals entry stored).of_subset fun _ => Text.mem_of_mem_splitList item
  have bound := Binding.bindArguments_sameDepth (sound.names.get? known)
    (sound.defaults.get? known) argued body
  exact ((contentSlot?_sameDepth given _).trans bound).balanced_iff.mpr expanded

/-- Contents are balanced because their text is, bodies because the scope is. -/
theorem expandWithin_balanced (sound : scope.Balanced) (task : Task)
    (plain : PlainArguments task.text) (balanced : task.text.Balanced) (notices : List Notice) :
    ((expandWithin scope task.text).run ⟨task.guard, notices⟩).1.Balanced := by
  induction task using (wellFounded_calls scope).induction generalizing notices with
  | _ task ih =>
      rw [run_expandWithin]
      refine (spliceM_balanced include?_whole.proper
        (fun next : State => next.guard = task.guard) ?_ balanced rfl).1
      intro line inclusion source rest depth state member found closes same
      have arguments := plain inclusion (stands_of_mem_cut member)
      obtain ⟨covered, content⟩ := include?_balanced found arguments closes
      refine ⟨covered, expandInclude_balanced sound arguments same ?_ ?_ none,
        by rw [restores_expandInclude restores_expandWithin restores_expandWithin, same]⟩
      · intro mixin free known notices
        exact ih _ (.content member free known) (plain.of_isInfix (isInfix_content member)) content
          notices
      · intro mixin free known notices
        exact ih _ (.body member free known) (sound.arguments.get? known)
          (sound.bodies.get? known) notices

theorem expandAll_balanced {text : Text} (sound : scope.Balanced) (plain : PlainArguments text)
    (balanced : text.Balanced) (state : State) :
    ((expandAll scope text).run state).1.Balanced := by
  rw [run_expandAll]
  refine (spliceM_balanced include?_whole.proper
    (fun next : State => next.guard = state.guard) ?_ balanced rfl).1
  intro line inclusion source rest depth next member found closes same
  have arguments := plain inclusion (stands_of_mem_cut member)
  obtain ⟨covered, content⟩ := include?_balanced found arguments closes
  refine ⟨covered, expandInclude_balanced sound arguments same ?_ ?_ (some line),
    by rw [restores_expandInclude restores_expandWithin restores_expandWithin, same]⟩
  · intro mixin _ _ notices
    exact expandWithin_balanced sound ⟨_, state.guard⟩ (plain.of_isInfix (isInfix_content member))
      content notices
  · intro mixin _ known notices
    exact expandWithin_balanced sound ⟨_, Mixin.key inclusion.name :: state.guard⟩
      (sound.arguments.get? known) (sound.bodies.get? known) notices

end Expansion

/-- Each macro pass makes a balanced text of a balanced text: the flattening of nested properties
always; registration if no list of parameters holds a brace, and then the bodies that it files are
balanced, too; expansion if the bodies of the mixins are balanced and nothing that is bound holds a
brace. -/
theorem macroPasses_balanced {text : Text} (balanced : text.Balanced) :
    (Declaration.flattenNested text).Balanced ∧
    (Mixin.PlainLists text → ∀ mixins notices,
      ((Mixin.registerAll text).run (mixins, notices)).1.Balanced ∧
      ∀ entry ∈ ((Mixin.registerAll text).run (mixins, notices)).2.1.entries,
        entry ∈ mixins.entries ∨ entry.2.body.Balanced) ∧
    (∀ scope : Expansion.Scope, scope.Balanced → Include.PlainArguments text → ∀ state,
      ((Expansion.expandAll scope text).run state).1.Balanced) := by
  refine ⟨(Declaration.flattenNested_sameDepth text).balanced_iff.mpr balanced, ?_, ?_⟩
  · intro plain mixins notices
    exact Mixin.registerAll_balanced plain balanced mixins notices
  · intro scope sound plain state
    exact Expansion.expandAll_balanced sound plain balanced state

/-- A nested property whose first closing brace ends a block inside it, a definition that has been
met before, and an include with arguments and a content block. -/
theorem macroPasses_balanced_nested :
    let text : Text := ("font: \x7b a: b; c \x7b d: e; \x7d \x7d @mixin m($p) \x7b x: $p; \x7d " ++
      "a \x7b @include m(1px, $q...) \x7b b \x7b x: y; \x7d \x7d @include m \x7d").toList
    let mixins : Table Mixin := Table.ofList [("m".toList,
      ⟨"m", [⟨"$p", some "2px"⟩, ⟨"$q...", none⟩], " c \x7b x: $p; @content; \x7d y: $q; "⟩)]
    let scope : Expansion.Scope := ⟨mixins, Table.ofList [("q".toList, "3px, 4px")]⟩
    text.Balanced ∧ Mixin.PlainLists text ∧ scope.Balanced ∧ Include.PlainArguments text ∧
      (Declaration.flattenNested text).Balanced ∧
      ((Mixin.registerAll text).run (mixins, [])).1.Balanced ∧
      ((Expansion.expandAll scope text).run ⟨[], []⟩).1.Balanced := by
  intro text mixins scope
  have balanced : text.Balanced := by decide +kernel
  have lists : Mixin.PlainLists text := by decide +kernel
  have arguments : Include.PlainArguments text := by decide +kernel
  have sound : scope.Balanced :=
    ⟨by decide +kernel, by decide +kernel, by decide +kernel, by decide +kernel, by decide +kernel⟩
  obtain ⟨flattened, registered, expanded⟩ := macroPasses_balanced balanced
  exact ⟨balanced, lists, sound, arguments, flattened, (registered lists mixins []).1,
    expanded scope sound arguments ⟨[], []⟩⟩

end Flatsheet
