import Mathlib.Logic.Relation
import Mathlib.Order.Basic
import Flatsheet.Conversion.Context
import Flatsheet.Proofs.BalancedMacros

/-!
What expansion reports. An include is reported because its mixin is unknown, or because the mixin is
being expanded already. In the second case the mixin does include itself, directly or through the
bodies of others: whatever stands in a text that is being expanded is included by every mixin of the
guard, and that is so for content blocks, too, since they stand in the text around them. So nothing
is reported as recursion if the mixins can be ranked, however often a mixin is included.
-/

namespace Flatsheet

universe u

namespace Expansion

open Relation (TransGen)
open Pattern Include

variable {scope : Scope}

/-- An include of the second mixin stands in the body of the first. -/
def Includes (scope : Scope) (key name : Text) : Prop :=
  ∃ mixin, scope.mixins.get? key = some mixin ∧
    ∃ inclusion : Include, inclusion.Stands mixin.body ∧ Mixin.key inclusion.name = name

/-- Whatever a mixin includes has a lower rank. -/
def Ranked {α : Type u} [LT α] (rank : Text → α) (scope : Scope) : Prop :=
  ∀ key name, Includes scope key name → rank name < rank key

theorem Ranked.of_entries {α : Type u} [LT α] {rank : Text → α}
    (lower : ∀ entry ∈ scope.mixins.entries, ∀ start ∈ entry.2.body.tails, ∀ found ∈ include? start,
      rank (Mixin.key found.1.name) < rank entry.1) : Ranked rank scope := by
  rintro key name ⟨mixin, known, inclusion, ⟨start, rest, suffix, found⟩, rfl⟩
  exact lower (key, mixin) (Table.mem_of_get?_eq_some known) start
    ((List.mem_tails _ _).mpr suffix) (inclusion, rest) found

theorem Ranked.lt_of_transGen {α : Type u} [Preorder α] {rank : Text → α}
    (ranked : Ranked rank scope) {key name : Text} (reached : TransGen (Includes scope) key name) :
    rank name < rank key := by
  induction reached with
  | single includes => exact ranked _ _ includes
  | tail _ includes ih => exact (ranked _ _ includes).trans ih

/-- Every mixin of the guard includes, perhaps through others, whatever the text includes. -/
def Task.Traced (scope : Scope) (task : Task) : Prop :=
  ∀ key ∈ task.guard, ∀ inclusion : Include, inclusion.Stands task.text →
    TransGen (Includes scope) key (Mixin.key inclusion.name)

theorem Task.traced_outermost (text : Text) : Task.Traced scope ⟨text, []⟩ := by
  intro key guarded
  cases guarded

theorem Calls.traced {inner outer : Task} (calls : Calls scope inner outer)
    (traced : outer.Traced scope) : inner.Traced scope := by
  intro key guarded inclusion stands
  cases calls with
  | content found _ _ =>
      obtain ⟨other, standing, name, _⟩ := stands.of_isInfix (isInfix_content found)
      rw [← name]
      exact traced key guarded other standing
  | @body text source guard entered mixin found _ known =>
      have included : Includes scope (Mixin.key entered.name) (Mixin.key inclusion.name) :=
        ⟨mixin, known, inclusion, stands, rfl⟩
      rcases List.mem_cons.mp guarded with rfl | outside
      · exact .single included
      · exact .tail (traced key outside entered (stands_of_mem_cut found)) included

/-- A reason for which an include may be reported. -/
inductive Warranted (scope : Scope) : Problem → Prop
  | unknown {name : Text} (absent : scope.mixins.get? (Mixin.key name) = none) :
      Warranted scope (.unknownMixin name)
  | recursion {name : Text} (cycle : TransGen (Includes scope) (Mixin.key name) (Mixin.key name)) :
      Warranted scope (.endlessRecursion name)

def Justified (scope : Scope) (notices : List Notice) : Prop :=
  ∀ notice ∈ notices, Warranted scope notice.problem

theorem Justified.concat {notices : List Notice} {notice : Notice}
    (justified : Justified scope notices) (warranted : Warranted scope notice.problem) :
    Justified scope (notices ++ [notice]) := by
  intro other member
  rcases List.mem_append.mp member with old | new
  · exact justified other old
  · obtain rfl := List.mem_singleton.mp new
    exact warranted

theorem expandInclude_justified {inclusion : Include} {state : State} {guard : List Text}
    (same : state.guard = guard)
    (cyclic : Mixin.key inclusion.name ∈ guard →
      TransGen (Includes scope) (Mixin.key inclusion.name) (Mixin.key inclusion.name))
    (contents : ∀ mixin, Mixin.key inclusion.name ∉ guard →
      scope.mixins.get? (Mixin.key inclusion.name) = some mixin → ∀ notices,
        Justified scope notices → Justified scope
          ((expandWithin scope (inclusion.content.getD [])).run ⟨guard, notices⟩).2.notices)
    (bodies : ∀ mixin, Mixin.key inclusion.name ∉ guard →
      scope.mixins.get? (Mixin.key inclusion.name) = some mixin → ∀ notices,
        Justified scope notices → Justified scope ((expandWithin scope mixin.body).run
          ⟨Mixin.key inclusion.name :: guard, notices⟩).2.notices)
    (line : Option Int) (justified : Justified scope state.notices) :
    Justified scope ((expandInclude scope (expandWithin scope) (expandWithin scope) line
      inclusion).run state).2.notices := by
  subst same
  cases guarded : state.guard.contains (Mixin.key inclusion.name) with
  | true =>
      rw [run_expandInclude_of_guarded guarded]
      exact justified.concat (.recursion (cyclic (by simpa using guarded)))
  | false =>
      cases known : scope.mixins.get? (Mixin.key inclusion.name) with
      | none =>
          rw [run_expandInclude_of_unknown guarded known]
          exact justified.concat (.unknown known)
      | some mixin =>
          have free : Mixin.key inclusion.name ∉ state.guard := by simpa using guarded
          have kept := @restores_expandWithin scope (inclusion.content.getD []) state
          have outside := contents mixin free known state.notices justified
          rcases outer : (expandWithin scope (inclusion.content.getD [])).run state with
            ⟨content, next⟩
          rw [outer] at kept
          replace outside : Justified scope next.notices := by simpa [outer] using outside
          have inside := bodies mixin free known next.notices outside
          rw [← show next.guard = state.guard from kept] at inside
          rcases inner : (expandWithin scope mixin.body).run
            { next with guard := Mixin.key inclusion.name :: next.guard } with ⟨body, final⟩
          rw [run_expandInclude_of_runs free known outer inner]
          simpa [inner] using inside

theorem expandWithin_justified (task : Task) (traced : task.Traced scope) (notices : List Notice)
    (justified : Justified scope notices) :
    Justified scope ((expandWithin scope task.text).run ⟨task.guard, notices⟩).2.notices := by
  induction task using (wellFounded_calls scope).induction generalizing notices with
  | _ task ih =>
      rw [run_expandWithin]
      refine (splicePieces_kept (fun next : State => next.guard = task.guard ∧
        Justified scope next.notices) ?_ 1 ⟨rfl, justified⟩).2
      rintro line inclusion source state found ⟨same, sofar⟩
      refine ⟨by rw [restores_expandInclude restores_expandWithin restores_expandWithin, same], ?_⟩
      refine expandInclude_justified same (fun guarded => ?_) ?_ ?_ none sofar
      · exact traced _ guarded inclusion (stands_of_mem_cut found)
      · intro mixin free known notices justified
        have calls : Calls scope _ task := .content found free known
        exact ih _ calls (calls.traced traced) notices justified
      · intro mixin free known notices justified
        have calls : Calls scope _ task := .body found free known
        exact ih _ calls (calls.traced traced) notices justified

/-- Whatever a sheet includes, what is reported as unknown is unknown, and what is reported as
recursion includes itself. -/
theorem expandAll_justified (text : Text) :
    Justified scope ((expandAll scope text).run ⟨[], []⟩).2.notices := by
  rw [run_expandAll]
  refine (splicePieces_kept (fun next : State => next.guard = [] ∧
    Justified scope next.notices) ?_ 1 ⟨rfl, by simp [Justified]⟩).2
  rintro line inclusion source state found ⟨same, sofar⟩
  refine ⟨by rw [restores_expandInclude restores_expandWithin restores_expandWithin, same], ?_⟩
  refine expandInclude_justified same (by simp) ?_ ?_ (some line) sofar
  · intro mixin _ _ notices justified
    exact expandWithin_justified ⟨_, []⟩ (Task.traced_outermost _) notices justified
  · intro mixin free known notices justified
    have calls : Calls scope ⟨mixin.body, [Mixin.key inclusion.name]⟩ ⟨text, []⟩ :=
      .body found free known
    exact expandWithin_justified _ (calls.traced (Task.traced_outermost text)) notices justified

end Expansion

namespace Conversion

open Expansion (Ranked)

/-- If mixins include nothing but mixins of lower rank, the expansion of a sheet reports no
recursion; all that it reports are mixins that are not in the table. -/
theorem expandIncludes_ranked {α : Type u} [Preorder α] {rank : Text → α} {context : Context}
    (ranked : Ranked rank (scope context)) (text : Text) :
    ∃ result notices,
      (expandIncludes text).run.run context = (.ok result, context.report notices) ∧
      ∀ notice ∈ notices, (∀ name, notice.problem ≠ .endlessRecursion name) ∧
        ∃ name, notice.problem = .unknownMixin name ∧
          context.mixins.get? (Mixin.key name) = none := by
  refine ⟨_, _, rfl, fun notice member => ?_⟩
  have warranted := Expansion.expandAll_justified text notice member
  generalize notice.problem = problem at warranted
  cases warranted with
  | unknown absent => exact ⟨by simp, _, rfl, absent⟩
  | recursion cycle => exact absurd (ranked.lt_of_transGen cycle) (lt_irrefl _)

/-- A mixin that is included side by side, through different mixins and in content blocks that are
given to itself, beside one that is not in the table. -/
theorem expandIncludes_ranked_shared :
    let rank : Text → Nat := fun name =>
      if name = "both-ways".toList then 2 else if name = "wrap".toList then 1 else 0
    let context : Context := { Context.start none Options.default Plugins.none
      (Library.ofTable Table.empty) Cache.empty with
        mixins := Table.ofList [("leaf".toList, ⟨"leaf", [], " x: y; "⟩),
          ("wrap".toList, ⟨"wrap", [], " b \x7b @include leaf; @content; @include leaf; \x7d "⟩),
          ("both-ways".toList, ⟨"both_ways", [],
            " @include wrap \x7b @include wrap \x7b @include leaf; \x7d \x7d @include leaf; "⟩)] }
    let text : Text := ("a \x7b @include both_ways; @include wrap \x7b @include wrap \x7b " ++
      "@include both-ways; @include gone; \x7d \x7d \x7d").toList
    Ranked rank (scope context) ∧
      ∀ diagnostic ∈ ((expandIncludes text).run.run context).2.diagnostics,
        ∀ name, diagnostic.notice.problem ≠ .endlessRecursion name := by
  intro rank context text
  have ranked : Ranked rank (scope context) := .of_entries (by decide +kernel)
  refine ⟨ranked, ?_⟩
  obtain ⟨result, notices, ran, unknown⟩ := expandIncludes_ranked ranked text
  rw [ran]
  intro diagnostic member
  obtain ⟨notice, listed, rfl⟩ := List.mem_map.mp member
  exact (unknown notice listed).1

end Conversion

end Flatsheet
