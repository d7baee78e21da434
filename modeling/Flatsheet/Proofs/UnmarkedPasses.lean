import Flatsheet.Proofs.Expansion
import Flatsheet.Proofs.Integrity
import Flatsheet.Proofs.Paths

/-!
What a conversion files besides its text. If no mark is written in a sheet and its resources, then
none stands in a literal, in the name of a variable or a mixin, or in the message of a notice: names
are made of name characters, literals are parts of what is written, and a message holds such texts
or literals that were put back.
-/

namespace Flatsheet

open Vault Pattern

namespace Vault

theorem Unmarked.of_subset {part text : Text} (inside : part ⊆ text) (unmarked : Unmarked text) :
    Unmarked part := fun c member => unmarked c (inside member)

theorem unmarked_iff_intact {text : Text} : Unmarked text ↔ Intact False 0 0 text := by
  refine ⟨.of_unmarked, fun intact => ?_⟩
  induction intact with
  | nil => simp [Unmarked]
  | char opening closing _ ih =>
      intro c member
      rcases List.mem_cons.mp member with rfl | later
      · exact ⟨opening, closing⟩
      · exact ih c later
  | placeholder above below _ _ => omega

/-- No mark stands in a literal. -/
def Plain (vault : Vault) : Prop := ∀ literal ∈ vault.literals, Unmarked literal

variable {vault : Vault}

theorem hit_of_mem_literalsOf {pieces : List (Piece Unit)} {literal : Text}
    (member : literal ∈ literalsOf pieces) : ∃ value, .hit value literal ∈ pieces := by
  induction pieces with
  | nil => cases member
  | cons piece pieces ih =>
      cases piece with
      | char c =>
          obtain ⟨value, later⟩ := ih member
          exact ⟨value, List.mem_cons_of_mem _ later⟩
      | hit value source =>
          rcases List.mem_cons.mp member with rfl | later
          · exact ⟨value, List.mem_cons_self⟩
          · obtain ⟨value, inside⟩ := ih later
            exact ⟨value, List.mem_cons_of_mem _ inside⟩

theorem Plain.protect (plain : vault.Plain) {text : Text} (unmarked : Unmarked text) :
    (vault.protect text).2.Plain := by
  intro literal member
  rw [protect_eq] at member
  rcases List.mem_append.mp member with old | new
  · exact plain literal old
  · obtain ⟨value, hit⟩ := hit_of_mem_literalsOf new
    obtain ⟨before, rest, rfl, _⟩ := split_of_mem_cut literal?_proper hit
    exact unmarked.of_subset (by simp)

theorem Plain.numbered (plain : vault.Plain) {digits literal : Text}
    (found : vault.numbered digits = .ok literal) : Unmarked literal := by
  obtain ⟨_, stored⟩ := numbered_eq_ok_iff.mp found
  unfold get? at stored
  split_ifs at stored
  · exact plain literal (List.mem_of_getElem? stored)
  · exact plain literal (List.mem_of_getElem? stored)

/-- Putting literals back leaves no mark. -/
theorem Plain.restore (plain : vault.Plain) {low : Nat} {text : Text}
    (intact : Intact False low vault.size text) :
    ∃ restored, vault.restore text = .ok restored ∧ Unmarked restored := by
  induction intact with
  | nil => exact ⟨[], rfl, by simp [Unmarked]⟩
  | @char c text opening closing _ ih =>
      obtain ⟨restored, ok, unmarked⟩ := ih
      refine ⟨c :: restored, ?_, ?_⟩
      · rw [restore_of_none (placeholder?_of_ne opening), ok]
        rfl
      · exact List.forall_mem_cons.mpr ⟨⟨opening, closing⟩, unmarked⟩
  | @placeholder number text above below _ ih =>
      obtain ⟨restored, ok, unmarked⟩ := ih
      obtain ⟨index, rfl⟩ : ∃ index, number = index + 1 := ⟨number - 1, by omega⟩
      have inside : index < vault.literals.length := Nat.lt_of_succ_le below
      refine ⟨vault.literals[index] ++ restored, ?_, ?_⟩
      · rw [restore_placeholder (List.getElem?_eq_getElem inside), ok]
        rfl
      · exact (plain _ (List.getElem_mem inside)).append unmarked

theorem Unmarked.unifyNewlines {text : Text} (unmarked : Unmarked text) :
    Unmarked text.unifyNewlines :=
  unmarked_iff_intact.mpr (Text.unifyNewlines_intact (unmarked_iff_intact.mp unmarked))

theorem unmarked_unquote {literal : Text} (unmarked : Unmarked literal) :
    Unmarked (unquote literal) := by
  cases literal with
  | nil => exact unmarked
  | cons quote text =>
      rw [unquote]
      split
      · exact unmarked.of_subset
          (List.Subset.trans (List.dropLast_subset text) (List.subset_cons_self quote text))
      · exact unmarked

end Vault

/-- What a message speaks of. -/
def Problem.subject : Problem → Text
  | .missingSemicolon declaration => declaration
  | .duplicateMixin name => name
  | .endlessRecursion name => name
  | .unknownMixin name => name
  | .notLoaded reason => reason
  | .remark message => message

theorem Problem.unmarked_message {problem : Problem} (unmarked : Unmarked problem.subject) :
    Unmarked problem.message := by
  cases problem with
  | notLoaded reason => exact unmarked
  | remark message => exact unmarked
  | _ => exact (Unmarked.append (by decide) unmarked).append (by decide)

/-- No mark stands in what the notice speaks of. -/
def Notice.Plain (notice : Notice) : Prop := Unmarked notice.problem.subject

theorem Notice.plain_concat {notices : List Notice} {notice : Notice}
    (noticed : ∀ notice ∈ notices, notice.Plain) (plain : notice.Plain) :
    ∀ other ∈ notices ++ [notice], other.Plain := by
  intro other member
  rcases List.mem_append.mp member with old | new
  · exact noticed other old
  · obtain rfl := List.mem_singleton.mp new
    exact plain

theorem Text.unmarked_ofNat (number : Nat) : Unmarked (ofNat number) := by
  intro c member
  exact ne_marks_of_isWord (isWord_of_isDigit (isDigit_of_mem_ofNat member))

theorem Text.unmarked_ofInt (number : Int) : Unmarked (ofInt number) := by
  cases number with
  | ofNat number => exact unmarked_ofNat number
  | negSucc number =>
      exact Unmarked.append (by decide : Unmarked ['-']) (unmarked_ofNat (number + 1))

theorem Diagnostic.unmarked_render {diagnostic : Diagnostic}
    (source : Unmarked diagnostic.source) (plain : diagnostic.notice.Plain) :
    Unmarked diagnostic.render := by
  have message := Problem.unmarked_message plain
  have colon : Unmarked ": ".toList := by decide
  unfold render
  split
  · exact (source.append colon).append message
  next line _ =>
      have placed : Unmarked (':' :: Text.ofInt line) :=
        Unmarked.append (by decide : Unmarked [':']) (Text.unmarked_ofInt line)
      exact ((source.append placed).append colon).append message

namespace Declaration

/-- The repair reports declarations with their literals put back. -/
theorem endAll_plain {vault : Vault} {low : Nat} {text : Text} (plain : vault.Plain)
    (intact : Intact False low vault.size text) :
    ∀ notice ∈ ((endAll vault text).run.run []).2, notice.Plain := by
  have kept : ∃ result notices, (endAll vault text).run.run [] = (.ok result, notices) ∧
      Intact False low vault.size result ∧ ∀ notice ∈ notices, notice.Plain := by
    refine replaceM_ok_invariant unended?_whole.proper
      (fun text (notices : List Notice) => Intact False low vault.size text ∧
        ∀ notice ∈ notices, notice.Plain) ?_ ⟨intact, by simp⟩
    rintro line written source declaration left found notices ⟨holds, noticed⟩
    obtain ⟨before, covered, after⟩ := unended?_whole.splits found holds
    obtain ⟨_, _, same⟩ := unended?_eq_some found
    obtain rfl := List.append_cancel_right same
    obtain ⟨restored, ok, unmarked⟩ := plain.restore covered
    refine ⟨source ++ [';'], notices ++ [⟨.missingSemicolon restored, some line, some source⟩], ?_,
      before.append ((covered.append (.of_unmarked (by decide))).append after), ?_⟩
    · simp only [ok]
      rfl
    · exact Notice.plain_concat noticed unmarked
  obtain ⟨result, notices, ran, _, noticed⟩ := kept
  rw [ran]
  exact noticed

end Declaration

namespace Mixin

/-- No mark stands in the key and in the name of a mixin. -/
def EntryPlain (entry : Text × Mixin) : Prop := Unmarked entry.1 ∧ Unmarked entry.2.name

theorem unmarked_key {name : Text} (unmarked : Unmarked name) : Unmarked (key name) := by
  intro c member
  obtain ⟨other, inside, rfl⟩ := List.mem_map.mp member
  split
  · decide
  · exact unmarked other inside

/-- Registration files and reports names, and those are made of name characters. -/
theorem registerAll_plain {mixins : Table Mixin} (text : Text)
    (known : ∀ entry ∈ mixins.entries, EntryPlain entry) :
    (∀ entry ∈ ((registerAll text).run (mixins, [])).2.1.entries, EntryPlain entry) ∧
      ∀ notice ∈ ((registerAll text).run (mixins, [])).2.2, notice.Plain := by
  refine splicePieces_kept (fun state : Table Mixin × List Notice =>
    (∀ entry ∈ state.1.entries, EntryPlain entry) ∧ ∀ notice ∈ state.2, notice.Plain) ?_ 1
    ⟨known, by simp⟩
  rintro line definition source ⟨mixins, notices⟩ member ⟨filed, noticed⟩
  obtain ⟨before, rest, _, found⟩ := split_of_mem_cut definition?_whole.proper member
  obtain ⟨_, _, _, _, _, _, _, named, _⟩ := definition?_eq_some found
  have unmarked := unmarked_of_isName named
  change (∀ entry ∈ Table.entries (Prod.fst (if mixins.contains (key definition.mixin.name) then _
    else _)), _) ∧ ∀ notice ∈ Prod.snd (if mixins.contains (key definition.mixin.name) then _
    else _), _
  split
  · exact ⟨filed, Notice.plain_concat noticed unmarked⟩
  · refine ⟨fun entry inside => ?_, noticed⟩
    rcases Table.mem_insert inside with rfl | old
    · exact ⟨unmarked_key unmarked, unmarked⟩
    · exact filed entry old

end Mixin

namespace Variable

theorem substitute_plain {globals : Table Text} (text : Text)
    (known : ∀ entry ∈ globals.entries, Unmarked entry.1) :
    ∀ entry ∈ ((substitute text).run globals).2.entries, Unmarked entry.1 := by
  refine replaceM_run_invariant declaration?_whole.proper
    (fun _ (globals : Table Text) => ∀ entry ∈ globals.entries, Unmarked entry.1) ?_ known
  intro line written source declaration left found globals filed entry member
  obtain ⟨_, _, named, _⟩ := declaration?_eq_some found
  rcases Table.mem_insert member with rfl | old
  · exact unmarked_of_isNamePart named
  · exact filed entry old

end Variable

namespace Expansion

variable {scope : Scope} {expandContent expandBody : Text → StateM State Text}

/-- An expansion reports without marks, if nothing with marks was reported before. -/
def ReportsPlain (expand : Text → StateM State Text) : Prop :=
  ∀ text state, (∀ notice ∈ state.notices, notice.Plain) →
    ∀ notice ∈ ((expand text).run state).2.notices, notice.Plain

theorem expandInclude_plain (content : ReportsPlain expandContent) (body : ReportsPlain expandBody)
    (line : Option Int) {inclusion : Include} (named : Unmarked inclusion.name) {state : State}
    (noticed : ∀ notice ∈ state.notices, notice.Plain) :
    ∀ notice ∈ ((expandInclude scope expandContent expandBody line inclusion).run state).2.notices,
      notice.Plain := by
  cases guarded : state.guard.contains (Mixin.key inclusion.name) with
  | true =>
      rw [run_expandInclude_of_guarded guarded]
      exact Notice.plain_concat noticed named
  | false =>
      cases known : scope.mixins.get? (Mixin.key inclusion.name) with
      | none =>
          rw [run_expandInclude_of_unknown guarded known]
          exact Notice.plain_concat noticed named
      | some mixin =>
          have outside := content (inclusion.content.getD []) state noticed
          rcases outer : (expandContent (inclusion.content.getD [])).run state with ⟨given, next⟩
          rw [outer] at outside
          have inside := body mixin.body
            { next with guard := Mixin.key inclusion.name :: next.guard } outside
          rcases inner : (expandBody mixin.body).run
            { next with guard := Mixin.key inclusion.name :: next.guard } with ⟨expanded, final⟩
          rw [inner] at inside
          rw [run_expandInclude_of_runs (by simpa using guarded) known outer inner]
          exact inside

theorem reportsPlain_spliceM (content : ReportsPlain expandContent)
    (body : ReportsPlain expandBody) (lineOf : Nat → Option Int) :
    ReportsPlain (Include.include?.spliceM fun line inclusion =>
      expandInclude scope expandContent expandBody (lineOf line) inclusion) := by
  intro text state noticed
  refine splicePieces_kept (fun next : State => ∀ notice ∈ next.notices, notice.Plain) ?_ 1 noticed
  intro line inclusion source next member sofar
  obtain ⟨before, rest, _, found⟩ := split_of_mem_cut Include.include?_whole.proper member
  obtain ⟨_, _, _, _, _, named, _⟩ := Include.include?_eq_some found
  exact expandInclude_plain content body (lineOf line) (unmarked_of_isName named) sofar

theorem reportsPlain_pure : ReportsPlain pure := fun _ _ noticed => noticed

theorem reportsPlain_expandNested (body : ReportsPlain expandBody) (depth : Nat) :
    ReportsPlain (expandNested scope expandBody depth) := by
  induction depth with
  | zero => exact reportsPlain_pure
  | succ depth ih => exact reportsPlain_spliceM ih body fun _ => none

theorem reportsPlain_expandBody (levels : Nat) :
    ReportsPlain (Expansion.expandBody scope levels) := by
  induction levels with
  | zero => exact fun text => reportsPlain_expandNested reportsPlain_pure text.length text
  | succ levels ih => exact fun text => reportsPlain_expandNested ih text.length text

/-- Expansion reports names, and those are made of name characters. -/
theorem reportsPlain_expandAll : ReportsPlain (expandAll scope) :=
  reportsPlain_spliceM
    (fun text => reportsPlain_expandNested (reportsPlain_expandBody scope.mixins.size) text.length
      text)
    (reportsPlain_expandBody scope.mixins.size) fun line => some line

end Expansion

/-- No mark stands in the resource, nor in the reason for which there is none. -/
def Resource.Plain : Resource → Prop
  | .text content => Unmarked content
  | .nothing => True
  | .failing reason => Unmarked reason

instance : (resource : Resource) → Decidable resource.Plain
  | .text content => inferInstanceAs (Decidable (Unmarked content))
  | .nothing => inferInstanceAs (Decidable True)
  | .failing reason => inferInstanceAs (Decidable (Unmarked reason))

theorem Resource.Plain.clean {resource : Resource} (plain : resource.Plain) : resource.Clean := by
  cases resource with
  | text content => exact plain
  | nothing => trivial
  | failing reason => trivial

namespace Path

theorem unmarked_withoutMark {path : Text} (unmarked : Unmarked path) :
    Unmarked (withoutMark path) := by
  unfold withoutMark
  split
  next path => exact unmarked.of_subset (List.subset_cons_self _ _)
  · exact unmarked

theorem unmarked_resolve {base : Option Text} {path : Text}
    (based : ∀ other ∈ base, Unmarked other) (unmarked : Unmarked path) :
    Unmarked (resolve base path) := by
  have directory : Unmarked (base.getD []) := by
    cases base with
    | none => simp [Unmarked]
    | some other => exact based other rfl
  refine Unmarked.of_subset (List.dropWhile_sublist _).subset ?_
  split
  next front last found =>
      have front : Unmarked front := directory.of_subset (by
        rw [(Text.partitionLast_eq_some.mp found).1]
        exact List.subset_append_left _ _)
      exact front.append (Unmarked.append (by decide : Unmarked ['/']) unmarked)
  · exact unmarked

end Path

namespace Import

variable {named : Prop} {resources : Table Resource} {source : Source}

/-- No literal holds a mark, and no notice if `named` says so. -/
def State.Plain (named : Prop) (state : State) : Prop :=
  state.vault.Plain ∧ (named → ∀ notice ∈ state.notices, notice.Plain)

theorem unmarked_message_of_loadFrom {identifier : Text} {error : LoadError}
    (plain : resources.All Resource.Plain)
    (failed : Library.loadFrom resources identifier = .error error)
    (unmarked : Unmarked identifier) : Unmarked error.message := by
  unfold Library.loadFrom at failed
  split at failed
  · contradiction
  · contradiction
  next reason found =>
      cases failed
      exact plain.get? found
  · cases failed
    exact Unmarked.append (by decide) unmarked

/-- An import that is left out is reported by its identifier, or by the reason of the library. -/
theorem leaveOut_plain {identifier statement : Text} {error : LoadError} {state : State}
    (plain : resources.All Resource.Plain)
    (failed : Library.loadFrom resources identifier = .error error)
    (identified : named → Unmarked identifier) (line : Nat) (start : state.Plain named) :
    (leaveOut line statement error state).2.Plain named := by
  unfold leaveOut
  split
  · exact start
  · exact start
  · split
    · exact start
    · exact ⟨start.1, fun known => Notice.plain_concat (start.2 known)
        (unmarked_message_of_loadFrom plain failed (identified known))⟩

/-- The program leaves a plain state plain, whether or not it faults. -/
def KeepsPlain (named : Prop) (program : ImportM Text) : Prop :=
  ∀ ⦃state : State⦄, state.Plain named → (program.run.run state).2.Plain named

theorem bringIn_plain {inline : Text → Text → ImportM Text} {identifier statement : Text}
    {state : State} (plain : resources.All Resource.Plain)
    (library : source.library = Library.ofTable resources)
    (identified : named → Unmarked identifier)
    (inlines : ∀ text, KeepsPlain named (inline identifier text)) (line : Nat)
    (start : state.Plain named) :
    (bringIn source inline line statement identifier state).2.Plain named := by
  rw [bringIn]
  split
  · exact start
  · split
    next text loaded =>
        rw [library] at loaded
        have unmarked := unmarked_of_loadFrom (plain.mono fun _ => Resource.Plain.clean) loaded
        exact inlines _ ⟨start.1.protect unmarked.unifyNewlines, start.2⟩
    next error failed =>
        rw [library] at failed
        exact leaveOut_plain plain failed identified line ⟨start.1, start.2⟩

theorem keepsPlain_replaceImport {inline : Text → Text → ImportM Text} {base : Option Text}
    (plain : resources.All Resource.Plain) (library : source.library = Library.ofTable resources)
    (based : named → ∀ path ∈ base, Unmarked path)
    (inlines : ∀ identifier, (named → Unmarked identifier) →
      ∀ text, KeepsPlain named (inline identifier text)) (line : Nat) (digits statement : Text) :
    KeepsPlain named (replaceImport source inline base line digits statement) := by
  intro state start
  cases found : state.vault.numbered digits with
  | error error =>
      rw [run_replaceImport_of_error found]
      exact start
  | ok literal =>
      rw [run_replaceImport_of_ok found]
      split
      · have identified : named →
            Unmarked (Path.resolve base (Path.withoutMark (unquote literal))) := fun known =>
          Path.unmarked_resolve (based known)
            (Path.unmarked_withoutMark (unmarked_unquote (start.1.numbered found)))
        exact bringIn_plain plain library identified (inlines _ identified) line start
      · exact start

theorem keepsPlain_replaceM {replace : Nat → Text → Text → ImportM Text}
    (each : ∀ line digits statement, KeepsPlain named (replace line digits statement))
    (text : Text) : KeepsPlain named (statement?.replaceM replace text) := by
  refine Keeps.iff_last.mp (Keeps.replaceM statement?_proper ?_)
  intro line before statement digits rest _ _
  exact Keeps.iff_last.mpr (each line digits statement)

theorem keepsPlain_resolveWithin (plain : resources.All Resource.Plain)
    (library : source.library = Library.ofTable resources) (depth : Nat) {base : Option Text}
    (based : named → ∀ path ∈ base, Unmarked path) (text : Text) :
    KeepsPlain named (resolveWithin source depth base text) := by
  induction depth generalizing base text with
  | zero =>
      have faults (identifier text : Text) :
          KeepsPlain named ((fun _ _ => throw .endlessImports : Text → Text → ImportM Text)
            identifier text) := fun _ start => start
      exact keepsPlain_replaceM
        (keepsPlain_replaceImport plain library based fun identifier _ => faults identifier) text
  | succ depth ih =>
      refine keepsPlain_replaceM (keepsPlain_replaceImport plain library based ?_) text
      intro identifier identified
      exact ih fun known path same => Option.mem_some_iff.mp same ▸ identified known

end Import

/-- No mark stands in a literal, in the name of a variable or mixin, nor in a diagnostic, unless the
path of the sheet brings it in. -/
structure Context.Plain (context : Context) : Prop where
  vault : context.vault.Plain
  mixins : ∀ entry ∈ context.mixins.entries, Mixin.EntryPlain entry
  globals : ∀ entry ∈ context.globals.entries, Unmarked entry.1
  diagnostics : (∀ path ∈ context.basePath, Unmarked path) →
    ∀ diagnostic ∈ context.diagnostics, Unmarked diagnostic.render

namespace Context

theorem plain_fresh (basePath : Option Text) (options : Options) (resources : Table Resource)
    (cache : Cache) : (fresh basePath options resources cache).Plain :=
  ⟨by simp [Vault.Plain, fresh, start], by simp [fresh, start, Table.empty],
    by simp [fresh, start, Table.empty], by simp [fresh, start]⟩

variable {context : Context}

theorem unmarked_source (based : ∀ path ∈ context.basePath, Unmarked path) :
    Unmarked context.source := by
  unfold source
  split
  · decide
  · decide
  next path _ found => exact based path found

theorem Plain.report (plain : context.Plain) {notices : List Notice}
    (noticed : (∀ path ∈ context.basePath, Unmarked path) → ∀ notice ∈ notices, notice.Plain) :
    (context.report notices).Plain := by
  refine ⟨plain.vault, plain.mixins, plain.globals, fun based diagnostic member => ?_⟩
  rcases List.mem_append.mp member with old | new
  · exact plain.diagnostics based diagnostic old
  · obtain ⟨notice, inside, rfl⟩ := List.mem_map.mp new
    exact Diagnostic.unmarked_render (unmarked_source based) (noticed based notice inside)

end Context

namespace Pass

variable {resources : Table Resource} {context : Context} {text : Text}

/-- Only two passes look at what the text holds: literals are taken from it, and declarations in it
are reported. -/
theorem run_plain (files : resources.All Resource.Plain)
    (library : context.library = Library.ofTable resources)
    (plugins : context.plugins = Plugins.none) (plain : context.Plain) {pass : Pass}
    (lifted : pass = .literals → Unmarked text)
    (repaired : pass = .semicolons → Intact False 0 context.vault.size text) :
    ((pass.run text).run.run context).2.Plain := by
  cases pass with
  | literals =>
      exact ⟨plain.vault.protect (lifted rfl), plain.mixins, plain.globals, plain.diagnostics⟩
  | imports =>
      let source : Import.Source := ⟨context.library, context.options.nestedComments⟩
      have start : Import.State.Plain (∀ path ∈ context.basePath, Unmarked path)
          ⟨context.vault, context.cache, [], []⟩ := ⟨plain.vault, by simp⟩
      have kept := Import.keepsPlain_resolveWithin files (show source.library = _ from library)
        context.library.nesting (fun based => based) text start
      have reported := plain.report kept.2
      exact ⟨kept.1, reported.mixins, reported.globals, reported.diagnostics⟩
  | semicolons => exact plain.report fun _ => Declaration.endAll_plain plain.vault (repaired rfl)
  | mixins =>
      obtain ⟨filed, noticed⟩ := Mixin.registerAll_plain text plain.mixins
      have reported := plain.report fun _ => noticed
      exact ⟨plain.vault, filed, plain.globals, reported.diagnostics⟩
  | substitution =>
      exact ⟨plain.vault, plain.mixins, Variable.substitute_plain text plain.globals,
        plain.diagnostics⟩
  | includes =>
      exact plain.report fun _ => Expansion.reportsPlain_expandAll text ⟨[], []⟩ (by simp)
  | converters =>
      rw [run_converters plugins]
      exact plain
  | functions =>
      rw [run_functions plugins]
      exact plain
  | _ => exact plain

theorem run_library (pass : Pass) (text : Text) (context : Context) :
    ((pass.run text).run.run context).2.library = context.library := by
  cases pass <;> rfl

/-- The passes that take literals from no text and file no mixin leave both as they are. -/
theorem run_tables (plugins : context.plugins = Plugins.none) {pass : Pass} (text : Text)
    (other : pass ∉ [.literals, .imports, .mixins]) :
    ((pass.run text).run.run context).2.vault = context.vault ∧
      ((pass.run text).run.run context).2.mixins = context.mixins := by
  cases pass with
  | literals => simp at other
  | imports => simp at other
  | mixins => simp at other
  | converters =>
      rw [run_converters plugins]
      exact ⟨rfl, rfl⟩
  | _ => exact ⟨rfl, rfl⟩

variable {passes : List Pass}

theorem runAll_plain (files : resources.All Resource.Plain)
    (library : context.library = Library.ofTable resources)
    (plugins : context.plugins = Plugins.none) (plain : context.Plain)
    (lifted : .literals ∉ passes)
    (repaired : .semicolons ∈ passes → context.Sound resources text ∧ .includes ∉ passes) :
    ((runAll passes text).run.run context).2.Plain := by
  induction passes generalizing text context with
  | nil => exact plain
  | cons pass passes ih =>
      obtain ⟨now, later⟩ : .literals ≠ pass ∧ .literals ∉ passes := by simpa using lifted
      have next := run_plain files library plugins plain (fun same => absurd same.symm now)
        fun same => (repaired (by simp [same])).1.text
      have known := run_library pass text context
      have still := (run_entries plugins pass text).1
      rcases ran : (pass.run text).run.run context with ⟨error | result, middle⟩
      · rw [runAll_cons, run_bind_of_error ran]
        rwa [ran] at next
      · rw [runAll_cons, run_bind_of_ok ran]
        rw [ran] at next known still
        refine ih (known.trans library) still next later fun member => ?_
        obtain ⟨sound, early⟩ := repaired (List.mem_cons_of_mem _ member)
        have bindable : pass = .includes → Bindable context.mixins := fun includes =>
          absurd (by simp [includes]) early
        obtain ⟨same, final, again, kept⟩ :=
          run_sound (files.mono fun _ => Resource.Plain.clean) sound bindable
        obtain ⟨rfl, rfl⟩ : same = result ∧ final = middle := by
          obtain ⟨ok, rfl⟩ := Prod.mk.inj (again.symm.trans ran)
          exact ⟨Except.ok.inj ok, rfl⟩
        exact ⟨kept, fun inside => early (List.mem_cons_of_mem _ inside)⟩

theorem runAll_tables (plugins : context.plugins = Plugins.none) (text : Text)
    (others : ∀ pass ∈ passes, pass ∉ [.literals, .imports, .mixins]) :
    ((runAll passes text).run.run context).2.vault = context.vault ∧
      ((runAll passes text).run.run context).2.mixins = context.mixins := by
  induction passes generalizing text context with
  | nil => exact ⟨rfl, rfl⟩
  | cons pass passes ih =>
      obtain ⟨other, others⟩ := List.forall_mem_cons.mp others
      have same := run_tables plugins text other
      have still := (run_entries plugins pass text).1
      rcases ran : (pass.run text).run.run context with ⟨error | result, middle⟩
      · rw [runAll_cons, run_bind_of_error ran]
        rwa [ran] at same
      · rw [runAll_cons, run_bind_of_ok ran]
        rw [ran] at same still
        obtain ⟨vault, mixins⟩ := ih still result others
        exact ⟨vault.trans same.1, mixins.trans same.2⟩

end Pass

/-- The first two passes lift literals from a text without marks. -/
theorem opening_plain {source : Text} {resources : Table Resource} (basePath : Option Text)
    (options : Options) (cache : Cache) (unmarked : Unmarked source)
    (files : resources.All Resource.Plain) :
    ∃ text context, (Pass.runAll [.newlines, .literals] source).run.run
        (Context.fresh basePath options resources cache) = (.ok text, context) ∧
      context.Sound resources text ∧ context.Plain := by
  have start : (Context.fresh basePath options resources cache).Sound resources source :=
    Context.sound_fresh unmarked basePath options cache
  obtain ⟨text, context, ran, sound⟩ := Pass.runAll_sound
    (files.mono fun _ => Resource.Plain.clean) start
    fun member : .includes ∈ [Pass.newlines, .literals] => absurd member (by decide)
  have plain : ((Pass.runAll [.newlines, .literals] source).run.run
      (Context.fresh basePath options resources cache)).2.Plain :=
    Pass.run_plain files rfl rfl (Context.plain_fresh basePath options resources cache)
      (fun _ => unmarked.unifyNewlines) (fun same : Pass.literals = .semicolons => nomatch same)
  rw [ran] at plain
  exact ⟨text, context, ran, sound, plain⟩

/-- A conversion files no mark, if none is written in the sheet and its resources; and the mixins
that it files keep their placeholders whole. The text may lose placeholders in the late passes, none
of which looks at them. -/
theorem preprocess_plain {source : Text} {resources : Table Resource} (basePath : Option Text)
    (options : Options) (cache : Cache) (unmarked : Unmarked source)
    (files : resources.All Resource.Plain) :
    ∃ text context, (preprocess source).run.run (Context.fresh basePath options resources cache) =
      (.ok text, context) ∧ context.Plain ∧
      context.mixins.All (Mixin.Intact False 0 context.vault.size) := by
  let early : List Pass :=
    [.comments, .imports, .semicolons, .nestedProperties, .mixins, .substitution]
  let late : List Pass := [.includes, .substitution, .converters, .functions]
  obtain ⟨lifted, opened, opens, start, free⟩ :=
    opening_plain basePath options cache unmarked files
  obtain ⟨middle, between, ran, sound⟩ : ∃ middle between,
      (Pass.runAll early lifted).run.run opened = (.ok middle, between) ∧
        between.Sound resources middle :=
    Pass.runAll_sound (files.mono fun _ => Resource.Plain.clean) start
      fun member => absurd member (by decide)
  have sofar := @Pass.runAll_plain resources opened lifted early files start.library start.plugins
    free (by decide) fun _ => ⟨start, by decide⟩
  rw [ran] at sofar
  obtain ⟨text, context, finished⟩ := Pass.runAll_ok sound.plugins middle
    (by decide : ∀ pass ∈ late, pass ≠ .imports ∧ pass ≠ .semicolons)
  have plain := @Pass.runAll_plain resources between middle late files sound.library sound.plugins
    sofar (by decide) fun member => absurd member (by decide)
  have same := @Pass.runAll_tables between late sound.plugins middle (by decide)
  rw [finished] at plain same
  refine ⟨text, context, ?_, plain, ?_⟩
  · change (Pass.runAll ([.newlines, .literals] ++ (early ++ late)) source).run.run _ = _
    rw [Pass.runAll_append, run_bind_of_ok opens, Pass.runAll_append, run_bind_of_ok ran, finished]
  · rw [show context.vault = _ from same.1, show context.mixins = _ from same.2]
    exact sound.mixins

end Flatsheet
