import Flatsheet.Conversion.Pipeline
import Flatsheet.Proofs.Imports
import Flatsheet.Proofs.IntactMixins
import Flatsheet.Proofs.IntactSheet

/-!
Integrity of placeholders over a whole conversion. A context is sound for a text when neither the
text nor a variable nor a mixin has a cut placeholder. Every pass succeeds in a sound context and
leaves one, except that the expansion of includes must not bind a parameter whose name is a number.
-/

namespace Flatsheet

open Vault Pattern

/-- No parameter of the mixins has a number for its name. -/
def Bindable (mixins : Table Mixin) : Prop :=
  mixins.All fun mixin => ∀ parameter ∈ mixin.parameters, ¬ parameter.placeholder.Numeric

instance (mixins : Table Mixin) : Decidable (Bindable mixins) :=
  inferInstanceAs (Decidable (mixins.All _))

/-- No text that the passes share has a cut placeholder; there are no plug-ins, and resources come
from the table. -/
structure Context.Sound (resources : Table Resource) (text : Text) (context : Context) : Prop where
  text : Intact False 0 context.vault.size text
  globals : context.globals.All (Intact False 0 context.vault.size)
  mixins : context.mixins.All (Mixin.Intact False 0 context.vault.size)
  plugins : context.plugins = Plugins.none
  library : context.library = Library.ofTable resources

namespace Pass

def runAll (passes : List Pass) (text : Text) : ConvertM Text :=
  passes.foldlM (fun text pass => pass.run text) text

variable {resources : Table Resource} {text : Text} {context : Context}

theorem run_converters (plain : context.plugins = Plugins.none) (text : Text) :
    (run .converters text).run.run context = (.ok text, context) := by
  obtain ⟨vault, globals, mixins, plugins, options, library, cache, basePath, diagnostics⟩ :=
    context
  obtain rfl : plugins = Plugins.none := plain
  rfl

theorem run_functions (plain : context.plugins = Plugins.none) (text : Text) :
    (run .functions text).run.run context = (.ok text, context) := by
  have answered : Plugin.answerCalls Table.empty text = .ok text :=
    replaceM_source Plugin.call?_proper text
  have functions : context.plugins.functions = Table.empty := by rw [plain]; rfl
  change (Except.mapError _ (Plugin.answerCalls context.plugins.functions text), context) = _
  rw [functions, answered]
  rfl

theorem run_literals (text : Text) (context : Context) :
    (run .literals text).run.run context =
      let (text, vault) := context.vault.protect text
      (.ok text, { context with vault }) :=
  rfl

theorem run_imports (text : Text) (context : Context) :
    (run .imports text).run.run context =
      let (result, state) := (Import.resolveAll ⟨context.library, context.options.nestedComments⟩
        context.basePath text).run.run ⟨context.vault, context.cache, [], []⟩
      (result, { context.report state.notices with vault := state.vault, cache := state.cache }) :=
  rfl

theorem run_semicolons (text : Text) (context : Context) :
    (run .semicolons text).run.run context =
      let (result, notices) := (Declaration.endAll context.vault text).run.run []
      (result, context.report notices) :=
  rfl

theorem run_imports_sound (clean : resources.All Resource.Clean)
    (sound : context.Sound resources text) :
    ∃ result final, (run .imports text).run.run context = (.ok result, final) ∧
      final.Sound resources result := by
  obtain ⟨result, final, ran, intact, grown⟩ :=
    Import.resolveAll_intact ⟨context.library, context.options.nestedComments⟩
      ⟨context.vault, context.cache, [], []⟩ clean sound.library sound.text context.basePath
  refine ⟨result, { context.report final.notices with vault := final.vault, cache := final.cache },
    by rw [run_imports, ran], ?_⟩
  exact ⟨intact, sound.globals.mono fun _ intact => intact.grow grown,
    sound.mixins.mono fun _ intact => intact.grow grown, sound.plugins, sound.library⟩

theorem run_semicolons_sound (sound : context.Sound resources text) :
    ∃ result final, (run .semicolons text).run.run context = (.ok result, final) ∧
      final.Sound resources result := by
  obtain ⟨result, notices, ran, intact⟩ := Declaration.endAll_intact [] sound.text
  exact ⟨result, context.report notices, by rw [run_semicolons, ran], intact, sound.globals,
    sound.mixins, sound.plugins, sound.library⟩

theorem run_sound (clean : resources.All Resource.Clean) (sound : context.Sound resources text)
    {pass : Pass} (bindable : pass = .includes → Bindable context.mixins) :
    ∃ result final, (pass.run text).run.run context = (.ok result, final) ∧
      final.Sound resources result := by
  obtain ⟨intact, globals, mixins, plugins, library⟩ := sound
  cases pass with
  | newlines =>
      exact ⟨_, context, rfl, Text.unifyNewlines_intact intact, globals, mixins, plugins, library⟩
  | literals =>
      have grown := (literals_prefix_protect context.vault text).length_le
      exact ⟨_, _, rfl, protect_intact (Nat.zero_le _) intact,
        globals.mono fun _ intact => intact.grow grown,
        mixins.mono fun _ intact => intact.grow grown, plugins, library⟩
  | comments =>
      exact ⟨_, context, rfl, Comment.strip_intact _ intact, globals, mixins, plugins, library⟩
  | imports => exact run_imports_sound clean ⟨intact, globals, mixins, plugins, library⟩
  | semicolons => exact run_semicolons_sound ⟨intact, globals, mixins, plugins, library⟩
  | nestedProperties =>
      exact ⟨_, context, rfl, Declaration.flattenNested_intact intact, globals, mixins, plugins,
        library⟩
  | mixins =>
      obtain ⟨kept, registered⟩ := Mixin.registerAll_intact mixins intact
      exact ⟨_, _, rfl, kept, globals, registered, plugins, library⟩
  | substitution =>
      obtain ⟨kept, declared⟩ := Variable.substitute_intact globals intact
      exact ⟨_, _, rfl, kept, declared, mixins, plugins, library⟩
  | includes =>
      have scope : (Conversion.scope context).Sound 0 context.vault.size :=
        ⟨mixins, globals, bindable rfl⟩
      exact ⟨_, _, rfl, Expansion.keeps_expandAll scope text _ intact, globals, mixins, plugins,
        library⟩
  | converters =>
      exact ⟨text, context, run_converters plugins text, intact, globals, mixins, plugins, library⟩
  | functions =>
      exact ⟨text, context, run_functions plugins text, intact, globals, mixins, plugins, library⟩

/-- Without plug-ins no pass removes a mixin, even one that fails. -/
theorem run_entries (plain : context.plugins = Plugins.none) (pass : Pass) (text : Text) :
    ((pass.run text).run.run context).2.plugins = Plugins.none ∧
      context.mixins.entries ⊆ ((pass.run text).run.run context).2.mixins.entries := by
  cases pass with
  | mixins => exact ⟨plain, Mixin.registerAll_entries text context.mixins []⟩
  | converters =>
      rw [run_converters plain]
      exact ⟨plain, List.Subset.refl _⟩
  | _ => exact ⟨plain, List.Subset.refl _⟩

/-- The passes that can fail at all are those that restore literals. -/
theorem run_ok (plain : context.plugins = Plugins.none) {pass : Pass} (text : Text)
    (other : pass ≠ .imports ∧ pass ≠ .semicolons) :
    ∃ result final, (pass.run text).run.run context = (.ok result, final) := by
  cases pass with
  | imports => exact absurd rfl other.1
  | semicolons => exact absurd rfl other.2
  | converters => exact ⟨text, context, run_converters plain text⟩
  | functions => exact ⟨text, context, run_functions plain text⟩
  | _ => exact ⟨_, _, rfl⟩

variable {passes : List Pass}

theorem runAll_cons (pass : Pass) (passes : List Pass) (text : Text) :
    runAll (pass :: passes) text = pass.run text >>= runAll passes :=
  List.foldlM_cons

theorem runAll_append (done rest : List Pass) (text : Text) :
    runAll (done ++ rest) text = runAll done text >>= runAll rest :=
  List.foldlM_append

theorem runAll_entries (plain : context.plugins = Plugins.none) (passes : List Pass) (text : Text) :
    ((runAll passes text).run.run context).2.plugins = Plugins.none ∧
      context.mixins.entries ⊆ ((runAll passes text).run.run context).2.mixins.entries := by
  induction passes generalizing text context with
  | nil => exact ⟨plain, List.Subset.refl _⟩
  | cons pass passes ih =>
      obtain ⟨still, kept⟩ := run_entries plain pass text
      rw [runAll_cons]
      rcases ran : (pass.run text).run.run context with ⟨error | next, middle⟩
      · rw [run_bind_of_error ran]
        rw [ran] at still kept
        exact ⟨still, kept⟩
      · rw [run_bind_of_ok ran]
        rw [ran] at still kept
        obtain ⟨last, more⟩ := ih still next
        exact ⟨last, List.Subset.trans kept more⟩

theorem runAll_append_entries (plain : context.plugins = Plugins.none) (done rest : List Pass)
    (text : Text) :
    ((runAll done text).run.run context).2.mixins.entries ⊆
      ((runAll (done ++ rest) text).run.run context).2.mixins.entries := by
  have still := (runAll_entries plain done text).1
  rw [runAll_append]
  rcases ran : (runAll done text).run.run context with ⟨error | next, middle⟩
  · rw [run_bind_of_error ran]
    exact List.Subset.refl _
  · rw [run_bind_of_ok ran]
    rw [ran] at still
    exact (runAll_entries still rest next).2

theorem runAll_ok (plain : context.plugins = Plugins.none) (text : Text)
    (others : ∀ pass ∈ passes, pass ≠ .imports ∧ pass ≠ .semicolons) :
    ∃ result final, (runAll passes text).run.run context = (.ok result, final) := by
  induction passes generalizing text context with
  | nil => exact ⟨text, context, rfl⟩
  | cons pass passes ih =>
      obtain ⟨other, others⟩ := List.forall_mem_cons.mp others
      obtain ⟨next, middle, ran⟩ := run_ok plain text other
      have still := (run_entries plain pass text).1
      rw [ran] at still
      rw [runAll_cons, run_bind_of_ok ran]
      exact ih still next others

/-- Passes in any order keep a sound context sound. If includes are expanded, no mixin registered at
the end may have a parameter with a number for its name. Mixins are only added, so none registered
earlier has one either. -/
theorem runAll_sound (clean : resources.All Resource.Clean) (sound : context.Sound resources text)
    (bindable : .includes ∈ passes →
      Bindable ((runAll passes text).run.run context).2.mixins) :
    ∃ result final, (runAll passes text).run.run context = (.ok result, final) ∧
      final.Sound resources result := by
  induction passes generalizing text context with
  | nil => exact ⟨text, context, rfl, sound⟩
  | cons pass passes ih =>
      have entries := (runAll_entries sound.plugins (pass :: passes) text).2
      have now : pass = .includes → Bindable context.mixins := by
        rintro rfl entry member
        exact bindable (by simp) entry (entries member)
      obtain ⟨next, middle, ran, kept⟩ := run_sound clean sound now
      rw [runAll_cons, run_bind_of_ok ran] at bindable ⊢
      exact ih kept fun member => bindable (by simp [member])

end Pass

/-- A placeholder in the text, in a variable or in a mixin is whole and has its literal. -/
structure Context.WellFormed (text : Text) (context : Context) : Prop where
  text : Vault.WellFormed context.vault.size text
  globals : context.globals.All (Vault.WellFormed context.vault.size)
  bodies : context.mixins.All fun mixin => Vault.WellFormed context.vault.size mixin.body
  parameters : context.mixins.All fun mixin => ∀ parameter ∈ mixin.parameters,
    Vault.WellFormed context.vault.size parameter.name ∧
      ∀ value ∈ parameter.default, Vault.WellFormed context.vault.size value

theorem Context.Sound.wellFormed {resources : Table Resource} {text : Text} {context : Context}
    (sound : context.Sound resources text) : context.WellFormed text where
  text := sound.text.wellFormed
  globals := sound.globals.mono fun _ intact => intact.wellFormed
  bodies := sound.mixins.mono fun _ intact => intact.body.wellFormed
  parameters := sound.mixins.mono fun _ intact parameter member =>
    ⟨(intact.parameters parameter member).name.wellFormed, fun value given =>
      ((intact.parameters parameter member).default value given).wellFormed⟩

/-- The context of a conversion without plug-ins that takes its resources from a table. -/
def Context.fresh (basePath : Option Text) (options : Options) (resources : Table Resource)
    (cache : Cache) : Context :=
  Context.start basePath options Plugins.none (Library.ofTable resources) cache

theorem Context.sound_fresh {resources : Table Resource} {source : Text} (plain : Unmarked source)
    (basePath : Option Text) (options : Options) (cache : Cache) :
    (Context.fresh basePath options resources cache).Sound resources source :=
  ⟨.of_unmarked plain, .empty, .empty, rfl, rfl⟩

/-- The end of a conversion: the CSS of the text, with the literals of the vault put back. -/
def Vault.finish (vault : Vault) (root : Option Text) (text : Text) : Except Fault Text :=
  (vault.restore (Css.ofTokens root (Token.scan text))).mapError .literal

theorem run_convert {source : Text} {start context : Context} {result : Except Fault Text}
    (ran : (preprocess source).run.run start = (result, context)) (root : Option Text) :
    (convert source root).run.run start = (result.bind (context.vault.finish root), context) := by
  cases result with
  | error error => exact run_bind_of_error ran
  | ok text =>
      refine (run_bind_of_ok ran).trans ((run_bind_of_ok rfl).trans ?_)
      change _ = ((context.vault.restore _).mapError Fault.literal, context)
      cases context.vault.restore (Css.ofTokens root (Token.scan text)) with
      | error error => rfl
      | ok css => rfl

theorem finish_eq_ok {vault : Vault} {root : Option Text} {text css : Text} :
    vault.finish root text = .ok css ↔
      vault.restore (Css.ofTokens root (Token.scan text)) = .ok css := by
  rw [finish]
  cases vault.restore (Css.ofTokens root (Token.scan text)) <;> simp [Except.mapError]

theorem Context.Sound.css_intact {resources : Table Resource} {text : Text} {context : Context}
    {root : Option Text} (sound : context.Sound resources text)
    (rooted : ∀ selector ∈ root, Unmarked selector) :
    Intact False 0 context.vault.size (Css.ofTokens root (Token.scan text)) := by
  refine Css.ofTokens_intact ?_ sound.text
  cases root with
  | none => exact .nil
  | some selector => exact .of_unmarked (rooted selector rfl)

/-- The passes up to the expansion of includes succeed because the context is sound, and those from
there on because they restore no literal. -/
theorem preprocess_ok {source : Text} {resources : Table Resource} (basePath : Option Text)
    (options : Options) (cache : Cache) (plain : Unmarked source)
    (clean : resources.All Resource.Clean) :
    ∃ text context, (preprocess source).run.run (Context.fresh basePath options resources cache) =
      (.ok text, context) := by
  have start : (Context.fresh basePath options resources cache).Sound resources source :=
    Context.sound_fresh plain basePath options cache
  have early : Pass.includes ∉ Pass.pipeline.take 8 := by decide
  have late : ∀ pass ∈ Pass.pipeline.drop 8, pass ≠ .imports ∧ pass ≠ .semicolons := by decide
  obtain ⟨middle, between, ran, sound⟩ :=
    Pass.runAll_sound clean start fun member => absurd member early
  obtain ⟨text, context, finished⟩ := Pass.runAll_ok sound.plugins middle late
  refine ⟨text, context, ?_⟩
  have split : preprocess source =
      Pass.runAll (Pass.pipeline.take 8 ++ Pass.pipeline.drop 8) source := rfl
  rw [split, Pass.runAll_append, run_bind_of_ok ran, finished]

theorem preprocess_sound {source text : Text} {resources : Table Resource} {context : Context}
    {basePath : Option Text} {options : Options} {cache : Cache} (plain : Unmarked source)
    (clean : resources.All Resource.Clean)
    (ran : (preprocess source).run.run (Context.fresh basePath options resources cache) =
      (.ok text, context))
    (bindable : Bindable context.mixins) : context.Sound resources text := by
  have start : (Context.fresh basePath options resources cache).Sound resources source :=
    Context.sound_fresh plain basePath options cache
  have registered : Bindable ((Pass.runAll Pass.pipeline source).run.run
      (Context.fresh basePath options resources cache)).2.mixins := by
    change Bindable ((preprocess source).run.run _).2.mixins
    rwa [ran]
  obtain ⟨same, final, again, sound⟩ := Pass.runAll_sound clean start fun _ => registered
  obtain ⟨rfl, rfl⟩ : same = text ∧ final = context := by
    obtain ⟨ok, rfl⟩ := Prod.mk.inj (again.symm.trans ran)
    exact ⟨Except.ok.inj ok, rfl⟩
  exact sound

/-- Placeholders stay whole. If neither the sheet nor a resource nor the root selector holds a mark,
and no registered mixin has a parameter with a number for its name, then every pass of the pipeline
leaves a well-formed text, table of variables and table of mixins. So is the CSS, and its literals
are put back. -/
theorem wellFormed_throughout {source : Text} {root : Option Text} {resources : Table Resource}
    (basePath : Option Text) (options : Options) (cache : Cache) (plain : Unmarked source)
    (clean : resources.All Resource.Clean) (rooted : ∀ selector ∈ root, Unmarked selector)
    (bindable : Bindable ((preprocess source).run.run
      (Context.fresh basePath options resources cache)).2.mixins) :
    (∀ done rest, Pass.pipeline = done ++ rest → ∃ text context,
      (Pass.runAll done source).run.run (Context.fresh basePath options resources cache) =
          (.ok text, context) ∧ context.WellFormed text) ∧
      ∃ text context css,
        (preprocess source).run.run (Context.fresh basePath options resources cache) =
          (.ok text, context) ∧
        WellFormed context.vault.size (Css.ofTokens root (Token.scan text)) ∧
        context.vault.restore (Css.ofTokens root (Token.scan text)) = .ok css ∧
        (convert source root).run.run (Context.fresh basePath options resources cache) =
          (.ok css, context) := by
  constructor
  · intro done rest split
    have start : (Context.fresh basePath options resources cache).Sound resources source :=
      Context.sound_fresh plain basePath options cache
    have entries := Pass.runAll_append_entries start.plugins done rest source
    rw [← split] at entries
    obtain ⟨text, context, ran, sound⟩ := Pass.runAll_sound clean start
      fun _ entry member => bindable entry (entries member)
    exact ⟨text, context, ran, sound.wellFormed⟩
  · obtain ⟨text, context, ran⟩ := preprocess_ok basePath options cache plain clean
    rw [ran] at bindable
    have intact := (preprocess_sound plain clean ran bindable).css_intact rooted
    obtain ⟨css, restored⟩ := restore_of_intact intact
    refine ⟨text, context, css, ran, intact.wellFormed, restored, ?_⟩
    rw [run_convert ran]
    exact Prod.ext (finish_eq_ok.mpr restored) rfl

/-- A sheet that imports, declares, registers and includes, with literals throughout and a
parameter whose name is empty. -/
theorem wellFormed_throughout_empty_name :
    let source : Text := ("@import \"_base\"; @mixin m(: \"d\", a) \x7b content: a \"b\"; \x7d " ++
      "p \x7b @include m(\"c\"); \x7d").toList
    let resources : Table Resource := Table.ofList [("base".toList, .text "$font: 'f';".toList)]
    Bindable ((preprocess source).run.run (Context.fresh none .default resources .empty)).2.mixins ∧
      ∃ text context css,
        (preprocess source).run.run (Context.fresh none .default resources .empty) =
          (.ok text, context) ∧
        WellFormed context.vault.size (Css.ofTokens none (Token.scan text)) ∧
        context.vault.restore (Css.ofTokens none (Token.scan text)) = .ok css ∧
        (convert source none).run.run (Context.fresh none .default resources .empty) =
          (.ok css, context) := by
  intro source resources
  have bindable : Bindable ((preprocess source).run.run
      (Context.fresh none .default resources .empty)).2.mixins := by
    decide +kernel
  exact ⟨bindable, (wellFormed_throughout none .default .empty (by decide +kernel)
    (by decide +kernel) (by simp) bindable).2⟩

/-- A conversion without plug-ins, with no mark in the sheet, in a resource or in the root selector:
its passes all succeed. It succeeds itself exactly if each placeholder in the CSS is read and has
its literal. That is so unless a parameter with a number for its name was registered. -/
theorem convertAt_ok_iff {source : Text} {root : Option Text} {resources : Table Resource}
    (path basePath : Option Text) (options : Options) (cache : Cache) (plain : Unmarked source)
    (clean : resources.All Resource.Clean) (rooted : ∀ selector ∈ root, Unmarked selector) :
    ∃ text context,
      (preprocess source).run.run (Context.fresh (path <|> basePath) options resources cache) =
        (.ok text, context) ∧
      ((∃ css, (convertAt path source root).run.run
          (Context.fresh basePath options resources cache) = (.ok css, context)) ↔
        ∀ tail ∈ (Css.ofTokens root (Token.scan text)).tails, ∀ digits left,
          placeholder? tail = some (digits, left) →
            isRead digits = true ∧ (context.vault.get? (indexOf digits)).isSome) ∧
      (Bindable context.mixins → ∃ css, (convertAt path source root).run.run
          (Context.fresh basePath options resources cache) = (.ok css, context)) := by
  obtain ⟨text, context, ran⟩ := preprocess_ok (path <|> basePath) options cache plain clean
  have ends : (∃ css, (convertAt path source root).run.run
      (Context.fresh basePath options resources cache) = (.ok css, context)) ↔
      ∃ css, context.vault.restore (Css.ofTokens root (Token.scan text)) = .ok css := by
    change (∃ css, (convert source root).run.run
      (Context.fresh (path <|> basePath) options resources cache) = (.ok css, context)) ↔ _
    refine exists_congr fun css => ?_
    rw [run_convert ran, ← finish_eq_ok]
    exact ⟨fun same => (Prod.mk.inj same).1, fun ok => Prod.ext ok rfl⟩
  refine ⟨text, context, ran, ends.trans restore_ok_iff, fun bindable => ends.mpr ?_⟩
  exact restore_of_intact ((preprocess_sound plain clean ran bindable).css_intact rooted)

/-- At a path, with a root selector, an imported literal and a parameter with a number for its
name. -/
theorem convertAt_ok_iff_numeric_name :
    let source : Text := "@import '_b'; @mixin m(2) \x7b x: $q; \x7d @include m(7);".toList
    let resources : Table Resource := Table.ofList [("d/b".toList, .text "$q: \"r\";".toList)]
    Unmarked source ∧ ∃ text context,
      (preprocess source).run.run (Context.fresh (some "d/a".toList) .default resources .empty) =
        (.ok text, context) ∧
      ((∃ css, (convertAt (some "d/a".toList) source (some ".w".toList)).run.run
          (Context.fresh none .default resources .empty) = (.ok css, context)) ↔
        ∀ tail ∈ (Css.ofTokens (some ".w".toList) (Token.scan text)).tails, ∀ digits left,
          placeholder? tail = some (digits, left) →
            isRead digits = true ∧ (context.vault.get? (indexOf digits)).isSome) := by
  intro source resources
  have plain : Unmarked source := by decide +kernel
  have clean : resources.All Resource.Clean := by decide +kernel
  have rooted : ∀ selector ∈ some ".w".toList, Unmarked selector := by decide +kernel
  obtain ⟨text, context, ran, ends, _⟩ :=
    convertAt_ok_iff (some "d/a".toList) none .default .empty plain clean rooted
  exact ⟨plain, text, context, ran, ends⟩

/-- A parameter with the name `1` is found in the first placeholder, which then asks for the ninth
literal. -/
theorem convert_numeric_name :
    let source : Text := "@mixin m(1) \x7b content: \"a\"; \x7d b \x7b @include m(9); \x7d".toList
    Unmarked source ∧ ((convert source none).run.run
      (Context.fresh none .default Table.empty .empty)).1 = .error (.literal .missing) := by
  decide +kernel

end Flatsheet
