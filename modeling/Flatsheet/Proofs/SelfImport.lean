import Flatsheet.Proofs.ClaimedImports
import Flatsheet.Proofs.Paths

/-!
Sheets that import themselves. A sheet is claimed under the path it is loaded from, while the last
segment of that path, imported from the sheet, resolves to the path without the slashes at its
front. So a sheet passes over itself, unless its path is rooted: then it asks the library for the
path without the slashes.
-/

namespace Flatsheet

namespace Path

/-- What follows the last slash, or the whole path if it has none. -/
def LastSegment (path segment : Text) : Prop :=
  '/' ∉ segment ∧ (path = segment ∨ ∃ directory, path = directory ++ '/' :: segment)

/-- Imported from a path, its last segment is the path without the slashes at its front. -/
theorem LastSegment.resolve_eq {path segment : Text} (last : LastSegment path segment) :
    resolve (some path) segment = path.dropWhile (· = '/') := by
  obtain ⟨absent, rfl | ⟨directory, rfl⟩⟩ := last
  · rw [Path.resolve_eq, Option.getD_some, directory_of_not_mem absent, List.nil_append]
  · rw [Path.resolve_eq, Option.getD_some, directory_append_slash absent, List.append_assoc,
      List.singleton_append]

theorem withoutMark_of_head?_ne {path : Text} (unmarked : path.head? ≠ some '_') :
    withoutMark path = path := by
  unfold withoutMark
  split
  · exact absurd rfl unmarked
  · rfl

end Path

namespace Import

open Vault Pattern

variable {resources : Table Resource}

theorem mem_claimed_claim {cache : Cache} {path identifier : Text} :
    identifier ∈ (cache.claim path).2.claimed ↔ identifier = path ∨ identifier ∈ cache.claimed := by
  unfold Cache.claim
  split
  next known =>
      have listed : path ∈ cache.claimed := by simpa [Cache.contains] using known
      constructor
      · exact .inr
      · rintro (rfl | member)
        · exact listed
        · exact member
  · simp

/-- An import that a run has come through is claimed at its end. -/
theorem mem_claimed_of_resolveAll {source : Source} {path before statement rest result : Text}
    {base : Option Text} {final : State} (held : source.library = Library.ofTable resources)
    (state : State) (imported : ImportOf state.vault path statement rest)
    (sheet : Path.isSheet path = true)
    (ran : (resolveAll source base (before ++ (statement ++ rest))).run.run state =
      (.ok result, final)) :
    Path.resolve base (Path.withoutMark path) ∈ final.cache.claimed := by
  obtain ⟨digits, literal, found, place, numbered, rfl⟩ := imported
  rw [resolveAll_split held base found] at ran
  obtain ⟨_, middle, first, ran⟩ := run_bind_eq_ok ran
  obtain ⟨_, next, brought, ran⟩ := run_bind_eq_ok ran
  obtain ⟨_, _, last, ran⟩ := run_bind_eq_ok ran
  cases ran
  obtain ⟨_, early, _⟩ := (records_resolveFrom held base 1 before).asked state
  obtain ⟨_, late, _⟩ := (records_resolveFrom held base
    (1 + Text.newlines before + Text.newlines statement) rest).asked next
  rw [first] at early
  rw [last] at late
  rw [run_replaceImport_of_ok (numbered_of_grown early.literals place numbered),
    if_pos sheet] at brought
  have met := mem_claimed_bringIn held (fun identifier => records_resolveAll held (some identifier))
    (1 + Text.newlines before) statement
    (Path.resolve base (Path.withoutMark (unquote literal))) middle
  rw [brought] at met
  exact late.claimed met

/-- The import pass over the text of a sheet that was loaded from this path. -/
def Call.ofSheet (context : Context) (path text : Text) : Call where
  context := { context with
    basePath := some path
    vault := (context.vault.protect text.unifyNewlines).2 }
  base := none
  text := Comment.strip context.options.nestedComments
    (context.vault.protect text.unifyNewlines).1

end Import

open Import

/-- What a conversion does after the import pass. -/
def finish (rootSelector : Option Text) (text : Text) : ConvertM Text := do
  let text ← Pass.runAll (Pass.pipeline.drop 4) text
  Conversion.restore (Css.ofTokens rootSelector (Token.scan text))

theorem Pass.run_runAll_cons_bind {pass : Pass} {passes : List Pass} {text result : Text}
    {context next : Context} (ran : (pass.run text).run.run context = (.ok result, next))
    (rest : Text → ConvertM Text) :
    (runAll (pass :: passes) text >>= rest).run.run context =
      (runAll passes result >>= rest).run.run next := by
  rw [runAll_cons, bind_assoc]
  exact run_bind_of_ok ran

variable {context : Context} {path segment text : Text} {resources : Table Resource}

/-- A sheet comes to the import pass with its path claimed, and goes on from there. No pass before
that one can fail or reads the cache. -/
theorem run_convertFile (loaded : context.library.load path = .ok text)
    (rootSelector : Option Text) :
    (convertFile path rootSelector).run.run context =
      let pass := Call.ofSheet context path text
      (Conversion.resolveImports none pass.text >>= finish rootSelector).run.run
        { pass.context with cache := (context.cache.claim path).2 } := by
  have passes : preprocess text = Pass.runAll
      (.newlines :: .literals :: .comments :: .imports :: Pass.pipeline.drop 4) text := rfl
  have sheet : loadSheet context.library path = .ok text := by rw [loadSheet, loaded]
  rw [convertFile]
  refine (run_bind_of_ok rfl).trans ((run_bind_of_ok rfl).trans ?_)
  dsimp only
  rw [sheet]
  refine (run_bind_of_ok rfl).trans ?_
  rw [convert, passes]
  refine (Pass.run_runAll_cons_bind rfl _).trans ((Pass.run_runAll_cons_bind rfl _).trans
    ((Pass.run_runAll_cons_bind rfl _).trans ?_))
  rw [Pass.runAll_cons, bind_assoc]
  rfl

/-- A sheet that imports the last segment of its own path. The import resolves to the path without
the slashes at its front. If there are none, then that is the claimed path of the sheet itself, and
the import is passed over: it contributes nothing, and the library is not asked. If the path is
rooted, then the library is asked for the path without the slashes, unless that was claimed before
the conversion. -/
theorem convertFile_selfImport (held : context.library = Library.ofTable resources)
    (loaded : context.library.load path = .ok text) (last : Path.LastSegment path segment)
    (sheet : Path.isSheet segment = true) (unmarked : segment.head? ≠ some '_')
    (rootSelector : Option Text) :
    let pass := Call.ofSheet context path text
    let cache := (context.cache.claim path).2
    let identifier := Path.resolve (some path) (Path.withoutMark segment)
    (convertFile path rootSelector).run.run context =
      (Conversion.resolveImports none pass.text >>= finish rootSelector).run.run
        { pass.context with cache } ∧
    identifier = path.dropWhile (· = '/') ∧
    ∀ before statement rest, pass.text = before ++ (statement ++ rest) →
      ImportOf pass.context.vault segment statement rest →
      (path.head? ≠ some '/' →
        identifier = path ∧ path ∈ cache.claimed ∧ path ∉ pass.requests cache ∧
        pass.run cache = (resolveAround ⟨context.library, context.options.nestedComments⟩
          (some path) before statement rest).run.run ⟨pass.context.vault, cache, [], []⟩) ∧
      ∀ result, (pass.run cache).1 = .ok result →
        (identifier ∈ pass.requests cache ↔
          path.head? = some '/' ∧ identifier ∉ context.cache.claimed) := by
  intro pass cache identifier
  have resolved : identifier = path.dropWhile (· = '/') :=
    (congrArg _ (Path.withoutMark_of_head?_ne unmarked)).trans last.resolve_eq
  have own : path ∈ cache.claimed := mem_claimed_claim.mpr (.inl rfl)
  have library : pass.context.library = Library.ofTable resources := held
  refine ⟨run_convertFile loaded rootSelector, resolved, ?_⟩
  intro before statement rest split imported
  refine ⟨fun relative => ?_, fun result ended => ?_⟩
  · have same : identifier = path := resolved.trans (Path.dropWhile_slash_eq_self_iff.mpr relative)
    have claimed : identifier ∈ cache.claimed := by rwa [same]
    refine ⟨same, own, fun requested => ?_, ?_⟩
    · exact (Call.claims_answer library cache).1.fresh path requested own
    · rw [Call.run, split]
      exact run_resolveAll_of_claimed held imported sheet claimed
  · have met : identifier ∈ (pass.answer cache).2.cache.claimed := by
      rcases ran : pass.run cache with ⟨ending, final⟩
      rw [ran] at ended
      cases ended
      rw [Call.answer_eq, ran]
      rw [Call.run, split] at ran
      exact mem_claimed_of_resolveAll held ⟨pass.context.vault, cache, [], []⟩ imported sheet ran
    rw [Call.mem_requests_iff library cache, and_iff_right met, mem_claimed_claim,
      not_or, resolved, Path.dropWhile_slash_eq_self_iff, not_not]

/-- After another import, the sheet imports itself; only the other one is asked for. -/
theorem convertFile_selfImport_relative :
    let resources : Table Resource := Table.ofList
      [("css/a.scss".toList, .text "@import 'b.scss';\n@import 'a.scss'; x: y;".toList),
        ("css/b.scss".toList, .text "@import 'a.scss'; z: y;".toList)]
    let context := Context.start none .default Plugins.none (.ofTable resources) .empty
    let path := "css/a.scss".toList
    let text := "@import 'b.scss';\n@import 'a.scss'; x: y;".toList
    let pass := Call.ofSheet context path text
    let cache : Cache := ⟨[path]⟩
    let before := "@import ".toList ++ Vault.placeholder 1 ++ [';', '\n']
    let statement := "@import ".toList ++ Vault.placeholder 2 ++ [';']
    let rest := " x: y;".toList
    pass.text = before ++ (statement ++ rest) ∧
      ImportOf pass.context.vault "a.scss" statement rest ∧
      path ∉ pass.requests cache ∧
      pass.run cache = (resolveAround ⟨context.library, false⟩ (some path) before statement
        rest).run.run ⟨pass.context.vault, cache, [], []⟩ ∧
      ((convertFile path none).run.run context).1 = .ok "z: y;\nx: y;\n".toList := by
  intro resources context path text pass cache before statement rest
  have last : Path.LastSegment path "a.scss" := ⟨by decide, .inr ⟨"css".toList, rfl⟩⟩
  have imported : ImportOf pass.context.vault "a.scss" statement rest :=
    ⟨"2".toList, "'a.scss'".toList, by decide +kernel, by decide +kernel, by decide +kernel,
      by decide +kernel⟩
  have split : pass.text = before ++ (statement ++ rest) := by decide +kernel
  have held : context.library = Library.ofTable resources := rfl
  have loaded : context.library.load path = .ok text := by decide +kernel
  obtain ⟨_, _, imports⟩ :=
    convertFile_selfImport held loaded last (by decide +kernel) (by decide) none
  obtain ⟨passed, _⟩ := imports before statement rest split imported
  obtain ⟨_, _, unasked, ran⟩ := passed (by decide)
  exact ⟨split, imported, unasked, ran, by decide +kernel⟩

/-- Under a rooted path a sheet brings itself in again, if the library has it without the slash. -/
theorem convertFile_selfImport_rooted :
    let sheet := "@import 'a.scss'; x \x7b y: z; \x7d".toList
    let context := Context.start none .default Plugins.none (.ofTable (Table.ofList
      [("/css/a.scss".toList, .text sheet), ("css/a.scss".toList, .text sheet)])) .empty
    let path := "/css/a.scss".toList
    (path = "/css".toList ++ '/' :: "a.scss".toList ∧ Path.isSheet "a.scss" = true) ∧
      Path.resolve (some path) "a.scss" = "css/a.scss".toList ∧
      (Call.ofSheet context path sheet).requests (context.cache.claim path).2 =
        ["css/a.scss".toList] ∧
      ((convertFile path none).run.run context).1 =
        .ok "x \x7b y: z; \x7d\nx \x7b y: z; \x7d\n".toList := by
  decide +kernel

end Flatsheet
