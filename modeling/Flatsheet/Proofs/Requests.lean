import Flatsheet.Proofs.ImportNesting
import Flatsheet.Proofs.Noninterference

/-!
What libraries are asked for. An identifier is claimed before it is asked for, and stays claimed, so
however resources import one another, and whichever calls share a cache, none is asked for twice.
Every request that fails is reported once.
-/

namespace Flatsheet

namespace Vault

/-- Every placeholder of the text is read and has its literal. -/
def Covers (vault : Vault) (text : Text) : Prop :=
  ∀ tail ∈ text.tails, ∀ digits left, placeholder? tail = some (digits, left) →
    isRead digits = true ∧ (vault.get? (indexOf digits)).isSome

variable {vault : Vault} {text : Text}

theorem covers_iff_restore :
    vault.Covers text ↔ ∃ restored, vault.restore text = .ok restored := restore_ok_iff.symm

theorem Covers.of_intact {alone : Prop} {low : Nat} (intact : Intact alone low vault.size text) :
    vault.Covers text := covers_iff_restore.mpr (restore_of_intact intact)

theorem Covers.of_infix {before after : Text} (covers : vault.Covers (before ++ (text ++ after))) :
    vault.Covers text := by
  intro tail member digits left found
  obtain ⟨rfl, nonempty, decimal⟩ := placeholder?_eq_some.mp found
  obtain ⟨front, rfl⟩ := (List.mem_tails _ _).mp member
  refine covers (openMark :: (digits ++ closeMark :: (left ++ after))) ?_ digits (left ++ after)
    (placeholder?_eq_some.mpr ⟨rfl, nonempty, decimal⟩)
  exact (List.mem_tails _ _).mpr ⟨before ++ front, by simp⟩

theorem Covers.grow {later : Vault} (covers : vault.Covers text)
    (grown : vault.literals <+: later.literals) : later.Covers text := by
  intro tail member digits left found
  obtain ⟨read, here⟩ := covers tail member digits left found
  refine ⟨read, ?_⟩
  obtain ⟨added, split⟩ := grown
  by_cases inside : 0 ≤ indexOf digits
  · rw [get?_of_nonneg inside, Option.isSome_iff_ne_none, ne_eq, List.getElem?_eq_none_iff] at here ⊢
    rw [← split, List.length_append]
    omega
  · have below : indexOf digits < 0 := by omega
    rw [get?_indexOf_of_neg below, List.getLast?_isSome] at here ⊢
    simp [← split, here]

end Vault

namespace Import

open Vault Pattern

variable {library : Library} {resources : Table Resource} {source : Source} {bound : Nat}

theorem numbered_of_covers {vault : Vault} {statement digits rest : Text}
    (found : statement? (statement ++ rest) = some (digits, rest))
    (covers : vault.Covers statement) : ∃ literal, vault.numbered digits = .ok literal := by
  obtain ⟨blanks, ending, _, nonempty, decimal, _, shape⟩ := statement?_eq_some found
  have split : statement = "@import".toList ++ blanks ++
      openMark :: (digits ++ closeMark :: ending) := List.append_cancel_right (by simpa using shape)
  refine numbered_ok_iff.mpr (covers _ ?_ digits ending
    (placeholder?_eq_some.mpr ⟨rfl, nonempty, decimal⟩))
  exact (List.mem_tails _ _).mpr ⟨"@import".toList ++ blanks, split.symm⟩

/-- What is reported if the library has no text for the identifier. -/
def failure? (library : Library) (identifier : Text) : Option Problem :=
  match library.load identifier with
  | .error error => some (.notLoaded error.message)
  | .ok _ => none

/-- The cache grew by these identifiers, each of them free until then. -/
structure Claims (asked : List Text) (before after : Cache) : Prop where
  once : asked.Nodup
  fresh : ∀ identifier ∈ asked, identifier ∉ before.claimed
  claimed : after.claimed = asked.reverse ++ before.claimed

namespace Claims

theorem refl (cache : Cache) : Claims [] cache cache := by
  constructor <;> simp

theorem trans {asked more : List Text} {before middle after : Cache}
    (first : Claims asked before middle) (second : Claims more middle after) :
    Claims (asked ++ more) before after := by
  have apart : ∀ identifier ∈ more, identifier ∉ asked ∧ identifier ∉ before.claimed := by
    intro identifier member
    simpa [first.claimed] using second.fresh identifier member
  refine ⟨first.once.append second.once fun identifier early late => ?_, ?_, ?_⟩
  · exact (apart identifier late).1 early
  · intro identifier member
    rcases List.mem_append.mp member with early | late
    · exact first.fresh identifier early
    · exact (apart identifier late).2
  · rw [second.claimed, first.claimed, List.reverse_append, List.append_assoc]

theorem card_vacant_le {asked : List Text} {before after : Cache}
    (claims : Claims asked before after) (resources : Table Resource) :
    (vacant resources after).card ≤ (vacant resources before).card := by
  refine Finset.card_le_card fun name member => ?_
  obtain ⟨known, free⟩ := mem_vacant.mp member
  refine mem_vacant.mpr ⟨known, fun claimed => free ?_⟩
  simp [claims.claimed, claimed]

end Claims

/-- Between the two states the library was asked for these identifiers. They have been claimed, and
nothing but them; what failed has been reported, and nothing but that. -/
structure Logged (library : Library) (asked : List Text) (start final : State) : Prop where
  claims : Claims asked start.cache final.cache
  requests : final.requests = start.requests ++ asked
  problems : final.notices.map Notice.problem =
    start.notices.map Notice.problem ++ asked.filterMap (failure? library)
  literals : start.vault.literals <+: final.vault.literals

namespace Logged

theorem refl (library : Library) (state : State) : Logged library [] state state :=
  ⟨.refl state.cache, by simp, by simp, List.prefix_refl _⟩

theorem trans {asked more : List Text} {start middle final : State}
    (first : Logged library asked start middle) (second : Logged library more middle final) :
    Logged library (asked ++ more) start final := by
  refine ⟨first.claims.trans second.claims, ?_, ?_, first.literals.trans second.literals⟩
  · rw [second.requests, first.requests, List.append_assoc]
  · rw [second.problems, first.problems, List.filterMap_append, List.append_assoc]

theorem single {state : State} {identifier : Text} {vault : Vault} {notices : List Notice}
    (free : ¬ state.cache.contains identifier = true)
    (grown : state.vault.literals <+: vault.literals)
    (reported : notices.map Notice.problem =
      state.notices.map Notice.problem ++ [identifier].filterMap (failure? library)) :
    Logged library [identifier] state { state with
      vault, notices
      cache := ⟨identifier :: state.cache.claimed⟩
      requests := state.requests ++ [identifier] } := by
  refine ⟨⟨List.nodup_singleton identifier, ?_, rfl⟩, rfl, reported, grown⟩
  simpa [Cache.contains] using free

theorem lift {state : State} {identifier text : Text}
    (free : ¬ state.cache.contains identifier = true)
    (loaded : library.load identifier = .ok text) :
    Logged library [identifier] state ((state.ask identifier).lift text) :=
  .single free (literals_prefix_protect _ _) (by simp [failure?, loaded, State.ask])

end Logged

/-- With fewer than `bound` names vacant, a run is logged however it ends, and a covered text is
resolved. -/
def Answers (resources : Table Resource) (bound : Nat) (resolve : Text → ImportM Text) : Prop :=
  ∀ text state, (vacant resources state.cache).card < bound →
    ∃ result final asked, (resolve text).run.run state = (result, final) ∧
      Logged (Library.ofTable resources) asked state final ∧
      (state.vault.Covers text → ∃ resolved, result = .ok resolved)

theorem prepared_covers {identifier text : Text} (clean : resources.All Resource.Clean)
    (loaded : Library.loadFrom resources identifier = .ok text) (vault : Vault) (nested : Bool) :
    (vault.protect text.unifyNewlines).2.Covers
      (Comment.strip nested (vault.protect text.unifyNewlines).1) := by
  have unmarked : Intact False 0 vault.size text :=
    .of_unmarked (unmarked_of_loadFrom clean loaded)
  exact .of_intact
    (Comment.strip_intact nested (protect_intact (Nat.zero_le _) (Text.unifyNewlines_intact unmarked)))

theorem answers_bringIn {inline : Text → Text → ImportM Text} {state : State} {statement : Text}
    (clean : resources.All Resource.Clean) (library : source.library = Library.ofTable resources)
    (inlines : ∀ identifier, Answers resources bound (inline identifier))
    (few : (vacant resources state.cache).card ≤ bound)
    (restores : ∃ construct, state.vault.restore statement = .ok construct)
    (line : Nat) (identifier : Text) :
    ∃ result final asked,
      bringIn source inline line statement identifier state = (.ok result, final) ∧
      Logged (Library.ofTable resources) asked state final := by
  by_cases claimed : state.cache.contains identifier = true
  · rw [bringIn_of_claimed claimed]
    exact ⟨[], state, [], rfl, .refl _ state⟩
  · cases loaded : source.library.load identifier with
    | ok text =>
        rw [bringIn_of_ok claimed loaded]
        rw [library] at loaded
        obtain ⟨result, final, asked, ran, second, ends⟩ := inlines identifier
          (Comment.strip source.nestedComments (state.vault.protect text.unifyNewlines).1)
          ((state.ask identifier).lift text)
          (Nat.lt_of_lt_of_le (card_vacant_claim_lt loaded claimed) few)
        obtain ⟨resolved, rfl⟩ :=
          ends (prepared_covers clean loaded state.vault source.nestedComments)
        exact ⟨resolved, final, _, ran, (Logged.lift claimed loaded).trans second⟩
    | error error =>
        rw [bringIn_of_error claimed loaded]
        rw [library] at loaded
        obtain ⟨whole, restored⟩ := restores
        rcases leaveOut_cases loaded line statement (state.ask identifier) with
          ⟨fault, failed, _⟩ | ⟨construct, _, out⟩
        · exact absurd (failed.symm.trans restored) (by simp)
        · exact ⟨[], _, [identifier], out,
            .single claimed (List.prefix_refl _) (by simp [failure?, loaded, State.ask])⟩

theorem answers_resolveLevel {inline : Text → Text → ImportM Text}
    (clean : resources.All Resource.Clean) (library : source.library = Library.ofTable resources)
    (inlines : ∀ identifier, Answers resources bound (inline identifier)) (base : Option Text) :
    Answers resources (bound + 1) (resolveLevel source inline base) := by
  intro text state few
  have keeps : Keeps (fun next => ∃ asked, Logged (Library.ofTable resources) asked state next)
      (fun _ next => (∃ asked, Logged (Library.ofTable resources) asked state next) ∧
        ¬ state.vault.Covers text) (resolveLevel source inline base text) := by
    refine Keeps.replaceM statement?_proper ?_
    rintro line before statement digits rest split found next ⟨asked, logged⟩
    cases numbered : next.vault.numbered digits with
    | error fault =>
        rw [run_replaceImport_of_error numbered]
        refine .inr ⟨_, next, rfl, ⟨asked, logged⟩, fun covers => ?_⟩
        rw [split] at covers
        obtain ⟨literal, stored⟩ :=
          numbered_of_covers found (covers.of_infix.grow logged.literals)
        exact absurd (numbered.symm.trans stored) (by simp)
    | ok literal =>
        rw [run_replaceImport_of_ok numbered]
        by_cases sheet : Path.isSheet (unquote literal) = true
        · obtain ⟨keyword, ending, restored⟩ := restore_statement found
          have restores : next.vault.restore statement = .ok (keyword ++ (literal ++ ending)) := by
            rw [restored, numbered]
            rfl
          have fewer := logged.claims.card_vacant_le resources
          obtain ⟨result, final, more, ran, here⟩ := answers_bringIn clean library inlines
            (by omega) ⟨_, restores⟩ line (Path.resolve base (Path.withoutMark (unquote literal)))
          rw [if_pos sheet]
          exact .inl ⟨result, final, ran, asked ++ more, logged.trans here⟩
        · rw [if_neg sheet]
          exact .inl ⟨statement, next, rfl, asked, logged⟩
  rcases keeps ⟨[], .refl _ state⟩ with
    ⟨resolved, final, ran, asked, logged⟩ | ⟨fault, final, ran, ⟨asked, logged⟩, uncovered⟩
  · exact ⟨.ok resolved, final, asked, ran, logged, fun _ => ⟨resolved, rfl⟩⟩
  · exact ⟨.error fault, final, asked, ran, logged, fun covers => absurd covers uncovered⟩

theorem answers_resolveAll {text : Text} {state : State} (clean : resources.All Resource.Clean)
    (library : source.library = Library.ofTable resources) (base : Option Text) :
    ∃ result final asked, (resolveAll source base text).run.run state = (result, final) ∧
      Logged (Library.ofTable resources) asked state final ∧
      (state.vault.Covers text → ∃ resolved, result = .ok resolved) := by
  rw [← run_resolveWithin library (Nat.le_refl _)]
  refine resolveWithin_induction (motive := Answers resources) ?_ ?_ _ base text state
    (Nat.lt_succ_self _)
  · intro resolve text state none
    exact absurd none (by omega)
  · intro bound inline base inlines
    exact answers_resolveLevel clean library inlines base

/-- A text whose imports are to be resolved, with a context of its own but for the cache. -/
structure Call where
  context : Context
  base : Option Text
  text : Text

namespace Call

/-- The run of the call, with the log that its answer does not show. -/
def run (call : Call) (cache : Cache) : Except Fault Text × State :=
  (resolveAll ⟨call.context.library, call.context.options.nestedComments⟩
    (call.base <|> call.context.basePath) call.text).run.run ⟨call.context.vault, cache, [], []⟩

def requests (call : Call) (cache : Cache) : List Text := (call.run cache).2.requests

def answer (call : Call) (cache : Cache) : Except Fault Text × Context :=
  (Conversion.resolveImports call.base call.text).run.run { call.context with cache }

theorem answer_eq (call : Call) (cache : Cache) :
    call.answer cache = ((call.run cache).1,
      { call.context.report (call.run cache).2.notices with
        vault := (call.run cache).2.vault
        cache := (call.run cache).2.cache }) := rfl

/-- The library is a table without marks. -/
def Served (call : Call) : Prop :=
  ∃ resources : Table Resource,
    resources.All Resource.Clean ∧ call.context.library = Library.ofTable resources

theorem Served.answer {call : Call} (served : call.Served) (cache : Cache) :
    ∃ result context added, call.answer cache = (result, context) ∧
      Claims (call.requests cache) cache context.cache ∧
      context.diagnostics = call.context.diagnostics ++ added ∧
      added.map (·.notice.problem) =
        (call.requests cache).filterMap (failure? call.context.library) ∧
      (call.context.vault.Covers call.text → ∃ text, result = .ok text) := by
  obtain ⟨resources, clean, library⟩ := served
  have ends : ∃ result final asked, call.run cache = (result, final) ∧
      Logged (Library.ofTable resources) asked ⟨call.context.vault, cache, [], []⟩ final ∧
      (call.context.vault.Covers call.text → ∃ text, result = .ok text) :=
    answers_resolveAll clean library _
  obtain ⟨result, final, asked, ran, logged, covered⟩ := ends
  have requests : call.requests cache = asked := by
    rw [Call.requests, ran]
    exact logged.requests
  rw [answer_eq, requests, ran, library]
  refine ⟨result, _, final.notices.map fun notice => ⟨call.context.source, notice⟩, rfl,
    logged.claims, rfl, ?_, covered⟩
  simpa [Function.comp_def] using logged.problems

end Call

/-- The cache after the calls, made one after the other. -/
def cacheAfter (cache : Cache) (calls : List Call) : Cache :=
  calls.foldl (fun cache call => (call.answer cache).2.cache) cache

/-- What the libraries are asked for over all the calls. -/
def requestsOf : Cache → List Call → List Text
  | _, [] => []
  | cache, call :: calls =>
      call.requests cache ++ requestsOf (call.answer cache).2.cache calls

theorem claims_requestsOf {calls : List Call} (served : ∀ call ∈ calls, call.Served)
    (cache : Cache) : Claims (requestsOf cache calls) cache (cacheAfter cache calls) := by
  induction calls generalizing cache with
  | nil => exact .refl cache
  | cons call calls ih =>
      obtain ⟨result, context, _, answer, claims, _⟩ := (served call (by simp)).answer cache
      have next : (call.answer cache).2.cache = context.cache := by rw [answer]
      have later := ih (fun other member => served other (by simp [member])) context.cache
      rw [requestsOf, cacheAfter, List.foldl_cons, next]
      exact claims.trans later

/-- Calls that share a cache never ask for an identifier twice, nor for one that was claimed before.
The cache grows by exactly what was asked for. Every call, even one that faults, adds one diagnostic
for each of its requests that failed and no other: an import of what is claimed adds none. A call
succeeds if its text is covered. -/
theorem requests_once {calls : List Call} (served : ∀ call ∈ calls, call.Served) (cache : Cache) :
    (requestsOf cache calls).Nodup ∧
    (∀ identifier ∈ requestsOf cache calls, identifier ∉ cache.claimed) ∧
    (cacheAfter cache calls).claimed = (requestsOf cache calls).reverse ++ cache.claimed ∧
    ∀ before call after, calls = before ++ call :: after →
      ∃ result context added, call.answer (cacheAfter cache before) = (result, context) ∧
        context.diagnostics = call.context.diagnostics ++ added ∧
        added.map (·.notice.problem) = (call.requests (cacheAfter cache before)).filterMap
          (failure? call.context.library) ∧
        (call.context.vault.Covers call.text → ∃ text, result = .ok text) := by
  have claims := claims_requestsOf served cache
  refine ⟨claims.once, claims.fresh, claims.claimed, ?_⟩
  rintro before call after rfl
  obtain ⟨result, context, added, answer, _, rest⟩ :=
    (served call (by simp)).answer (cacheAfter cache before)
  exact ⟨result, context, added, answer, rest⟩

/-- A circle, an empty resource, one that fails and one that is not there; then a second call with
another library, which asks only for what is new and must leave out what is claimed. -/
theorem requests_once_circle :
    let resources : Table Resource := Table.ofList
      [("a.scss".toList, .text "@import 'b.scss'; @import 'c.scss'; @import 'a.scss';".toList),
        ("b.scss".toList, .nothing), ("f.scss".toList, .failing "down".toList)]
    let others : Table Resource := Table.ofList
      [("a.scss".toList, .text "x".toList), ("e.scss".toList, .text "y".toList)]
    let first : Call := ⟨{ Context.start none .default Plugins.none (.ofTable resources) .empty with
      vault := ⟨["'a.scss'".toList, "'f.scss'".toList]⟩ }, none,
      "@import ".toList ++ placeholder 1 ++ "; @import ".toList ++ placeholder 2⟩
    let second : Call := ⟨{ Context.start none .default Plugins.none (.ofTable others) .empty with
      vault := ⟨["'a.scss'".toList, "'e.scss'".toList]⟩ }, some "m".toList,
      openMark :: "@import ".toList ++ placeholder 2 ++ "; @import ".toList ++ placeholder 1⟩
    (∀ call ∈ [first, second], call.Served ∧ call.context.vault.Covers call.text) ∧
      requestsOf .empty [first, second] =
        ["a.scss".toList, "b.scss".toList, "c.scss".toList, "f.scss".toList, "e.scss".toList] ∧
      (requestsOf .empty [first, second]).Nodup ∧
      (cacheAfter .empty [first, second]).claimed =
        (requestsOf .empty [first, second]).reverse ++ [] ∧
      ∃ text context added, first.answer .empty = (.ok text, context) ∧
        context.diagnostics = added ∧
        added.map (·.notice.problem) =
          [.notLoaded "failed to load: c.scss".toList, .notLoaded "down".toList] := by
  intro resources others first second
  have served : ∀ call ∈ [first, second], call.Served ∧ call.context.vault.Covers call.text := by
    refine List.forall_mem_cons.mpr ⟨⟨⟨resources, by decide +kernel, rfl⟩, ?_⟩,
      List.forall_mem_singleton.mpr ⟨⟨others, by decide +kernel, rfl⟩, ?_⟩⟩
    · exact covers_iff_restore.mpr ⟨"@import 'a.scss'; @import 'f.scss'".toList, by decide +kernel⟩
    · exact covers_iff_restore.mpr
        ⟨openMark :: "@import 'e.scss'; @import 'a.scss'".toList, by decide +kernel⟩
  obtain ⟨once, _, claimed, answers⟩ :=
    requests_once (fun call member => (served call member).1) .empty
  obtain ⟨_, context, added, answer, diagnostics, problems, covered⟩ :=
    answers [] first [second] rfl
  obtain ⟨text, rfl⟩ := covered (served first (by simp)).2
  have failed : (first.requests .empty).filterMap (failure? first.context.library) =
      [.notLoaded "failed to load: c.scss".toList, .notLoaded "down".toList] := by decide +kernel
  exact ⟨served, by decide +kernel, once, claimed, text, context, added, answer, diagnostics,
    problems.trans failed⟩

end Import

end Flatsheet
