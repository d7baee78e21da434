import Flatsheet.Proofs.Requests

/-!
What a run of imports leaves claimed. An identifier is claimed before its text is asked for, and the
claim stays when there is none; so the cache does not tell what was loaded from what failed, and
whatever was asked for once is passed over from then on. An import that is passed over leaves the
run as if its place were a gap in the text.
-/

namespace Flatsheet

namespace Vault

theorem placeholder?_append_mark {mark : Char} (digit : isDecimalDigit mark = false)
    (opens : mark ≠ openMark) (closes : mark ≠ closeMark) (start rest : Text) :
    placeholder? (start ++ mark :: rest) =
      (placeholder? start).map (Prod.map id (· ++ mark :: rest)) := by
  cases start with
  | nil => exact placeholder?_of_ne opens
  | cons c start =>
      by_cases opened : c = openMark
      · simp only [List.cons_append, placeholder?, if_pos opened,
          Text.run?_append_mark rest digit start]
        rcases Text.run? isDecimalDigit start with _ | ⟨digits, _ | ⟨d, left⟩⟩
        · rfl
        · simp [closes]
        · by_cases closed : d = closeMark <;> simp [closed]
      · rw [List.cons_append, placeholder?_of_ne opened, placeholder?_of_ne opened]
        rfl

end Vault

namespace Import

open Vault Pattern

/-- No import runs into another one. -/
theorem statement?_haltsAt : HaltsAt statement? '@' := by
  intro start rest nonempty
  obtain ⟨c, start, rfl⟩ := List.exists_cons_of_ne_nil nonempty
  have trimmed := Text.trimLeft_append_mark rest (by decide : isBlank '@' = false)
  by_cases keyed : '@' = c
  · subst keyed
    have keyword (text : Text) : Text.dropPrefix? "@import" ('@' :: text) =
        Text.dropPrefix? "import" text := rfl
    simp only [statement?, List.cons_append, keyword,
      Text.dropPrefix?_append_mark rest (by decide : '@' ∉ "import".toList)]
    cases Text.dropPrefix? "import" start with
    | none => rfl
    | some after =>
        simp only [Option.map_some, Option.bind_eq_bind, Option.bind_some, trimmed,
          placeholder?_append_mark (by decide +kernel : isDecimalDigit '@' = false) (by decide)
            (by decide)]
        cases placeholder? after.trimLeft with
        | none => rfl
        | some found =>
            obtain ⟨digits, left⟩ := found
            simp only [Option.map_some, Option.bind_some, Prod.map_apply, id, trimmed]
            rcases left.trimLeft with _ | ⟨d, more⟩
            · rfl
            · by_cases ends : d = ';'
              · subst ends
                rfl
              · rw [List.cons_append]
                split
                · simp_all
                · split
                  · simp_all
                  · rfl
  · have other (text : Text) : Text.dropPrefix? "@import" (c :: text) = none := if_neg keyed
    simp only [statement?, List.cons_append, other]
    rfl

variable {resources : Table Resource} {library : Library} {source : Source}

/-- Between the two states the library was asked for these identifiers. They have been claimed, and
nothing but them. -/
structure Asked (asked : List Text) (start final : State) : Prop where
  claims : Claims asked start.cache final.cache
  requests : final.requests = start.requests ++ asked
  literals : start.vault.literals <+: final.vault.literals

namespace Asked

variable {asked more : List Text} {start middle final : State}

theorem of_logged (logged : Logged library asked start final) : Asked asked start final :=
  ⟨logged.claims, logged.requests, logged.literals⟩

theorem trans (first : Asked asked start middle) (second : Asked more middle final) :
    Asked (asked ++ more) start final := by
  refine ⟨first.claims.trans second.claims, ?_, first.literals.trans second.literals⟩
  rw [second.requests, first.requests, List.append_assoc]

theorem ask {state : State} {identifier : Text} (free : ¬ state.cache.contains identifier = true) :
    Asked [identifier] state (state.ask identifier) := by
  refine ⟨⟨List.nodup_singleton identifier, ?_, rfl⟩, rfl, List.prefix_refl _⟩
  simpa [Cache.contains] using free

theorem claimed (asked : Asked asked start final) {identifier : Text}
    (member : identifier ∈ start.cache.claimed) : identifier ∈ final.cache.claimed := by
  rw [asked.claims.claimed]
  exact List.mem_append_right _ member

end Asked

/-- A run that ends well is logged, and one that faults has claimed what it asked for. -/
def Records (library : Library) (program : ImportM Text) : Prop :=
  ∀ start, Keeps (fun next => ∃ asked, Logged library asked start next)
    (fun _ next => ∃ asked, Asked asked start next) program

theorem records_throw (fault : Fault) : Records library (throw fault) := by
  rintro start next ⟨asked, logged⟩
  exact .inr ⟨fault, next, rfl, asked, .of_logged logged⟩

/-- An identifier is claimed before it is loaded, so the claim is there even if the load faults. -/
theorem records_bringIn {inline : Text → Text → ImportM Text} {start next : State}
    {asked : List Text} (held : source.library = Library.ofTable resources)
    (inlines : ∀ identifier text, Records (Library.ofTable resources) (inline identifier text))
    (logged : Logged (Library.ofTable resources) asked start next) (line : Nat)
    (statement identifier : Text) :
    (∃ result final, bringIn source inline line statement identifier next = (.ok result, final) ∧
      ∃ asked, Logged (Library.ofTable resources) asked start final) ∨
    ∃ fault final, bringIn source inline line statement identifier next = (.error fault, final) ∧
      ∃ asked, Asked asked start final := by
  by_cases claimed : next.cache.contains identifier = true
  · rw [bringIn_of_claimed claimed]
    exact .inl ⟨[], next, rfl, asked, logged⟩
  · cases loaded : source.library.load identifier with
    | ok text =>
        rw [bringIn_of_ok claimed loaded]
        rw [held] at loaded
        exact inlines identifier _ start ⟨_, logged.trans (.lift claimed loaded)⟩
    | error error =>
        rw [bringIn_of_error claimed loaded]
        rw [held] at loaded
        rcases leaveOut_cases loaded line statement (next.ask identifier) with
          ⟨fault, _, out⟩ | ⟨construct, _, out⟩
        · exact .inr ⟨_, _, out, _, (Asked.of_logged logged).trans (.ask claimed)⟩
        · exact .inl ⟨[], _, out, _, logged.trans (.single claimed (List.prefix_refl _)
            (by simp [failure?, loaded, State.ask]))⟩

theorem records_replaceImport {inline : Text → Text → ImportM Text}
    (held : source.library = Library.ofTable resources)
    (inlines : ∀ identifier text, Records (Library.ofTable resources) (inline identifier text))
    (base : Option Text) (line : Nat) (digits statement : Text) :
    Records (Library.ofTable resources)
      (replaceImport source inline base line digits statement) := by
  rintro start next ⟨asked, logged⟩
  cases found : next.vault.numbered digits with
  | error fault =>
      rw [run_replaceImport_of_error found]
      exact .inr ⟨_, next, rfl, asked, .of_logged logged⟩
  | ok literal =>
      rw [run_replaceImport_of_ok found]
      by_cases sheet : Path.isSheet (unquote literal) = true
      · rw [if_pos sheet]
        exact records_bringIn held inlines logged line statement _
      · rw [if_neg sheet]
        exact .inl ⟨statement, next, rfl, asked, logged⟩

theorem records_resolveWithin (held : source.library = Library.ofTable resources) (depth : Nat)
    (base : Option Text) (text : Text) :
    Records (Library.ofTable resources) (resolveWithin source depth base text) := by
  induction depth generalizing base text with
  | zero =>
      exact fun start => Keeps.replaceM statement?_proper fun line _ statement digits _ _ _ =>
        records_replaceImport held (fun _ _ => records_throw _) base line digits statement start
  | succ depth ih =>
      exact fun start => Keeps.replaceM statement?_proper fun line _ statement digits _ _ _ =>
        records_replaceImport held (fun identifier => ih (some identifier)) base line digits
          statement start

theorem records_resolveAll (held : source.library = Library.ofTable resources)
    (base : Option Text) (text : Text) :
    Records (Library.ofTable resources) (resolveAll source base text) :=
  records_resolveWithin held _ base text

theorem Records.asked {program : ImportM Text} (records : Records library program)
    (state : State) : ∃ asked, Asked asked state (program.run.run state).2 ∧
      ∀ result, (program.run.run state).1 = .ok result →
        Logged library asked state (program.run.run state).2 := by
  rcases records state ⟨[], .refl library state⟩ with
    ⟨result, final, ran, asked, logged⟩ | ⟨fault, final, ran, asked, claims⟩
  · rw [ran]
    exact ⟨asked, .of_logged logged, fun _ _ => logged⟩
  · rw [ran]
    exact ⟨asked, claims, fun _ never => by cases never⟩

theorem mem_claimed_bringIn {inline : Text → Text → ImportM Text}
    (held : source.library = Library.ofTable resources)
    (inlines : ∀ identifier text, Records (Library.ofTable resources) (inline identifier text))
    (line : Nat) (statement identifier : Text) (state : State) :
    identifier ∈ (bringIn source inline line statement identifier state).2.cache.claimed := by
  by_cases claimed : state.cache.contains identifier = true
  · rw [bringIn_of_claimed claimed]
    simpa [Cache.contains] using claimed
  · cases loaded : source.library.load identifier with
    | ok text =>
        rw [bringIn_of_ok claimed loaded]
        obtain ⟨asked, run, _⟩ := (inlines identifier _).asked ((state.ask identifier).lift text)
        exact run.claimed List.mem_cons_self
    | error error =>
        rw [bringIn_of_error claimed loaded]
        rw [held] at loaded
        rcases leaveOut_cases loaded line statement (state.ask identifier) with
          ⟨fault, _, out⟩ | ⟨construct, _, out⟩
        · rw [out]
          exact List.mem_cons_self
        · rw [out]
          exact List.mem_cons_self

/-- In front of the rest, the statement imports this path. -/
def ImportOf (vault : Vault) (path statement rest : Text) : Prop :=
  ∃ digits literal, statement? (statement ++ rest) = some (digits, rest) ∧
    0 ≤ indexOf digits ∧ vault.numbered digits = .ok literal ∧ unquote literal = path

/-- The imports of a text that begins on this line, resolved. -/
def resolveFrom (source : Source) (base : Option Text) (line : Nat) (text : Text) : ImportM Text :=
  replacePieces (replaceImport source (fun identifier => resolveAll source (some identifier)) base)
    line (statement?.cut text)

/-- The imports of two texts, resolved one after the other, with a gap of some lines between. -/
def resolveAround (source : Source) (base : Option Text) (before gap rest : Text) :
    ImportM Text := do
  let first ← resolveFrom source base 1 before
  let last ← resolveFrom source base (1 + Text.newlines before + Text.newlines gap) rest
  return first ++ last

theorem records_resolveFrom (held : source.library = Library.ofTable resources)
    (base : Option Text) (line : Nat) (text : Text) :
    Records (Library.ofTable resources) (resolveFrom source base line text) :=
  fun start => Keeps.replacePieces (fun line digits statement _ => records_replaceImport held
    (fun identifier => records_resolveAll held (some identifier)) base line digits statement start)
    line

theorem numbered_of_grown {vault later : Vault} {digits literal : Text}
    (grown : vault.literals <+: later.literals) (place : 0 ≤ indexOf digits)
    (numbered : vault.numbered digits = .ok literal) : later.numbered digits = .ok literal := by
  obtain ⟨read, stored⟩ := numbered_eq_ok_iff.mp numbered
  refine numbered_eq_ok_iff.mpr ⟨read, ?_⟩
  rw [get?_of_nonneg place] at stored ⊢
  obtain ⟨added, split⟩ := grown
  rw [← split, List.getElem?_append_left (List.getElem?_eq_some_iff.mp stored).1, stored]

/-- An import is met where it stands, after the imports before it. -/
theorem resolveAll_split (held : source.library = Library.ofTable resources) (base : Option Text)
    {before statement digits rest : Text}
    (found : statement? (statement ++ rest) = some (digits, rest)) :
    resolveAll source base (before ++ (statement ++ rest)) = (do
      let first ← resolveFrom source base 1 before
      let replacement ← replaceImport source
        (fun identifier => resolveAll source (some identifier)) base (1 + Text.newlines before)
        digits statement
      let last ← resolveFrom source base (1 + Text.newlines before + Text.newlines statement) rest
      return first ++ (replacement ++ last)) := by
  obtain ⟨blanks, ending, _, _, _, _, shape⟩ := statement?_eq_some found
  obtain ⟨covered, rfl⟩ : ∃ covered, statement = '@' :: covered := by
    refine ⟨"import".toList ++ blanks ++ openMark :: (digits ++ closeMark :: ending), ?_⟩
    exact List.append_cancel_right (by simpa using shape)
  have cut : statement?.cut (before ++ ('@' :: covered ++ rest)) =
      statement?.cut before ++ .hit digits ('@' :: covered) :: statement?.cut rest := by
    rw [← cut_of_some (List.cons_ne_nil '@' covered) found]
    exact cut_append_mark statement?_proper statement?_haltsAt before (covered ++ rest)
  rw [resolveAll_eq held, resolveLevel, replaceM, cut, replacePieces_append,
    cut_sources statement?_proper]
  simp only [replacePieces, resolveFrom, bind_assoc, pure_bind]

/-- An import of what is claimed is passed over: it contributes nothing, and the library is not
asked for it. -/
theorem run_resolveAll_of_claimed {path before statement rest : Text} {state : State}
    {base : Option Text} (held : source.library = Library.ofTable resources)
    (imported : ImportOf state.vault path statement rest) (sheet : Path.isSheet path = true)
    (claimed : Path.resolve base (Path.withoutMark path) ∈ state.cache.claimed) :
    (resolveAll source base (before ++ (statement ++ rest))).run.run state =
      (resolveAround source base before statement rest).run.run state := by
  obtain ⟨digits, literal, found, place, numbered, rfl⟩ := imported
  rw [resolveAll_split held base found, resolveAround]
  rcases records_resolveFrom held base 1 before state ⟨[], .refl _ state⟩ with
    ⟨first, middle, ran, asked, logged⟩ | ⟨fault, middle, ran, _⟩
  · rw [run_bind_of_ok ran, run_bind_of_ok ran]
    have passed : (replaceImport source (fun identifier => resolveAll source (some identifier)) base
        (1 + Text.newlines before) digits statement).run.run middle = (.ok [], middle) := by
      rw [run_replaceImport_of_ok (numbered_of_grown logged.literals place numbered),
        if_pos sheet]
      refine bringIn_of_claimed ?_
      simpa [Cache.contains] using (Asked.of_logged logged).claimed claimed
    rw [run_bind_of_ok passed]
    rfl
  · rw [run_bind_of_error ran, run_bind_of_error ran]

namespace Call

variable {call : Call}

/-- A call leaves the cache with what it asked for, and a diagnostic for each failure unless it
faults. -/
theorem claims_answer (held : call.context.library = Library.ofTable resources) (cache : Cache) :
    Claims (call.requests cache) cache (call.answer cache).2.cache ∧
      ∀ text, (call.answer cache).1 = .ok text →
        ∃ added, (call.answer cache).2.diagnostics = call.context.diagnostics ++ added ∧
          added.map (·.notice.problem) =
            (call.requests cache).filterMap (failure? (Library.ofTable resources)) := by
  have records : ∃ asked, Asked asked ⟨call.context.vault, cache, [], []⟩ (call.run cache).2 ∧
      ∀ result, (call.run cache).1 = .ok result →
        Logged (Library.ofTable resources) asked ⟨call.context.vault, cache, [], []⟩
          (call.run cache).2 :=
    (records_resolveAll held _ call.text).asked _
  obtain ⟨asked, run, logged⟩ := records
  obtain rfl : call.requests cache = asked := run.requests
  rw [answer_eq]
  refine ⟨run.claims, fun text ended => ⟨_, rfl, ?_⟩⟩
  simpa [Function.comp_def] using (logged text ended).problems

theorem mem_requests_iff (held : call.context.library = Library.ofTable resources) (cache : Cache)
    (identifier : Text) :
    identifier ∈ call.requests cache ↔
      identifier ∈ (call.answer cache).2.cache.claimed ∧ identifier ∉ cache.claimed := by
  have claims := (claims_answer held cache).1
  rw [claims.claimed, List.mem_append, List.mem_reverse]
  constructor
  · intro requested
    exact ⟨.inl requested, claims.fresh identifier requested⟩
  · rintro ⟨requested | claimed, free⟩
    · exact requested
    · exact absurd claimed free

/-- Whatever a call asks for is claimed after it, loaded or not, and nothing else is. So if the call
succeeds, then all that it claimed was loaded exactly if it added no diagnostic. What failed is
never asked for again: a later call that shares the cache passes over every import of it, whatever
its library holds by then. -/
theorem failed_loads_stay_claimed (held : call.context.library = Library.ofTable resources)
    (cache : Cache) :
    let after := (call.answer cache).2.cache
    (∀ identifier, identifier ∈ call.requests cache ↔
      identifier ∈ after.claimed ∧ identifier ∉ cache.claimed) ∧
    (∀ text, (call.answer cache).1 = .ok text →
      ((∀ identifier, identifier ∈ after.claimed → identifier ∉ cache.claimed →
          ∃ content, call.context.library.load identifier = .ok content) ↔
        (call.answer cache).2.diagnostics = call.context.diagnostics)) ∧
    ∀ (later : Call) (others : Table Resource), later.context.library = Library.ofTable others →
      (∀ identifier ∈ after.claimed, identifier ∉ later.requests after) ∧
      ∀ path before statement rest, later.text = before ++ (statement ++ rest) →
        ImportOf later.context.vault path statement rest → Path.isSheet path = true →
        Path.resolve (later.base <|> later.context.basePath) (Path.withoutMark path) ∈
          after.claimed →
        later.run after =
          (resolveAround ⟨later.context.library, later.context.options.nestedComments⟩
            (later.base <|> later.context.basePath) before statement rest).run.run
            ⟨later.context.vault, after, [], []⟩ := by
  intro after
  refine ⟨mem_requests_iff held cache, fun text ended => ?_, fun later others heldLater => ⟨?_, ?_⟩⟩
  · obtain ⟨added, diagnostics, problems⟩ := (claims_answer held cache).2 text ended
    have loads (identifier : Text) : failure? (Library.ofTable resources) identifier = none ↔
        ∃ content, call.context.library.load identifier = .ok content := by
      rw [failure?, held]
      cases (Library.ofTable resources).load identifier <;> simp
    have silent : added = [] ↔ ∀ identifier ∈ call.requests cache,
        failure? (Library.ofTable resources) identifier = none := by
      rw [← List.filterMap_eq_nil_iff, ← problems, List.map_eq_nil_iff]
    rw [diagnostics, List.append_right_eq_self, silent]
    constructor
    · intro loaded identifier requested
      obtain ⟨claimed, free⟩ := (mem_requests_iff held cache identifier).mp requested
      exact (loads identifier).mpr (loaded identifier claimed free)
    · intro loaded identifier claimed free
      exact (loads identifier).mp
        (loaded identifier ((mem_requests_iff held cache identifier).mpr ⟨claimed, free⟩))
  · intro identifier claimed requested
    exact (claims_answer heldLater after).1.fresh identifier requested claimed
  · intro path before statement rest split imported sheet claimed
    rw [Call.run, split]
    exact run_resolveAll_of_claimed heldLater imported sheet claimed

/-- One import is loaded and one fails. The later call has both a new one and the one that failed,
which its own library holds. -/
theorem failed_loads_stay_claimed_later :
    let start (resources : Table Resource) (literals : List Text) : Context :=
      { Context.start none .default Plugins.none (.ofTable resources) .empty with
        vault := ⟨literals⟩ }
    let first : Call := ⟨start (Table.ofList [("a.scss".toList, .text "x".toList),
      ("f.scss".toList, .failing "down".toList)]) ["'a.scss'".toList, "'f.scss'".toList], none,
      "@import ".toList ++ placeholder 1 ++ "; @import ".toList ++ placeholder 2⟩
    let before := "@import ".toList ++ placeholder 1 ++ [';', '\n']
    let statement := "@import ".toList ++ placeholder 2 ++ [';']
    let rest := " z".toList
    let second : Call := ⟨start (Table.ofList [("e.scss".toList, .text "y".toList),
      ("f.scss".toList, .text "w".toList)]) ["'e.scss'".toList, "'f.scss'".toList], none,
      before ++ (statement ++ rest)⟩
    let after := (first.answer .empty).2.cache
    first.requests .empty = ["a.scss".toList, "f.scss".toList] ∧
      after.claimed = ["f.scss".toList, "a.scss".toList] ∧
      (¬ ∀ identifier, identifier ∈ after.claimed → identifier ∉ Cache.empty.claimed →
        ∃ content, first.context.library.load identifier = .ok content) ∧
      ImportOf second.context.vault "f.scss" statement rest ∧
      second.run after = (resolveAround ⟨second.context.library, false⟩ none before statement
        rest).run.run ⟨second.context.vault, after, [], []⟩ ∧
      (second.run after).1 = .ok "y\n z".toList := by
  intro start first before statement rest second after
  have imported : ImportOf second.context.vault "f.scss" statement rest :=
    ⟨"2".toList, "'f.scss'".toList, by decide +kernel, by decide +kernel, by decide +kernel,
      by decide +kernel⟩
  obtain ⟨_, silent, later⟩ := @failed_loads_stay_claimed _ first rfl .empty
  obtain ⟨_, passed⟩ := later second _ rfl
  refine ⟨by decide +kernel, by decide +kernel, ?_, imported, ?_, by decide +kernel⟩
  · rw [silent "x ".toList (by decide +kernel)]
    decide +kernel
  · exact passed "f.scss" before statement rest rfl imported (by decide +kernel) (by decide +kernel)

/-- A resource that is missing at first is claimed all the same, and a conversion that shares the
cache leaves it out once it is there. -/
theorem missing_resource_claimed :
    let present := Library.ofTable (Table.ofList
      [("x.scss".toList, .text "a \x7b b: c; \x7d".toList)])
    let missing := Library.ofTable Table.empty
    let call : Call := ⟨{ Context.start none .default Plugins.none missing .empty with
      vault := ⟨["'x.scss'".toList]⟩ }, none, "@import ".toList ++ placeholder 1⟩
    let converted (library : Library) (cache : Cache) :=
      (convertAt none "@import 'x.scss';".toList none).run.run
        (Context.start none .default Plugins.none library cache)
    (missing.load "x.scss" = .error (.unknown "x.scss") ∧
      (call.answer .empty).2.cache.claimed = ["x.scss".toList]) ∧
    (converted present .empty).1 = .ok "a \x7b b: c; \x7d\n".toList ∧
    (converted present (converted missing .empty).2.cache).1 = .ok [] := by
  decide +kernel

end Call

end Import

end Flatsheet
