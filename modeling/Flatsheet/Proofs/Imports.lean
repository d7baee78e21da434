import Flatsheet.Proofs.IntactPasses
import Flatsheet.Proofs.Runs

/-!
Imports, step by step. Resolving the imports of a sheet never fails when its resources are held in a
table and no mark is written in them: every placeholder after `@import` has its literal, and each
resource that is brought in was not claimed before, so resources nest no deeper than the table is
long.
-/

namespace Flatsheet

/-- Neither mark is written in the resource. -/
def Resource.Clean : Resource → Prop
  | .text content => Vault.Unmarked content
  | .nothing => True
  | .failing _ => True

instance : (resource : Resource) → Decidable resource.Clean
  | .text content => inferInstanceAs (Decidable (Vault.Unmarked content))
  | .nothing => inferInstanceAs (Decidable True)
  | .failing _ => inferInstanceAs (Decidable True)

namespace Import

open Vault Pattern

/-- What happens to an import whose resource cannot be loaded. -/
def leaveOut (line : Nat) (statement : Text) (error : LoadError) (state : State) :
    Except Fault Text × State :=
  match error with
  | .undecodable => (.error .undecodable, state)
  | .nullCharacter => (.error .nullCharacter, state)
  | error =>
      match state.vault.restore statement with
      | .error error => (.error (.literal error), state)
      | .ok construct => (.ok [], { state with
          notices := state.notices ++ [⟨.notLoaded error.message, some line, some construct⟩] })

/-- What happens to an import of the resource with this identifier. -/
def bringIn (source : Source) (inline : Text → Text → ImportM Text) (line : Nat)
    (statement identifier : Text) (state : State) : Except Fault Text × State :=
  if state.cache.contains identifier then (.ok [], state)
  else
    let claimed : State := { state with
      cache := ⟨identifier :: state.cache.claimed⟩
      requests := state.requests ++ [identifier] }
    match source.library.load identifier with
    | .ok text =>
        let (lifted, vault) := state.vault.protect text.unifyNewlines
        (inline identifier (Comment.strip source.nestedComments lifted)).run.run
          { claimed with vault }
    | .error error => leaveOut line statement error claimed

theorem run_claim (identifier : Text) (state : State) :
    (claim identifier).run.run state =
      if state.cache.contains identifier then (.ok false, state)
      else (.ok true, { state with cache := ⟨identifier :: state.cache.claimed⟩ }) := by
  change (Except.ok (state.cache.claim identifier).1,
    { state with cache := (state.cache.claim identifier).2 }) = _
  rw [Cache.claim]
  split <;> rfl

section

variable {source : Source} {inline : Text → Text → ImportM Text} {base : Option Text} {line : Nat}
  {digits statement : Text} {state : State}

theorem run_replaceImport_of_error {error : Vault.Error}
    (missing : state.vault.numbered digits = .error error) :
    (replaceImport source inline base line digits statement).run.run state =
      (.error (.literal error), state) := by
  unfold replaceImport
  refine (run_bind_of_ok rfl).trans ?_
  rw [missing]
  rfl

theorem run_replaceImport_of_ok {literal : Text}
    (found : state.vault.numbered digits = .ok literal) :
    (replaceImport source inline base line digits statement).run.run state =
      if Path.isSheet (unquote literal) then
        bringIn source inline line statement
          (Path.resolve base (Path.withoutMark (unquote literal))) state
      else (.ok statement, state) := by
  unfold replaceImport
  refine (run_bind_of_ok rfl).trans ?_
  rw [found]
  dsimp only
  cases sheet : Path.isSheet (unquote literal) with
  | false => rfl
  | true =>
      generalize Path.resolve base (Path.withoutMark (unquote literal)) = identifier
      have ran := run_claim identifier state
      rw [if_pos rfl, bringIn]
      cases claimed : state.cache.contains identifier with
      | true =>
          rw [if_pos claimed] at ran
          exact run_bind_of_ok ran
      | false =>
          rw [if_neg (by simp [claimed])] at ran
          refine (run_bind_of_ok ran).trans ?_
          cases source.library.load identifier with
          | ok text => rfl
          | error error =>
              cases error with
              | undecodable => rfl
              | nullCharacter => rfl
              | _ =>
                  refine (run_bind_of_ok rfl).trans ((run_bind_of_ok rfl).trans ?_)
                  simp only [leaveOut]
                  cases state.vault.restore statement with
                  | error error => rfl
                  | ok construct => rfl

end

variable {alone : Prop} {low high : Nat}

/-- An import cuts no placeholder, and its own has a number that it may have. -/
theorem statement?_intact {before source digits rest : Text}
    (found : statement? (source ++ rest) = some (digits, rest))
    (whole : Intact alone low high (before ++ (source ++ rest))) :
    Intact alone low high before ∧ Intact alone low high source ∧ Intact alone low high rest ∧
      ∃ number, low < number ∧ number ≤ high ∧ digits = Text.ofNat number := by
  obtain ⟨blanks, ending, blank, _, decimal, ended, shape⟩ := statement?_eq_some found
  have split : source = "@import".toList ++ blanks ++
      openMark :: (digits ++ closeMark :: ending) := List.append_cancel_right (by simpa using shape)
  have keyword : Unmarked ("@import".toList ++ blanks) := .append (by decide) (.of_blank blank)
  have closing : Unmarked ending := by
    rcases ended with rfl | ⟨gap, gapBlank, rfl⟩
    · exact fun c member => absurd member (by simp)
    · exact .append (.of_blank gapBlank) (by decide)
  have unclosed : closeMark ∉ digits := by
    intro member
    have := decimal closeMark member
    rw [not_isDecimalDigit_closeMark] at this
    contradiction
  have cut : Intact alone low high (before ++ ([] ++ '@' :: ("import".toList ++ blanks ++
      openMark :: (digits ++ closeMark :: (ending ++ rest))))) := by
    simpa [shape] using whole
  obtain ⟨front, statement⟩ := cut.split_before (by decide) (by simp)
  have opened : Intact alone low high ("@import".toList ++ blanks ++
      openMark :: (digits ++ closeMark :: (ending ++ rest))) := by
    simpa using statement
  obtain ⟨number, above, below, rfl, after⟩ :=
    (opened.split_after fun c member => (keyword c member).1).2.after_openMark unclosed
  have left := (after.split_after fun c member => (closing c member).1).2
  refine ⟨front, ?_, left, number, above, below, rfl⟩
  have placed : Intact alone low high (placeholder number ++ ending) :=
    .placeholder above below (.of_unmarked closing)
  rw [split]
  exact (Intact.of_unmarked keyword).append (by simpa [placeholder_eq] using placed)

theorem statement?_proper : Proper statement? := by
  intro text digits rest found
  obtain ⟨blanks, ending, _, _, _, _, shape⟩ := statement?_eq_some found
  exact ⟨"@import".toList ++ blanks ++ openMark :: (digits ++ closeMark :: ending), by simp,
    by simp [shape]⟩

/-- The names of the table that are not claimed. -/
def unclaimed (resources : Table Resource) (cache : Cache) : List Text :=
  resources.names.filter fun name => !cache.contains name

theorem unclaimed_claim (resources : Table Resource) (cache : Cache) (identifier : Text) :
    unclaimed resources ⟨identifier :: cache.claimed⟩ =
      (unclaimed resources cache).filter (· ≠ identifier) := by
  rw [unclaimed, unclaimed, List.filter_filter]
  refine List.filter_congr fun name _ => ?_
  simp [Cache.contains]

theorem length_unclaimed_claim_le (resources : Table Resource) (cache : Cache)
    (identifier : Text) :
    (unclaimed resources ⟨identifier :: cache.claimed⟩).length ≤
      (unclaimed resources cache).length := by
  rw [unclaimed_claim]
  exact List.length_filter_le _ _

theorem length_unclaimed_claim_lt {resources : Table Resource} {cache : Cache} {identifier : Text}
    (known : identifier ∈ resources.names) (free : cache.contains identifier = false) :
    (unclaimed resources ⟨identifier :: cache.claimed⟩).length <
      (unclaimed resources cache).length := by
  rw [unclaimed_claim, List.length_filter_lt_length_iff_exists]
  exact ⟨identifier, List.mem_filter.mpr ⟨known, by simp [free]⟩, by simp⟩

theorem loadFrom_eq_ok {resources : Table Resource} {identifier text : Text}
    (loaded : Library.loadFrom resources identifier = .ok text) :
    identifier ∈ resources.names ∧ (text = [] ∨ (identifier, .text text) ∈ resources.entries) := by
  unfold Library.loadFrom at loaded
  split at loaded
  next content found =>
      obtain rfl : content = text := by simpa using loaded
      have member := Table.mem_of_get?_eq_some found
      exact ⟨List.mem_map_of_mem member, .inr member⟩
  next found =>
      obtain rfl : [] = text := by simpa using loaded
      exact ⟨List.mem_map_of_mem (Table.mem_of_get?_eq_some found), .inl rfl⟩
  · contradiction
  · contradiction

theorem unmarked_of_loadFrom {resources : Table Resource} {identifier text : Text}
    (clean : resources.All Resource.Clean)
    (loaded : Library.loadFrom resources identifier = .ok text) : Unmarked text := by
  rcases (loadFrom_eq_ok loaded).2 with rfl | member
  · exact fun c inside => absurd inside (by simp)
  · exact clean _ member

/-- The import of a clean resource succeeds with an intact text, while fewer than `depth` names are
free. -/
def Resolves (resources : Table Resource) (depth : Nat) (resolve : Text → ImportM Text) : Prop :=
  ∀ text state, Intact False 0 state.vault.size text →
    (unclaimed resources state.cache).length < depth →
    ∃ result final, (resolve text).run.run state = (.ok result, final) ∧
      Intact False 0 final.vault.size result ∧ state.vault.size ≤ final.vault.size ∧
      (unclaimed resources final.cache).length ≤ (unclaimed resources state.cache).length

theorem leaveOut_ok {resources : Table Resource} {identifier statement : Text} {error : LoadError}
    (state : State) (line : Nat) (failed : Library.loadFrom resources identifier = .error error)
    (intact : Intact False 0 state.vault.size statement) :
    ∃ notices, leaveOut line statement error state = (.ok [], { state with notices }) := by
  obtain ⟨restored, ok⟩ := restore_of_intact intact
  refine ⟨state.notices ++ [⟨.notLoaded error.message, some line, some restored⟩], ?_⟩
  unfold Library.loadFrom at failed
  split at failed
  · contradiction
  · contradiction
  · cases failed
    simp only [leaveOut, ok]
  · cases failed
    simp only [leaveOut, ok]

theorem resolves_bringIn {resources : Table Resource} {source : Source} {depth : Nat}
    {inline : Text → Text → ImportM Text} {statement : Text} {state : State}
    (clean : resources.All Resource.Clean) (library : source.library = Library.ofTable resources)
    (inlines : ∀ identifier, Resolves resources depth (inline identifier))
    (intact : Intact False 0 state.vault.size statement)
    (bounded : (unclaimed resources state.cache).length ≤ depth) (line : Nat) (identifier : Text) :
    ∃ result final, bringIn source inline line statement identifier state = (.ok result, final) ∧
      Intact False 0 final.vault.size result ∧ state.vault.size ≤ final.vault.size ∧
      (unclaimed resources final.cache).length ≤ (unclaimed resources state.cache).length := by
  rw [bringIn]
  split
  · exact ⟨[], state, rfl, .nil, Nat.le_refl _, Nat.le_refl _⟩
  next free =>
      have claimed := length_unclaimed_claim_le resources state.cache identifier
      split
      next text loaded =>
          rw [library] at loaded
          have unmarked := unmarked_of_loadFrom clean loaded
          have fewer := length_unclaimed_claim_lt (loadFrom_eq_ok loaded).1 (by simpa using free)
          have lifted := protect_intact (Nat.zero_le _)
            (Text.unifyNewlines_intact
              (.of_unmarked unmarked : Intact False 0 state.vault.size text))
          obtain ⟨result, final, run, kept, grown, left⟩ := inlines identifier
            (Comment.strip source.nestedComments (state.vault.protect text.unifyNewlines).1)
            { state with
              vault := (state.vault.protect text.unifyNewlines).2
              cache := ⟨identifier :: state.cache.claimed⟩
              requests := state.requests ++ [identifier] }
            (Comment.strip_intact _ lifted) (Nat.lt_of_lt_of_le fewer bounded)
          have stored := (literals_prefix_protect state.vault text.unifyNewlines).length_le
          exact ⟨result, final, run, kept, Nat.le_trans stored grown, Nat.le_trans left claimed⟩
      next error failed =>
          rw [library] at failed
          obtain ⟨notices, out⟩ := leaveOut_ok { state with
            cache := ⟨identifier :: state.cache.claimed⟩
            requests := state.requests ++ [identifier] } line failed intact
          exact ⟨[], _, out, .nil, Nat.le_refl _, claimed⟩

/-- One level of imports succeeds if the level below does. -/
theorem resolves_replaceM {resources : Table Resource} {source : Source} {depth : Nat}
    {inline : Text → Text → ImportM Text} (clean : resources.All Resource.Clean)
    (library : source.library = Library.ofTable resources)
    (inlines : ∀ identifier, Resolves resources depth (inline identifier)) (base : Option Text) :
    Resolves resources (depth + 1) (statement?.replaceM (replaceImport source inline base)) := by
  intro text state intact bounded
  refine replaceM_ok_invariant statement?_proper
    (fun text (next : State) => Intact False 0 next.vault.size text ∧
      state.vault.size ≤ next.vault.size ∧
      (unclaimed resources next.cache).length ≤ (unclaimed resources state.cache).length)
    ?_ ⟨intact, Nat.le_refl _, Nat.le_refl _⟩
  rintro line written statement digits rest found next ⟨holds, grown, left⟩
  obtain ⟨before, covered, after, number, above, below, rfl⟩ := statement?_intact found holds
  obtain ⟨index, rfl⟩ : ∃ index, number = index + 1 := ⟨number - 1, by omega⟩
  have inside : index < next.vault.literals.length := Nat.lt_of_succ_le below
  rw [run_replaceImport_of_ok (numbered_ofNat (List.getElem?_eq_getElem inside))]
  split
  · obtain ⟨result, final, run, kept, more, fewer⟩ :=
      resolves_bringIn clean library inlines covered (by omega) line
        (Path.resolve base (Path.withoutMark (unquote next.vault.literals[index])))
    exact ⟨result, final, run, (before.grow more).append (kept.append (after.grow more)),
      Nat.le_trans grown more, Nat.le_trans fewer left⟩
  · exact ⟨statement, next, rfl, before.append (covered.append after), grown, left⟩

theorem resolves_resolveWithin {resources : Table Resource} {source : Source}
    (clean : resources.All Resource.Clean) (library : source.library = Library.ofTable resources)
    (depth : Nat) (base : Option Text) : Resolves resources (depth + 1) (resolveWithin source depth base) := by
  induction depth generalizing base with
  | zero =>
      exact resolves_replaceM clean library (fun _ _ _ _ none => absurd none (by omega)) base
  | succ depth ih =>
      exact resolves_replaceM clean library (fun identifier => ih (some identifier)) base

/-- The imports of a sheet are resolved, whatever has been claimed before. -/
theorem resolveAll_intact {resources : Table Resource} {text : Text} (source : Source)
    (state : State) (clean : resources.All Resource.Clean)
    (library : source.library = Library.ofTable resources)
    (intact : Intact False 0 state.vault.size text) (base : Option Text) :
    ∃ result final, (resolveAll source base text).run.run state = (.ok result, final) ∧
      Intact False 0 final.vault.size result ∧ state.vault.size ≤ final.vault.size := by
  have bounded : (unclaimed resources state.cache).length < resources.size + 1 := by
    refine Nat.lt_succ_of_le ((List.length_filter_le _ _).trans ?_)
    simp [Table.names, Table.size]
  have depth : source.library.nesting = resources.size := by rw [library]; rfl
  obtain ⟨result, final, run, kept, grown, _⟩ :=
    resolves_resolveWithin clean library resources.size base text state intact bounded
  exact ⟨result, final, by rw [resolveAll, depth]; exact run, kept, grown⟩

end Import

end Flatsheet
