import Mathlib.Data.Finset.Card
import Mathlib.Data.Finset.Dedup
import Flatsheet.Proofs.Imports

/-!
How deep imports nest. Relative paths give ever new identifiers, so circles of imports need not come
back to the same one; but only names of the table have a text, and a name is claimed before its text
is read. So there are never more resources inside one another than the table has names that were not
claimed, and resolving without a bound on the depth is well defined.
-/

namespace Flatsheet.Import

open Vault Pattern

variable {resources : Table Resource} {cache : Cache} {source : Source} {bound : Nat}

/-- The names of the table that nobody has claimed. -/
def vacant (resources : Table Resource) (cache : Cache) : Finset Text :=
  (unclaimed resources cache).toFinset

theorem mem_vacant {name : Text} :
    name ∈ vacant resources cache ↔ name ∈ resources.names ∧ name ∉ cache.claimed := by
  simp [vacant, unclaimed, Cache.contains]

theorem vacant_claim (resources : Table Resource) (cache : Cache) (identifier : Text) :
    vacant resources ⟨identifier :: cache.claimed⟩ = (vacant resources cache).erase identifier := by
  ext name
  simp only [mem_vacant, Finset.mem_erase, List.mem_cons]
  tauto

theorem card_vacant_claim_le (resources : Table Resource) (cache : Cache) (identifier : Text) :
    (vacant resources ⟨identifier :: cache.claimed⟩).card ≤ (vacant resources cache).card := by
  rw [vacant_claim]
  exact Finset.card_erase_le

theorem card_vacant_claim_lt {identifier text : Text}
    (loaded : Library.loadFrom resources identifier = .ok text)
    (free : ¬ cache.contains identifier = true) :
    (vacant resources ⟨identifier :: cache.claimed⟩).card < (vacant resources cache).card := by
  have known : identifier ∈ vacant resources cache :=
    mem_vacant.mpr ⟨(loadFrom_eq_ok loaded).1, by simpa [Cache.contains] using free⟩
  rw [vacant_claim]
  exact Finset.card_erase_lt_of_mem known

theorem card_vacant_le_size (resources : Table Resource) (cache : Cache) :
    (vacant resources cache).card ≤ resources.size :=
  calc (vacant resources cache).card
    _ ≤ (unclaimed resources cache).length := List.toFinset_card_le _
    _ ≤ resources.names.length := List.length_filter_le _ _
    _ = resources.size := by rw [Table.names, Table.size, List.length_map]

/-- The state in which the library is asked for the identifier. -/
def State.ask (state : State) (identifier : Text) : State :=
  { state with
    cache := ⟨identifier :: state.cache.claimed⟩
    requests := state.requests ++ [identifier] }

/-- The state in which the literals of a loaded text have been lifted. -/
def State.lift (state : State) (text : Text) : State :=
  { state with vault := (state.vault.protect text.unifyNewlines).2 }

section

variable {inline : Text → Text → ImportM Text} {line : Nat} {statement identifier : Text}
  {state : State}

theorem bringIn_of_claimed (claimed : state.cache.contains identifier = true) :
    bringIn source inline line statement identifier state = (.ok [], state) := by
  rw [bringIn, if_pos claimed]

theorem bringIn_of_ok {text : Text} (free : ¬ state.cache.contains identifier = true)
    (loaded : source.library.load identifier = .ok text) :
    bringIn source inline line statement identifier state =
      (inline identifier
        (Comment.strip source.nestedComments (state.vault.protect text.unifyNewlines).1)).run.run
        ((state.ask identifier).lift text) := by
  simp only [bringIn, if_neg free, loaded]
  rfl

theorem bringIn_of_error {error : LoadError} (free : ¬ state.cache.contains identifier = true)
    (failed : source.library.load identifier = .error error) :
    bringIn source inline line statement identifier state =
      leaveOut line statement error (state.ask identifier) := by
  simp only [bringIn, if_neg free, failed]
  rfl

end

theorem leaveOut_cases {identifier : Text} {error : LoadError}
    (failed : Library.loadFrom resources identifier = .error error) (line : Nat)
    (statement : Text) (state : State) :
    (∃ fault, state.vault.restore statement = .error fault ∧
      leaveOut line statement error state = (.error (.literal fault), state)) ∨
      ∃ construct, state.vault.restore statement = .ok construct ∧
        leaveOut line statement error state = (.ok [], { state with
          notices := state.notices ++ [⟨.notLoaded error.message, some line, some construct⟩] }) := by
  have plain : error ≠ .undecodable ∧ error ≠ .nullCharacter := by
    unfold Library.loadFrom at failed
    split at failed <;> cases failed <;> simp
  cases error with
  | undecodable => exact absurd rfl plain.1
  | nullCharacter => exact absurd rfl plain.2
  | _ =>
      simp only [leaveOut]
      cases state.vault.restore statement with
      | error fault => exact .inl ⟨fault, rfl, rfl⟩
      | ok construct => exact .inr ⟨construct, rfl, rfl⟩

/-- The imports of a text, one level of them: what is brought in goes through `inline`. -/
def resolveLevel (source : Source) (inline : Text → Text → ImportM Text) (base : Option Text)
    (text : Text) : ImportM Text :=
  statement?.replaceM (replaceImport source inline base) text

/-- What holds of every way to resolve while no name is vacant, and passes from one level to the
next. -/
theorem resolveWithin_induction {motive : Nat → (Text → ImportM Text) → Prop}
    (nowhere : ∀ resolve, motive 0 resolve)
    (level : ∀ bound inline base, (∀ identifier, motive bound (inline identifier)) →
      motive (bound + 1) (resolveLevel source inline base)) (depth : Nat) (base : Option Text) :
    motive (depth + 1) (resolveWithin source depth base) := by
  induction depth generalizing base with
  | zero => exact level 0 _ base fun _ => nowhere _
  | succ depth ih => exact level (depth + 1) _ base fun identifier => ih (some identifier)

/-- With fewer than `bound` names vacant, imports do not lead too deep, and no name becomes vacant
again. -/
def Ends (resources : Table Resource) (bound : Nat) (resolve : Text → ImportM Text) : Prop :=
  ∀ text count, count < bound →
    Keeps (fun state => (vacant resources state.cache).card ≤ count)
      (fun fault state =>
        fault ≠ .endlessImports ∧ (vacant resources state.cache).card ≤ count) (resolve text)

theorem keeps_bringIn {inline : Text → Text → ImportM Text} {state : State} {count : Nat}
    (library : source.library = Library.ofTable resources)
    (inlines : ∀ identifier, Ends resources bound (inline identifier)) (small : count ≤ bound)
    (few : (vacant resources state.cache).card ≤ count) (line : Nat)
    (statement identifier : Text) :
    (∃ result final,
      bringIn source inline line statement identifier state = (.ok result, final) ∧
      (vacant resources final.cache).card ≤ count) ∨
    ∃ fault final,
      bringIn source inline line statement identifier state = (.error fault, final) ∧
      fault ≠ .endlessImports ∧ (vacant resources final.cache).card ≤ count := by
  by_cases claimed : state.cache.contains identifier = true
  · rw [bringIn_of_claimed claimed]
    exact .inl ⟨_, _, rfl, few⟩
  · cases loaded : source.library.load identifier with
    | ok text =>
        rw [bringIn_of_ok claimed loaded]
        rw [library] at loaded
        have left : (vacant resources (state.ask identifier).cache).card < count :=
          Nat.lt_of_lt_of_le (card_vacant_claim_lt loaded claimed) few
        have inner := inlines identifier
          (Comment.strip source.nestedComments (state.vault.protect text.unifyNewlines).1)
          _ (Nat.lt_of_lt_of_le left small)
        rcases @inner ((state.ask identifier).lift text) (Nat.le_refl _) with
          ⟨result, final, ran, kept⟩ | ⟨fault, final, ran, shallow, kept⟩
        · exact .inl ⟨result, final, ran, Nat.le_trans kept left.le⟩
        · exact .inr ⟨fault, final, ran, shallow, Nat.le_trans kept left.le⟩
    | error error =>
        rw [bringIn_of_error claimed loaded]
        rw [library] at loaded
        have fewer := (card_vacant_claim_le resources state.cache identifier).trans few
        rcases leaveOut_cases loaded line statement (state.ask identifier) with
          ⟨fault, _, out⟩ | ⟨construct, _, out⟩
        · exact .inr ⟨_, _, out, by simp, fewer⟩
        · exact .inl ⟨_, _, out, fewer⟩

theorem keeps_replaceImport {inline : Text → Text → ImportM Text}
    (library : source.library = Library.ofTable resources)
    (inlines : ∀ identifier, Ends resources bound (inline identifier)) {count : Nat}
    (small : count ≤ bound) (base : Option Text) (line : Nat) (digits statement : Text) :
    Keeps (fun state => (vacant resources state.cache).card ≤ count)
      (fun fault state =>
        fault ≠ .endlessImports ∧ (vacant resources state.cache).card ≤ count)
      (replaceImport source inline base line digits statement) := by
  intro state few
  cases found : state.vault.numbered digits with
  | error fault =>
      rw [run_replaceImport_of_error found]
      exact .inr ⟨_, _, rfl, by simp, few⟩
  | ok literal =>
      rw [run_replaceImport_of_ok found]
      generalize Path.resolve base (Path.withoutMark (unquote literal)) = identifier
      by_cases sheet : Path.isSheet (unquote literal) = true
      · rw [if_pos sheet]
        exact keeps_bringIn library inlines small few line statement identifier
      · rw [if_neg sheet]
        exact .inl ⟨_, _, rfl, few⟩

theorem ends_resolveWithin (library : source.library = Library.ofTable resources) (depth : Nat)
    (base : Option Text) : Ends resources (depth + 1) (resolveWithin source depth base) := by
  refine resolveWithin_induction (motive := Ends resources) ?_ ?_ depth base
  · intro resolve text count none
    exact absurd none (by omega)
  · intro bound inline base inlines text count small
    exact Keeps.replaceM statement?_proper fun line _ statement digits _ _ _ =>
      keeps_replaceImport library inlines (by omega) base line digits statement

/-- With fewer than `bound` names vacant, the two resolve alike. -/
def Agree (resources : Table Resource) (bound : Nat) (one two : Text → ImportM Text) : Prop :=
  ∀ text state, (vacant resources state.cache).card < bound →
    (one text).run.run state = (two text).run.run state

theorem agree_zero (one two : Text → ImportM Text) : Agree resources 0 one two :=
  fun _ _ none => absurd none (by omega)

theorem bringIn_congr {inline inline' : Text → Text → ImportM Text} {state : State}
    (library : source.library = Library.ofTable resources)
    (agree : ∀ identifier, Agree resources bound (inline identifier) (inline' identifier))
    (few : (vacant resources state.cache).card ≤ bound) (line : Nat)
    (statement identifier : Text) :
    bringIn source inline line statement identifier state =
      bringIn source inline' line statement identifier state := by
  by_cases claimed : state.cache.contains identifier = true
  · rw [bringIn_of_claimed claimed, bringIn_of_claimed claimed]
  · cases loaded : source.library.load identifier with
    | ok text =>
        rw [bringIn_of_ok claimed loaded, bringIn_of_ok claimed loaded]
        rw [library] at loaded
        exact agree _ _ _ (Nat.lt_of_lt_of_le (card_vacant_claim_lt loaded claimed) few)
    | error error => rw [bringIn_of_error claimed loaded, bringIn_of_error claimed loaded]

theorem agree_resolveLevel {inline inline' : Text → Text → ImportM Text}
    (library : source.library = Library.ofTable resources)
    (agree : ∀ identifier, Agree resources bound (inline identifier) (inline' identifier))
    (inlines : ∀ identifier, Ends resources bound (inline' identifier)) (base : Option Text) :
    Agree resources (bound + 1) (resolveLevel source inline base)
      (resolveLevel source inline' base) := by
  intro text state few
  have alike : Alike (fun left right => left = right ∧ (vacant resources left.cache).card ≤ bound)
      (resolveLevel source inline base text) (resolveLevel source inline' base text) := by
    refine Alike.replaceM statement?_proper fun line _ statement digits _ _ _ => ?_
    rintro state _ ⟨rfl, few⟩
    have same : (replaceImport source inline base line digits statement).run.run state =
        (replaceImport source inline' base line digits statement).run.run state := by
      cases found : state.vault.numbered digits with
      | error fault => rw [run_replaceImport_of_error found, run_replaceImport_of_error found]
      | ok literal =>
          rw [run_replaceImport_of_ok found, run_replaceImport_of_ok found,
            bringIn_congr library agree few]
    have kept := keeps_replaceImport library inlines (Nat.le_refl _) base line digits statement few
    rw [same]
    rcases kept with ⟨result, final, ran, left⟩ | ⟨fault, final, ran, _, left⟩
    · rw [ran]
      exact ⟨rfl, rfl, left⟩
    · rw [ran]
      exact ⟨rfl, rfl, left⟩
  obtain ⟨result, final, _⟩ := alike ⟨rfl, Nat.lt_succ_iff.mp few⟩
  exact Prod.ext result final

theorem agree_resolveWithin (library : source.library = Library.ofTable resources)
    {depth deeper : Nat} (more : depth ≤ deeper) (base : Option Text) :
    Agree resources (depth + 1) (resolveWithin source depth base)
      (resolveWithin source deeper base) := by
  induction depth generalizing deeper base with
  | zero =>
      have inlines (resolve : Text → ImportM Text) : Ends resources 0 resolve :=
        fun _ _ none => absurd none (by omega)
      cases deeper <;>
        exact agree_resolveLevel library (fun _ => agree_zero _ _) (fun _ => inlines _) base
  | succ depth ih =>
      obtain ⟨deeper, rfl⟩ : ∃ less, deeper = less + 1 := ⟨deeper - 1, by omega⟩
      have less : depth ≤ deeper := by omega
      refine agree_resolveLevel library (fun identifier => ih less (some identifier)) ?_ base
      intro identifier text count small
      exact ends_resolveWithin library deeper (some identifier) text count (by omega)

theorem run_resolveWithin (library : source.library = Library.ofTable resources) {depth : Nat}
    {state : State} (enough : (vacant resources state.cache).card ≤ depth) (base : Option Text)
    (text : Text) :
    (resolveWithin source depth base text).run.run state =
      (resolveAll source base text).run.run state := by
  have nesting : source.library.nesting = resources.size := by rw [library]; rfl
  have size := card_vacant_le_size resources state.cache
  rw [resolveAll, nesting]
  exact (agree_resolveWithin library enough base text state (Nat.lt_succ_self _)).symm.trans
    (agree_resolveWithin library size base text state (Nat.lt_succ_self _))

theorem run_resolveWithin_ne (library : source.library = Library.ofTable resources) {depth : Nat}
    {state : State} (enough : (vacant resources state.cache).card ≤ depth) (base : Option Text)
    (text : Text) :
    ((resolveWithin source depth base text).run.run state).1 ≠ .error .endlessImports := by
  rcases ends_resolveWithin library depth base text depth (Nat.lt_succ_self _) enough with
    ⟨result, final, ran, _⟩ | ⟨fault, final, ran, shallow, _⟩
  · simp [ran]
  · simpa [ran] using shallow

/-- Resolving goes on in what it brings in, however deep that may lead. -/
theorem resolveAll_eq (library : source.library = Library.ofTable resources) (base : Option Text)
    (text : Text) :
    resolveAll source base text =
      resolveLevel source (fun identifier => resolveAll source (some identifier)) base text := by
  have nesting : source.library.nesting = resources.size := by rw [library]; rfl
  funext state
  have deeper := run_resolveWithin library (Nat.le_succ_of_le (card_vacant_le_size resources
    state.cache)) base text
  refine deeper.symm.trans ?_
  unfold resolveAll
  rw [nesting]
  rfl

theorem ends_resolveAll (library : source.library = Library.ofTable resources) (bound : Nat)
    (base : Option Text) : Ends resources bound (resolveAll source base) := by
  intro text count _ state few
  have ended := ends_resolveWithin library count base text count (Nat.lt_succ_self _) few
  rwa [run_resolveWithin library few] at ended

/-- It is enough to resolve what is brought in where fewer names are vacant. -/
theorem run_resolveLevel {inline : Text → Text → ImportM Text} {state : State}
    (library : source.library = Library.ofTable resources)
    (agree : ∀ identifier, Agree resources (vacant resources state.cache).card (inline identifier)
      (resolveAll source (some identifier))) (base : Option Text) (text : Text) :
    (resolveLevel source inline base text).run.run state =
      (resolveAll source base text).run.run state := by
  rw [resolveAll_eq library]
  exact agree_resolveLevel library agree (fun _ => ends_resolveAll library _ _) base text state
    (Nat.lt_succ_self _)

theorem eq_resolveAll {resolve : Option Text → Text → ImportM Text}
    (library : source.library = Library.ofTable resources)
    (goesOn : ∀ base text, resolve base text =
      resolveLevel source (fun identifier => resolve (some identifier)) base text) :
    resolve = resolveAll source := by
  have agree (bound : Nat) (base : Option Text) :
      Agree resources bound (resolve base) (resolveAll source base) := by
    induction bound generalizing base with
    | zero => exact agree_zero _ _
    | succ bound ih =>
        intro text state few
        rw [goesOn]
        refine run_resolveLevel library (fun identifier text next fewer => ?_) base text
        exact ih (some identifier) text next (by omega)
  funext base text state
  exact agree _ base text state (Nat.lt_succ_self _)

/-- Resolution ends with a library in memory, whatever circles its resources form. What is brought
in is resolved where fewer names of the table are vacant, so the recursion that knows no depth has
exactly one solution; and from any state there are never more resources inside one another than
there are vacant names. -/
theorem resolveAll_nesting (resources : Table Resource) (nestedComments : Bool) :
    let source : Source := ⟨Library.ofTable resources, nestedComments⟩
    (∀ inline base text state,
      (∀ identifier inner next,
        (vacant resources next.cache).card < (vacant resources state.cache).card →
        (inline identifier inner).run.run next =
          (resolveAll source (some identifier) inner).run.run next) →
      (statement?.replaceM (replaceImport source inline base) text).run.run state =
        (resolveAll source base text).run.run state) ∧
    (∀ resolve : Option Text → Text → ImportM Text,
      (∀ base text, resolve base text =
        statement?.replaceM (replaceImport source (fun identifier => resolve (some identifier)) base)
          text) ↔ resolve = resolveAll source) ∧
    ∀ base text state depth, (vacant resources state.cache).card ≤ depth →
      (resolveWithin source depth base text).run.run state =
        (resolveAll source base text).run.run state ∧
      ((resolveWithin source depth base text).run.run state).1 ≠ .error .endlessImports := by
  intro source
  refine ⟨?_, fun resolve => ⟨eq_resolveAll rfl, ?_⟩, ?_⟩
  · intro inline base text state agree
    exact run_resolveLevel rfl agree base text
  · rintro rfl base text
    exact resolveAll_eq rfl base text
  · intro base text state depth enough
    exact ⟨run_resolveWithin rfl enough base text, run_resolveWithin_ne rfl enough base text⟩

/-- The bound is met: two resources that import one another nest two deep. -/
example :
    let source : Source := ⟨Library.ofTable (Table.ofList
      [("a.scss".toList, .text "@import 'b.scss';".toList),
        ("b.scss".toList, .text "@import 'a.scss';".toList)]), false⟩
    let start : State := ⟨⟨["'a.scss'".toList]⟩, .empty, [], []⟩
    let text := "@import ".toList ++ placeholder 1
    ((resolveWithin source 1 none text).run.run start).1 = .error .endlessImports ∧
      ((resolveWithin source 2 none text).run.run start).1 = .ok [] := by
  decide +kernel

end Flatsheet.Import
