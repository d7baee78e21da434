import Flatsheet.Proofs.Integrity

/-!
Literals are invisible to the passes. Two sheets that differ in the contents of their literals alone
go through the passes side by side: the same text, tables and cache come out, and the same literals
are added. What a literal says is read in two places only, in the path of an import and in the
report of a missing semicolon.
-/

namespace Flatsheet

open Vault Pattern

variable {first second : List Text}

namespace Vault

/-- Two vaults with their own literals in front and the same ones behind. -/
inductive Twin (first second : List Text) : Vault → Vault → Prop
  | mk (added : List Text) : Twin first second ⟨first ++ added⟩ ⟨second ++ added⟩

/-- Whatever is added, the placeholder with these digits stands for the same literal in both. -/
def Shares (first second : List Text) (digits : Text) : Prop :=
  ∀ added, get? ⟨first ++ added⟩ (indexOf digits) = get? ⟨second ++ added⟩ (indexOf digits)

theorem get?_of_nonneg {vault : Vault} {index : Int} (inside : 0 ≤ index) :
    vault.get? index = vault.literals[index.toNat]? := by
  rw [get?, if_pos inside]

/-- The one index below zero is that of the last literal. -/
theorem get?_indexOf_of_neg {vault : Vault} {digits : Text} (below : indexOf digits < 0) :
    vault.get? (indexOf digits) = vault.literals.getLast? := by
  have last : indexOf digits = -1 := by
    have := Int.natCast_nonneg (decimalValue digits)
    simp only [indexOf] at below ⊢
    omega
  rw [get?, last, if_neg (by omega), List.getLast?_eq_getElem?]
  split
  next some =>
      congr 1
      omega
  next none =>
      rw [List.getElem?_eq_none]
      omega

theorem shares_of_get? {digits : Text} (equal : first.length = second.length)
    (same : get? ⟨first⟩ (indexOf digits) = get? ⟨second⟩ (indexOf digits)) :
    Shares first second digits := by
  intro added
  by_cases inside : 0 ≤ indexOf digits
  · simp only [get?_of_nonneg inside] at same ⊢
    rw [List.getElem?_append, List.getElem?_append, same, equal]
  · have below : indexOf digits < 0 := by omega
    simp only [get?_indexOf_of_neg below] at same ⊢
    rw [List.getLast?_append, List.getLast?_append, same]

theorem shares_ofNat {number : Nat} (equal : first.length = second.length)
    (above : first.length < number) : Shares first second (Text.ofNat number) := by
  have index : indexOf (Text.ofNat number) = (number - 1 : Nat) := by
    rw [indexOf, Text.decimalValue_ofNat]
    omega
  have beyond (literals : List Text) (few : literals.length < number) :
      get? ⟨literals⟩ (indexOf (Text.ofNat number)) = none := by
    rw [get?_of_nonneg (by omega), index, Int.toNat_natCast]
    exact List.getElem?_eq_none (Nat.le_sub_one_of_lt few)
  exact shares_of_get? equal ((beyond first above).trans (beyond second (equal ▸ above)).symm)

variable {one two : Vault}

theorem Twin.size (twin : Twin first second one two) (equal : first.length = second.length) :
    one.size = two.size := by
  cases twin
  simp [Vault.size, equal]

theorem Twin.numbered {digits : Text} (twin : Twin first second one two)
    (shares : Shares first second digits) : one.numbered digits = two.numbered digits := by
  cases twin with
  | mk added => rw [Vault.numbered, Vault.numbered, find?, find?, shares added]

theorem Twin.protect (twin : Twin first second one two) (equal : first.length = second.length)
    (text : Text) :
    (one.protect text).1 = (two.protect text).1 ∧
      Twin first second (one.protect text).2 (two.protect text).2 := by
  have size := twin.size equal
  cases twin with
  | mk added =>
      rw [protect_eq, protect_eq, size]
      refine ⟨rfl, ?_⟩
      simp only [List.append_assoc]
      exact .mk _

theorem numbered_alike (equal : one.size = two.size) (digits : Text) :
    (∃ error, one.numbered digits = .error error ∧ two.numbered digits = .error error) ∨
      ∃ literal other, one.numbered digits = .ok literal ∧ two.numbered digits = .ok other := by
  have missing : one.get? (indexOf digits) = none ↔ two.get? (indexOf digits) = none := by
    simp only [size] at equal
    by_cases inside : 0 ≤ indexOf digits
    · rw [get?_of_nonneg inside, get?_of_nonneg inside, List.getElem?_eq_none_iff,
        List.getElem?_eq_none_iff, equal]
    · have below : indexOf digits < 0 := by omega
      rw [get?_indexOf_of_neg below, get?_indexOf_of_neg below, List.getLast?_eq_none_iff,
        List.getLast?_eq_none_iff, ← List.length_eq_zero_iff, equal, List.length_eq_zero_iff]
  have absent : one.find? digits = none ↔ two.find? digits = none := by
    unfold find?
    split
    · exact missing
    · exact Iff.rfl
  unfold numbered
  cases left : one.find? digits with
  | none =>
      rw [absent.mp left]
      exact .inl ⟨_, rfl, rfl⟩
  | some literal =>
      cases right : two.find? digits with
      | none =>
          rw [absent.mpr right] at left
          contradiction
      | some other => exact .inr ⟨literal, other, rfl, rfl⟩

/-- How restoring ends depends on the size of the vault alone. -/
theorem restore_alike (equal : one.size = two.size) (text : Text) :
    (∃ error, one.restore text = .error error ∧ two.restore text = .error error) ∨
      ∃ restored other, one.restore text = .ok restored ∧ two.restore text = .ok other := by
  refine cut_induction placeholder?_proper (motive := fun text _ =>
    (∃ error, one.restore text = .error error ∧ two.restore text = .error error) ∨
      ∃ restored other, one.restore text = .ok restored ∧ two.restore text = .ok other)
    ?_ ?_ ?_ text
  · exact .inr ⟨[], [], rfl, rfl⟩
  · intro c rest missed ih
    rw [restore_of_none missed, restore_of_none missed]
    rcases ih with ⟨error, left, right⟩ | ⟨restored, other, left, right⟩
    · exact .inl ⟨error, by rw [left]; rfl, by rw [right]; rfl⟩
    · exact .inr ⟨c :: restored, c :: other, by rw [left]; rfl, by rw [right]; rfl⟩
  · intro source digits rest _ found ih
    rw [restore_of_some found, restore_of_some found]
    rcases numbered_alike equal digits with ⟨error, left, right⟩ | ⟨literal, literal', left, right⟩
    · exact .inl ⟨error, by rw [left]; rfl, by rw [right]; rfl⟩
    · rw [left, right]
      rcases ih with ⟨error, left, right⟩ | ⟨restored, other, left, right⟩
      · exact .inl ⟨error, by rw [left]; rfl, by rw [right]; rfl⟩
      · exact .inr ⟨literal ++ restored, literal' ++ other, by rw [left]; rfl, by rw [right]; rfl⟩

theorem restore_append {front : Text} (vault : Vault) (unopened : openMark ∉ front) (rest : Text) :
    vault.restore (front ++ rest) = (vault.restore rest).map (front ++ ·) := by
  induction front with
  | nil => cases h : vault.restore rest <;> simp [h, Except.map]
  | cons c front ih =>
      obtain ⟨other, later⟩ : openMark ≠ c ∧ openMark ∉ front := by simpa using unopened
      rw [List.cons_append, restore_of_none (placeholder?_of_ne other.symm), ih later]
      cases vault.restore rest <;> rfl

/-- The one placeholder of an import decides what it is restored to. -/
theorem restore_statement {statement digits rest : Text}
    (found : Import.statement? (statement ++ rest) = some (digits, rest)) :
    ∃ keyword ending, ∀ vault : Vault, vault.restore statement =
      (vault.numbered digits).map fun literal => keyword ++ (literal ++ ending) := by
  obtain ⟨blanks, ending, blank, nonempty, decimal, ended, shape⟩ :=
    Import.statement?_eq_some found
  have split : statement = "@import".toList ++ blanks ++
      openMark :: (digits ++ closeMark :: ending) := List.append_cancel_right (by simpa using shape)
  have keyword : openMark ∉ "@import".toList ++ blanks := fun member =>
    (Unmarked.append (by decide) (.of_blank blank) openMark member).1 rfl
  have closing : openMark ∉ ending := by
    rcases ended with rfl | ⟨gap, gapBlank, rfl⟩
    · simp
    · exact fun member => (Unmarked.append (.of_blank gapBlank) (by decide) openMark member).1 rfl
  have read : placeholder? (openMark :: (digits ++ closeMark :: ending)) = some (digits, ending) :=
    placeholder?_eq_some.mpr ⟨rfl, nonempty, decimal⟩
  have kept (vault : Vault) : vault.restore ending = .ok ending := by
    have plain := restore_append vault closing []
    rw [List.append_nil, restore_nil] at plain
    rw [plain, Except.map, List.append_nil]
  refine ⟨"@import".toList ++ blanks, ending, fun vault => ?_⟩
  rw [split, restore_append vault keyword, restore_of_some read, kept vault]
  cases vault.numbered digits <;> rfl

end Vault

namespace Import

/-- What holds of the digits of every placeholder right after `@import`. -/
def Targets (holds : Text → Prop) (text : Text) : Prop :=
  ∀ tail ∈ text.tails, ∀ found ∈ statement? tail, holds found.1

instance (holds : Text → Prop) [DecidablePred holds] (text : Text) :
    Decidable (Targets holds text) :=
  inferInstanceAs (Decidable (∀ tail ∈ text.tails, ∀ found ∈ statement? tail, holds found.1))

theorem Targets.of_split {holds : Text → Prop} {before source digits rest : Text}
    (targets : Targets holds (before ++ (source ++ rest)))
    (found : statement? (source ++ rest) = some (digits, rest)) : holds digits :=
  targets (source ++ rest) ((List.mem_tails _ _).mpr (List.suffix_append before _)) _ found

/-- Where no placeholder stands for a literal in front, both vaults give the same paths. -/
theorem targets_of_intact {alone : Prop} {high : Nat} {text : Text}
    (equal : first.length = second.length) (intact : Intact alone first.length high text) :
    Targets (Shares first second) text := by
  rintro tail member ⟨digits, rest⟩ found
  obtain ⟨before, rfl⟩ := (List.mem_tails _ _).mp member
  obtain ⟨source, _, rfl⟩ := statement?_proper found
  obtain ⟨_, _, _, number, above, _, rfl⟩ := statement?_intact found intact
  exact shares_ofNat equal above

/-- The same state, with two vaults. -/
inductive State.Twin (first second : List Text) : State → State → Prop
  | mk {cache : Cache} {notices : List Notice} {requests : List Text} (added : List Text) :
      Twin first second ⟨⟨first ++ added⟩, cache, notices, requests⟩
        ⟨⟨second ++ added⟩, cache, notices, requests⟩

/-- No opening mark is written in a resource of the library. -/
def Unopened (library : Library) : Prop :=
  ∀ path content, library.load path = .ok content → openMark ∉ content

theorem unopened_ofTable {resources : Table Resource} (clean : resources.All Resource.Clean) :
    Unopened (Library.ofTable resources) :=
  fun _ _ loaded member => (unmarked_of_loadFrom clean loaded openMark member).1 rfl

theorem prepared_targets {content : Text} (unopened : openMark ∉ content)
    (equal : first.length = second.length) (added : List Text) (nested : Bool) :
    Targets (Shares first second)
      (Comment.strip nested ((Vault.protect ⟨first ++ added⟩ content.unifyNewlines).1)) := by
  have start : first.length ≤ Vault.size ⟨first ++ added⟩ := by simp [Vault.size]
  have intact : Intact True first.length (Vault.size ⟨first ++ added⟩) content :=
    .of_unopened unopened
  exact targets_of_intact equal
    (Comment.strip_intact nested (protect_intact start (Text.unifyNewlines_intact intact)))

theorem leaveOut_alike {statement : Text} {left right : State}
    (twin : State.Twin first second left right)
    (restored : left.vault.restore statement = right.vault.restore statement) (line : Nat)
    (error : LoadError) :
    (leaveOut line statement error left).1 = (leaveOut line statement error right).1 ∧
      State.Twin first second (leaveOut line statement error left).2
        (leaveOut line statement error right).2 := by
  obtain ⟨added⟩ := twin
  cases error with
  | undecodable => exact ⟨rfl, .mk added⟩
  | nullCharacter => exact ⟨rfl, .mk added⟩
  | _ =>
      simp only [leaveOut, restored]
      cases Vault.restore ⟨second ++ added⟩ statement with
      | error error => exact ⟨rfl, .mk added⟩
      | ok construct => exact ⟨rfl, .mk added⟩

/-- Both vaults grow by the same literals, which count as added from there on. -/
theorem bringIn_alike {source : Source} {inline : Text → Text → ImportM Text} {statement : Text}
    {left right : State} (equal : first.length = second.length)
    (unopened : Unopened source.library)
    (inlines : ∀ identifier text, Targets (Shares first second) text →
      Alike (State.Twin first second) (inline identifier text) (inline identifier text))
    (twin : State.Twin first second left right)
    (restored : left.vault.restore statement = right.vault.restore statement) (line : Nat)
    (identifier : Text) :
    (bringIn source inline line statement identifier left).1 =
        (bringIn source inline line statement identifier right).1 ∧
      State.Twin first second (bringIn source inline line statement identifier left).2
        (bringIn source inline line statement identifier right).2 := by
  obtain ⟨added⟩ := twin
  unfold bringIn
  dsimp only
  split
  · exact ⟨rfl, .mk added⟩
  · cases loaded : source.library.load identifier with
    | error error =>
        refine leaveOut_alike (.mk added) ?_ line error
        exact restored
    | ok content =>
        dsimp only
        obtain ⟨same, twin⟩ := (Vault.Twin.mk added).protect equal content.unifyNewlines
        have targets := prepared_targets (unopened identifier content loaded) equal added
          source.nestedComments
        rw [same] at targets ⊢
        generalize (Vault.protect ⟨first ++ added⟩ content.unifyNewlines).2 = one at twin ⊢
        generalize (Vault.protect ⟨second ++ added⟩ content.unifyNewlines).2 = two at twin ⊢
        obtain ⟨more⟩ := twin
        exact inlines identifier _ targets (.mk more)

theorem replaceImport_alike {source : Source} {inline : Text → Text → ImportM Text}
    {statement digits rest : Text} (equal : first.length = second.length)
    (unopened : Unopened source.library)
    (inlines : ∀ identifier text, Targets (Shares first second) text →
      Alike (State.Twin first second) (inline identifier text) (inline identifier text))
    (found : statement? (statement ++ rest) = some (digits, rest))
    (shares : Shares first second digits) (base : Option Text) (line : Nat) :
    Alike (State.Twin first second) (replaceImport source inline base line digits statement)
      (replaceImport source inline base line digits statement) := by
  rintro left right twin
  have numbered : left.vault.numbered digits = right.vault.numbered digits := by
    obtain ⟨added⟩ := twin
    exact (Vault.Twin.mk added).numbered shares
  cases ended : right.vault.numbered digits with
  | error error =>
      rw [run_replaceImport_of_error (numbered.trans ended), run_replaceImport_of_error ended]
      exact ⟨rfl, twin⟩
  | ok literal =>
      rw [run_replaceImport_of_ok (numbered.trans ended), run_replaceImport_of_ok ended]
      split
      · obtain ⟨keyword, ending, restored⟩ := restore_statement found
        have same : left.vault.restore statement = right.vault.restore statement := by
          rw [restored, restored, numbered]
        exact bringIn_alike equal unopened inlines twin same line _
      · exact ⟨rfl, twin⟩

theorem resolveWithin_alike {text : Text} (source : Source) (equal : first.length = second.length)
    (unopened : Unopened source.library) (targets : Targets (Shares first second) text)
    (depth : Nat) (base : Option Text) :
    Alike (State.Twin first second) (resolveWithin source depth base text)
      (resolveWithin source depth base text) := by
  induction depth generalizing text base with
  | zero =>
      refine .replaceM statement?_proper fun line before statement digits rest split found => ?_
      rw [split] at targets
      exact replaceImport_alike equal unopened (fun _ _ _ => .throw _) found
        (targets.of_split found) base line
  | succ depth ih =>
      refine .replaceM statement?_proper fun line before statement digits rest split found => ?_
      rw [split] at targets
      exact replaceImport_alike equal unopened
        (fun identifier text targets => ih targets (some identifier)) found
        (targets.of_split found) base line

end Import

/-- The problem without the text that it quotes from a sheet with its literals put back. -/
def Problem.outline : Problem → Problem
  | .missingSemicolon _ => .missingSemicolon []
  | problem => problem

def Notice.outline (notice : Notice) : Notice := { notice with problem := notice.problem.outline }

/-- What a diagnostic says, short of the contents of literals: its sheet, its line, the kind of its
problem and the text that shows it. -/
def Diagnostic.outline (diagnostic : Diagnostic) : Diagnostic :=
  { diagnostic with notice := diagnostic.notice.outline }

/-- The same context without plug-ins, with two vaults and with diagnostics of the same outline. -/
inductive Context.Twin (first second : List Text) : Context → Context → Prop
  | mk {globals : Table Text} {mixins : Table Mixin} {options : Options} {library : Library}
      {cache : Cache} {basePath : Option Text} {one two : List Diagnostic} (added : List Text)
      (unopened : Import.Unopened library)
      (outlines : one.map Diagnostic.outline = two.map Diagnostic.outline) :
      Twin first second
        ⟨⟨first ++ added⟩, globals, mixins, Plugins.none, options, library, cache, basePath, one⟩
        ⟨⟨second ++ added⟩, globals, mixins, Plugins.none, options, library, cache, basePath, two⟩

theorem outlines_report {one two : List Diagnostic} {notices others : List Notice} (source : Text)
    (earlier : one.map Diagnostic.outline = two.map Diagnostic.outline)
    (same : notices.map Notice.outline = others.map Notice.outline) :
    (one ++ notices.map (Diagnostic.mk source)).map Diagnostic.outline =
      (two ++ others.map (Diagnostic.mk source)).map Diagnostic.outline := by
  have sourced (notices : List Notice) :
      (notices.map (Diagnostic.mk source)).map Diagnostic.outline =
        (notices.map Notice.outline).map (Diagnostic.mk source) := by
    simp [Diagnostic.outline]
  rw [List.map_append, List.map_append, earlier, sourced, sourced, same]

theorem Import.State.Twin.context {left right : Import.State} {globals : Table Text}
    {mixins : Table Mixin} {options : Options} {library : Library} {basePath : Option Text}
    {one two : List Diagnostic} {source : Text} (twin : Import.State.Twin first second left right)
    (unopened : Import.Unopened library)
    (outlines : one.map Diagnostic.outline = two.map Diagnostic.outline) :
    Context.Twin first second
      ⟨left.vault, globals, mixins, Plugins.none, options, library, left.cache, basePath,
        one ++ left.notices.map (Diagnostic.mk source)⟩
      ⟨right.vault, globals, mixins, Plugins.none, options, library, right.cache, basePath,
        two ++ right.notices.map (Diagnostic.mk source)⟩ := by
  obtain ⟨more⟩ := twin
  exact .mk more unopened (outlines_report source outlines rfl)

/-- The repair of semicolons quotes other literals, and otherwise does the same. -/
theorem Declaration.endAll_alike {one two : Vault} (equal : one.size = two.size) (text : Text) :
    Alike (fun left right => left.map Notice.outline = right.map Notice.outline)
      (endAll one text) (endAll two text) := by
  refine .replaceM unended?_whole.proper fun line before source declaration rest _ _ => ?_
  rcases restore_alike equal declaration with ⟨error, left, right⟩ | ⟨restored, other, left, right⟩
  · simp only [left, right]
    exact .throw _
  · simp only [left, right]
    intro left right outlines
    refine ⟨rfl, ?_⟩
    change (left ++ [_]).map Notice.outline = (right ++ [_]).map Notice.outline
    rw [List.map_append, List.map_append, outlines]
    rfl

namespace Pass

theorem run_imports_alike {text : Text} (equal : first.length = second.length)
    (targets : Import.Targets (Shares first second) text) :
    Alike (Context.Twin first second) (run .imports text) (run .imports text) := by
  rintro _ _ ⟨added, unopened, outlines⟩
  obtain ⟨same, twin⟩ :=
    Import.resolveWithin_alike ⟨_, _⟩ equal unopened targets _ _ (.mk added)
  exact ⟨same, twin.context unopened outlines⟩

theorem run_alike {pass : Pass} (equal : first.length = second.length) (other : pass ≠ .imports)
    (text : Text) :
    Alike (Context.Twin first second) (pass.run text) (pass.run text) := by
  rintro _ _ ⟨added, unopened, outlines⟩
  cases pass with
  | newlines => exact ⟨rfl, .mk added unopened outlines⟩
  | literals =>
      obtain ⟨same, twin⟩ := (Vault.Twin.mk added).protect equal text
      refine ⟨congrArg Except.ok same, ?_⟩
      change Context.Twin first second
        ⟨(Vault.protect ⟨first ++ added⟩ text).2, _, _, _, _, _, _, _, _⟩
        ⟨(Vault.protect ⟨second ++ added⟩ text).2, _, _, _, _, _, _, _, _⟩
      generalize (Vault.protect ⟨first ++ added⟩ text).2 = one at twin ⊢
      generalize (Vault.protect ⟨second ++ added⟩ text).2 = two at twin ⊢
      obtain ⟨more⟩ := twin
      exact .mk more unopened outlines
  | comments => exact ⟨rfl, .mk added unopened outlines⟩
  | imports => exact absurd rfl other
  | semicolons =>
      have size := (Vault.Twin.mk added).size equal
      obtain ⟨same, reported⟩ := Declaration.endAll_alike size text rfl
      exact ⟨same, .mk added unopened (outlines_report _ outlines reported)⟩
  | nestedProperties => exact ⟨rfl, .mk added unopened outlines⟩
  | mixins => exact ⟨rfl, .mk added unopened (outlines_report _ outlines rfl)⟩
  | substitution => exact ⟨rfl, .mk added unopened outlines⟩
  | includes => exact ⟨rfl, .mk added unopened (outlines_report _ outlines rfl)⟩
  | converters =>
      rw [run_converters rfl, run_converters rfl]
      exact ⟨rfl, .mk added unopened outlines⟩
  | functions =>
      rw [run_functions rfl, run_functions rfl]
      exact ⟨rfl, .mk added unopened outlines⟩

theorem runAll_alike {passes : List Pass} (equal : first.length = second.length)
    (others : .imports ∉ passes) (text : Text) :
    Alike (Context.Twin first second) (runAll passes text) (runAll passes text) := by
  induction passes generalizing text with
  | nil => exact .pure text
  | cons pass passes ih =>
      obtain ⟨other, others⟩ : .imports ≠ pass ∧ .imports ∉ passes := by simpa using others
      rw [runAll_cons]
      exact (run_alike equal other.symm text).bind fun text => ih others text

end Pass

variable {basePath : Option Text} {options : Options} {library : Library} {cache : Cache}

theorem run_preprocess_of_lifted {source text : Text}
    (lifted : Vault.protect ⟨[]⟩ source.unifyNewlines = (text, ⟨first⟩)) :
    (preprocess source).run.run (Context.start basePath options Plugins.none library cache) =
      (Pass.runAll (Pass.pipeline.drop 3) (Comment.strip options.nestedComments text)).run.run
        { Context.start basePath options Plugins.none library cache with vault := ⟨first⟩ } := by
  have passes : preprocess source =
      Pass.runAll (.newlines :: .literals :: .comments :: Pass.pipeline.drop 3) source := rfl
  have literals := Pass.run_literals source.unifyNewlines
    (Context.start basePath options Plugins.none library cache)
  rw [show (Context.start basePath options Plugins.none library cache).vault.protect
    source.unifyNewlines = (text, ⟨first⟩) from lifted] at literals
  rw [passes, Pass.runAll_cons]
  refine (run_bind_of_ok rfl).trans ?_
  rw [Pass.runAll_cons, run_bind_of_ok literals, Pass.runAll_cons]
  exact run_bind_of_ok rfl

theorem runAll_from_imports_alike {text : Text} (equal : first.length = second.length)
    (targets : Import.Targets (Shares first second) text) :
    Alike (Context.Twin first second) (Pass.runAll (Pass.pipeline.drop 3) text)
      (Pass.runAll (Pass.pipeline.drop 3) text) := by
  have passes : Pass.pipeline.drop 3 = .imports :: Pass.pipeline.drop 4 := rfl
  have others : .imports ∉ Pass.pipeline.drop 4 := by decide
  rw [passes, Pass.runAll_cons]
  exact (Pass.run_imports_alike equal targets).bind fun text => Pass.runAll_alike equal others text

/-- Two sheets of which literals make the only difference: lifting them leaves the same text and as
many literals, and wherever a placeholder comes right after `@import` it stands for the same one. No
resource holds an opening mark. Then the passes do the same to both, and the two results differ by
the literals that are put back into one CSS text. -/
theorem convert_noninterference {source other text : Text}
    (lifted : Vault.protect ⟨[]⟩ source.unifyNewlines = (text, ⟨first⟩))
    (lifted' : Vault.protect ⟨[]⟩ other.unifyNewlines = (text, ⟨second⟩))
    (equal : first.length = second.length) (unopened : Import.Unopened library)
    (targets : Import.Targets (fun digits =>
      get? ⟨first⟩ (indexOf digits) = get? ⟨second⟩ (indexOf digits))
      (Comment.strip options.nestedComments text)) :
    ∃ result left right added,
      (preprocess source).run.run (Context.start basePath options Plugins.none library cache) =
        (result, left) ∧
      (preprocess other).run.run (Context.start basePath options Plugins.none library cache) =
        (result, right) ∧
      left.vault = ⟨first ++ added⟩ ∧ right.vault = ⟨second ++ added⟩ ∧
      left.globals = right.globals ∧ left.mixins = right.mixins ∧ left.cache = right.cache ∧
      left.diagnostics.map Diagnostic.outline = right.diagnostics.map Diagnostic.outline ∧
      ∀ root,
        (convert source root).run.run (Context.start basePath options Plugins.none library cache) =
          (result.bind (Vault.finish ⟨first ++ added⟩ root), left) ∧
        (convert other root).run.run (Context.start basePath options Plugins.none library cache) =
          (result.bind (Vault.finish ⟨second ++ added⟩ root), right) := by
  have shared : Import.Targets (Shares first second) (Comment.strip options.nestedComments text) :=
    fun tail member found hit => shares_of_get? equal (targets tail member found hit)
  have twin : Context.Twin first second
      { Context.start basePath options Plugins.none library cache with vault := ⟨first ++ []⟩ }
      { Context.start basePath options Plugins.none library cache with vault := ⟨second ++ []⟩ } :=
    .mk [] unopened rfl
  rw [List.append_nil, List.append_nil] at twin
  have runs := runAll_from_imports_alike equal shared twin
  rw [← run_preprocess_of_lifted lifted, ← run_preprocess_of_lifted lifted'] at runs
  rcases ran : (preprocess source).run.run
    (Context.start basePath options Plugins.none library cache) with ⟨result, left⟩
  rcases ran' : (preprocess other).run.run
    (Context.start basePath options Plugins.none library cache) with ⟨result', right⟩
  rw [ran, ran'] at runs
  obtain ⟨rfl, twin⟩ : result = result' ∧ Context.Twin first second left right := runs
  obtain ⟨added, _, outlines⟩ := twin
  exact ⟨result, _, _, added, rfl, rfl, rfl, rfl, rfl, rfl, rfl, outlines, fun root =>
    ⟨run_convert ran root, run_convert ran' root⟩⟩

/-- An import that both sheets name, a literal of its resource, and contents that would open a
comment, a declaration and a block if they were read. -/
theorem convert_noninterference_unread_contents :
    let source : Text := "@import '_b'; a \x7b x: \"p\"; y: $v '' \x7d".toList
    let other : Text := "@import '_b'; a \x7b x: '/* $v: 1; \x7b'; y: $v \"@import\" \x7d".toList
    let first := ["'_b'".toList, "\"p\"".toList, "''".toList]
    let second := ["'_b'".toList, "'/* $v: 1; \x7b'".toList, "\"@import\"".toList]
    let library := Library.ofTable (Table.ofList [("b".toList, .text "$v: \"r\";".toList)])
    let start := Context.start none .default Plugins.none library .empty
    Vault.protect ⟨[]⟩ source = ((Vault.protect ⟨[]⟩ other).1, ⟨first⟩) ∧
      (Vault.protect ⟨[]⟩ other).2 = ⟨second⟩ ∧
      ∃ result left right added,
        (preprocess source).run.run start = (result, left) ∧
        (preprocess other).run.run start = (result, right) ∧
        left.vault = ⟨first ++ added⟩ ∧ right.vault = ⟨second ++ added⟩ ∧
        left.globals = right.globals ∧ left.mixins = right.mixins ∧ left.cache = right.cache ∧
        left.diagnostics.map Diagnostic.outline = right.diagnostics.map Diagnostic.outline ∧
        ∀ root,
          (convert source root).run.run start =
            (result.bind (Vault.finish ⟨first ++ added⟩ root), left) ∧
          (convert other root).run.run start =
            (result.bind (Vault.finish ⟨second ++ added⟩ root), right) := by
  intro source other first second library start
  have lifted : Vault.protect ⟨[]⟩ source.unifyNewlines =
      ((Vault.protect ⟨[]⟩ other).1, ⟨first⟩) := by decide +kernel
  have lifted' : Vault.protect ⟨[]⟩ other.unifyNewlines =
      ((Vault.protect ⟨[]⟩ other).1, ⟨second⟩) := by decide +kernel
  have unopened : Import.Unopened library := Import.unopened_ofTable (by decide +kernel)
  have targets : Import.Targets (fun digits =>
      get? ⟨first⟩ (indexOf digits) = get? ⟨second⟩ (indexOf digits))
      (Comment.strip Options.default.nestedComments (Vault.protect ⟨[]⟩ other).1) := by
    decide +kernel
  exact ⟨by decide +kernel, by decide +kernel,
    convert_noninterference lifted lifted' rfl unopened targets⟩

/-- Lifting the literals of two sheets leaves the same text, and wherever a placeholder comes right
after `@import` it stands for the same one, and yet the passes end differently. -/
def ToldApart (resources : Table Resource) (source other : Text) : Prop :=
  let (text, vault) := Vault.protect ⟨[]⟩ source
  let (text', vault') := Vault.protect ⟨[]⟩ other
  let start := Context.fresh none .default resources .empty
  text = text' ∧
    Import.Targets (fun digits => vault.get? (indexOf digits) = vault'.get? (indexOf digits))
      (Comment.strip Options.default.nestedComments text) ∧
    ((preprocess source).run.run start).1 ≠ ((preprocess other).run.run start).1

instance (resources : Table Resource) (source other : Text) :
    Decidable (ToldApart resources source other) :=
  inferInstanceAs (Decidable (_ ∧ _ ∧ _))

/-- What else tells two sheets apart. Newlines are unified before literals are lifted, so a carriage
return inside quotes ends the line. A placeholder written in a resource imports what a literal of
the sheet names. A placeholder written in one sheet only leaves it with fewer literals, so that
those of a resource get other numbers. -/
theorem toldApart_beyond_literals :
    ToldApart .empty "a \x7b x: \"p\rq\"; \x7d".toList "a \x7b x: \"pq\"; \x7d".toList ∧
      ToldApart (Table.ofList [
          ("r.scss".toList, .text ("@import ".toList ++ placeholder 1 ++ [';'])),
          ("b.scss".toList, .text "b \x7b y: z; \x7d".toList),
          ("c.scss".toList, .text "c \x7b y: z; \x7d".toList)])
        "a \x7b x: \"b.scss\"; \x7d @import \"r.scss\";".toList
        "a \x7b x: \"c.scss\"; \x7d @import \"r.scss\";".toList ∧
      ToldApart (Table.ofList [("r.scss".toList, .text "b \x7b y: \"p\"; \x7d".toList)])
        "@import \"r.scss\"; a \x7b x: \"q\"; \x7d".toList
        ("@import \"r.scss\"; a \x7b x: ".toList ++ placeholder 2 ++ "; \x7d".toList) := by
  decide +kernel

end Flatsheet
