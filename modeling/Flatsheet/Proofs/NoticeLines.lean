import Flatsheet.Proofs.Expansion
import Flatsheet.Proofs.MissingSemicolons
import Flatsheet.Proofs.Registration

/-!
The lines of the notices about mixins. Registration removes definitions and expansion replaces
includes while they go through a text, and the line of a notice is counted in the text as it is by
then. It is the line in the text that was given if what was replaced before holds as many line feeds
as what stands there now.
-/

namespace Flatsheet

universe u

namespace Piece

variable {α : Type u}

def replaced (replacement : α → Text) : Piece α → Text
  | .char c => [c]
  | .hit value _ => replacement value

def match? : Piece α → Option (α × Text)
  | .char _ => none
  | .hit value source => some (value, source)

end Piece

namespace Pattern

variable {α : Type u} {pattern : Pattern α}

/-- The line after the pieces, once the matches among them are replaced. -/
def lineAfter (replacement : α → Text) (pieces : List (Piece α)) : Nat :=
  1 + Text.newlines (pieces.flatMap (Piece.replaced replacement))

theorem lineAfter_char (replacement : α → Text) (pieces : List (Piece α)) (c : Char) :
    lineAfter replacement (pieces ++ [.char c]) =
      lineAfter replacement pieces + Text.newlines [c] := by
  rw [lineAfter, List.flatMap_append, Text.newlines_append, ← Nat.add_assoc]
  rfl

theorem lineAfter_hit (replacement : α → Text) (pieces : List (Piece α)) (value : α)
    (source : Text) :
    lineAfter replacement (pieces ++ [.hit value source]) =
      lineAfter replacement pieces + Text.newlines (replacement value) := by
  rw [lineAfter, List.flatMap_append, Text.newlines_append, ← Nat.add_assoc, List.flatMap_singleton]
  rfl

/-- A match where it stands, after the pieces before it. -/
structure Site (α : Type u) where
  before : List (Piece α)
  value : α

/-- The matches before, each with its text. -/
def Site.earlier (site : Site α) : List (α × Text) := site.before.filterMap Piece.match?

/-- Where the match begins in the text that was cut. -/
def Site.offset (site : Site α) : Nat := (site.before.flatMap Piece.source).length

/-- The matches among the pieces that come after `before`. -/
def sitesFrom (before : List (Piece α)) : List (Piece α) → List (Site α)
  | [] => []
  | .char c :: pieces => sitesFrom (before ++ [.char c]) pieces
  | .hit value source :: pieces =>
      ⟨before, value⟩ :: sitesFrom (before ++ [.hit value source]) pieces

def sites (pattern : Pattern α) (text : Text) : List (Site α) := sitesFrom [] (pattern.cut text)

/-- The text splits at a site: the match begins right after the pieces before it. -/
theorem split_of_mem_sites (proper : pattern.Proper) {text : Text} {site : Site α}
    (member : site ∈ pattern.sites text) :
    ∃ start rest, text = site.before.flatMap Piece.source ++ start ∧
      pattern start = some (site.value, rest) := by
  suffices steps : ∀ before, site ∈ sitesFrom before (pattern.cut text) →
      ∃ start rest, before.flatMap Piece.source ++ text =
        site.before.flatMap Piece.source ++ start ∧ pattern start = some (site.value, rest) from
    steps [] member
  refine cut_induction proper (motive := fun text pieces => ∀ before,
    site ∈ sitesFrom before pieces → ∃ start rest, before.flatMap Piece.source ++ text =
      site.before.flatMap Piece.source ++ start ∧ pattern start = some (site.value, rest)) ?_ ?_ ?_
    text
  · intro before member
    cases member
  · intro c rest _ ih before member
    obtain ⟨start, left, split, found⟩ := ih (before ++ [.char c]) member
    exact ⟨start, left, by simpa [Piece.source] using split, found⟩
  · intro source value rest _ matched ih before member
    rcases List.mem_cons.mp member with rfl | later
    · exact ⟨source ++ rest, rest, rfl, matched⟩
    · obtain ⟨start, left, split, found⟩ := ih (before ++ [.hit value source]) later
      exact ⟨start, left, by simpa [Piece.source] using split, found⟩

theorem found_of_mem_sites (proper : pattern.Proper) {text : Text} {site : Site α}
    (member : site ∈ pattern.sites text) :
    ∃ rest, pattern (text.drop site.offset) = some (site.value, rest) := by
  obtain ⟨start, rest, split, found⟩ := split_of_mem_sites proper member
  exact ⟨rest, by rw [split, Site.offset, List.drop_left, found]⟩

/-- Replacing the matches changes the number of line feeds by those of the matches. -/
theorem newlines_replaced (replacement : α → Text) (pieces : List (Piece α)) :
    Text.newlines (pieces.flatMap (Piece.replaced replacement)) +
        Text.newlines ((pieces.filterMap Piece.match?).flatMap Prod.snd) =
      Text.newlines (pieces.flatMap Piece.source) +
        Text.newlines ((pieces.filterMap Piece.match?).flatMap fun found =>
          replacement found.1) := by
  induction pieces with
  | nil => rfl
  | cons piece pieces ih =>
      rw [List.flatMap_cons, List.flatMap_cons, Text.newlines_append, Text.newlines_append]
      cases piece with
      | char c =>
          rw [List.filterMap_cons_none rfl, Piece.replaced, Piece.source]
          omega
      | hit value source =>
          have found : (Piece.hit value source).match? = some (value, source) := rfl
          rw [List.filterMap_cons_some found, List.flatMap_cons, List.flatMap_cons,
            Text.newlines_append, Text.newlines_append, Piece.replaced, Piece.source]
          dsimp only
          omega

/-- The line counted amid replacements is the line in the text that was given exactly if the matches
before the site hold as many line feeds as what replaces them. -/
theorem lineAfter_eq_iff (proper : pattern.Proper) {text : Text} {site : Site α}
    (member : site ∈ pattern.sites text) (replacement : α → Text) :
    lineAfter replacement site.before = text.lineAt site.offset ↔
      Text.newlines (site.earlier.flatMap fun found => replacement found.1) =
        Text.newlines (site.earlier.flatMap Prod.snd) := by
  obtain ⟨start, rest, split, _⟩ := split_of_mem_sites proper member
  have counted := newlines_replaced replacement site.before
  rw [split, Site.offset, Declaration.lineAt_length, lineAfter]
  simp only [Site.earlier]
  omega

/-- If matches are removed, it is so where none of them runs on to another line. -/
theorem lineAfter_removed_eq_iff (proper : pattern.Proper) {text : Text} {site : Site α}
    (member : site ∈ pattern.sites text) :
    lineAfter (fun _ => []) site.before = text.lineAt site.offset ↔
      ∀ found ∈ site.earlier, '\n' ∉ found.2 := by
  have nothing : (site.earlier.flatMap fun _ => []) = ([] : Text) := by simp
  rw [lineAfter_eq_iff proper member, nothing, eq_comm]
  change List.count '\n' (site.earlier.flatMap Prod.snd) = 0 ↔ _
  simp only [List.count_eq_zero, List.mem_flatMap, not_exists, not_and]

end Pattern

namespace Mixin

open Pattern

/-- The keys of the definitions among the pieces. -/
def keysOf (pieces : List (Piece Definition)) : List Text :=
  (pieces.filterMap Piece.match?).map fun found => key found.1.mixin.name

theorem keysOf_char (pieces : List (Piece Definition)) (c : Char) :
    keysOf (pieces ++ [.char c]) = keysOf pieces := by
  simp [keysOf, Piece.match?]

theorem keysOf_hit (pieces : List (Piece Definition)) (definition : Definition) (source : Text) :
    keysOf (pieces ++ [.hit definition source]) =
      keysOf pieces ++ [key definition.mixin.name] := by
  simp [keysOf, Piece.match?]

/-- The definition has a key that is known from the start, or that a definition before it has. -/
def isDuplicate (known : List Text) (site : Site Definition) : Bool :=
  (known ++ keysOf site.before).contains (key site.value.mixin.name)

def duplicateNotice (site : Site Definition) : Notice :=
  ⟨.duplicateMixin site.value.mixin.name, some (lineAfter (fun _ => []) site.before),
    some site.value.heading⟩

/-- Registration from some piece on, where the table holds the keys met before. -/
theorem notices_registered (known : List Text) (before pieces : List (Piece Definition))
    {mixins : Table Mixin}
    (same : ∀ name, name ∈ mixins.names ↔ name ∈ known ++ keysOf before) (notices : List Notice) :
    ((splicePieces registered (lineAfter (fun _ => []) before) pieces).run
      (mixins, notices)).2.2 =
      notices ++ ((sitesFrom before pieces).filter (isDuplicate known)).map duplicateNotice := by
  induction pieces generalizing before mixins notices with
  | nil => exact (List.append_nil notices).symm
  | cons piece pieces ih =>
      cases piece with
      | char c =>
          rw [run_splicePieces_char, ← lineAfter_char]
          exact ih (before ++ [.char c]) (by rwa [keysOf_char]) notices
      | hit definition source =>
          have goesOn : lineAfter (fun _ => []) before + Text.newlines [] =
              lineAfter (fun _ => []) (before ++ [.hit definition source]) :=
            (lineAfter_hit (fun _ => []) before definition source).symm
          by_cases repeated : key definition.mixin.name ∈ mixins.names
          · have duplicate : isDuplicate known ⟨before, definition⟩ = true :=
              List.contains_iff_mem.mpr ((same _).mp repeated)
            have still : ∀ name, name ∈ mixins.names ↔
                name ∈ known ++ keysOf (before ++ [.hit definition source]) := by
              intro name
              rw [keysOf_hit, ← List.append_assoc, List.mem_append, ← same, List.mem_singleton]
              exact ⟨.inl, fun either => either.elim id fun equal => equal ▸ repeated⟩
            rw [run_splicePieces_hit (run_registered_duplicate (Table.contains_iff.mpr repeated)),
              goesOn]
            dsimp only
            rw [ih _ still, sitesFrom, List.filter_cons_of_pos duplicate, List.map_cons,
              List.append_assoc]
            rfl
          · have first : ¬ isDuplicate known ⟨before, definition⟩ = true := fun duplicate =>
              repeated ((same _).mpr (List.contains_iff_mem.mp duplicate))
            have free : ¬ mixins.contains (key definition.mixin.name) = true := fun contained =>
              repeated (Table.contains_iff.mp contained)
            have grown : ∀ name,
                name ∈ (mixins.insert (key definition.mixin.name) definition.mixin).names ↔
                  name ∈ known ++ keysOf (before ++ [.hit definition source]) := by
              intro name
              rw [Table.mem_names_insert, keysOf_hit, ← List.append_assoc, List.mem_append, ← same,
                List.mem_singleton]
            rw [run_splicePieces_hit (run_registered_first free), goesOn]
            dsimp only
            rw [ih _ grown, sitesFrom, List.filter_cons_of_neg first]

end Mixin

namespace Expansion

open Pattern

variable {scope : Scope} {expandContent expandBody : Text → StateM State Text}

/-- What an expansion gives and reports depends on the guard alone; its notices have no lines. -/
def Appends (expand : Text → StateM State Text) : Prop :=
  ∀ text guard, ∃ result more, (∀ notice ∈ more, notice.line = none) ∧
    ∀ notices, (expand text).run ⟨guard, notices⟩ = (result, ⟨guard, notices ++ more⟩)

/-- An include whose mixin is expanded is not reported itself, whatever its line. -/
theorem run_expandInclude_appends (content : Appends expandContent) (body : Appends expandBody)
    {inclusion : Include} {guard : List Text} {mixin : Mixin}
    (free : Mixin.key inclusion.name ∉ guard)
    (known : scope.mixins.get? (Mixin.key inclusion.name) = some mixin) :
    ∃ result more, (∀ notice ∈ more, notice.line = none) ∧ ∀ line notices,
      (expandInclude scope expandContent expandBody line inclusion).run ⟨guard, notices⟩ =
        (result, ⟨guard, notices ++ more⟩) := by
  obtain ⟨given, outer, outerLines, outside⟩ := content (inclusion.content.getD []) guard
  obtain ⟨expanded, inner, innerLines, inside⟩ :=
    body mixin.body (Mixin.key inclusion.name :: guard)
  have ran (line : Option Int) (notices : List Notice) := @run_expandInclude_of_runs scope
    expandContent expandBody line inclusion ⟨guard, notices⟩ mixin given expanded _ _ free known
    (outside notices) (inside (notices ++ outer))
  simp only [List.erase_cons_head, List.append_assoc] at ran
  refine ⟨_, outer ++ inner, fun notice member => ?_, ran⟩
  exact (List.mem_append.mp member).elim (outerLines notice) (innerLines notice)

theorem appends_expandInclude (content : Appends expandContent) (body : Appends expandBody)
    (inclusion : Include) (guard : List Text) :
    ∃ result more, (∀ notice ∈ more, notice.line = none) ∧ ∀ notices,
      (expandInclude scope expandContent expandBody none inclusion).run ⟨guard, notices⟩ =
        (result, ⟨guard, notices ++ more⟩) := by
  cases guarded : guard.contains (Mixin.key inclusion.name) with
  | true => exact ⟨[], _, by simp, fun notices => run_expandInclude_of_guarded guarded⟩
  | false =>
      cases known : scope.mixins.get? (Mixin.key inclusion.name) with
      | none => exact ⟨[], _, by simp, fun notices => run_expandInclude_of_unknown guarded known⟩
      | some mixin =>
          obtain ⟨result, more, lines, ran⟩ :=
            run_expandInclude_appends content body (by simpa using guarded) known
          exact ⟨result, more, lines, ran none⟩

theorem appends_spliceM (content : Appends expandContent) (body : Appends expandBody) :
    Appends (Include.include?.spliceM fun _ inclusion =>
      expandInclude scope expandContent expandBody none inclusion) := by
  intro text guard
  rw [spliceM]
  generalize Include.include?.cut text = pieces
  generalize 1 = line
  induction pieces generalizing line with
  | nil => exact ⟨[], [], by simp, fun notices => by rw [List.append_nil]; rfl⟩
  | cons piece pieces ih =>
      cases piece with
      | char c =>
          obtain ⟨result, more, lines, ran⟩ := ih (line + Text.newlines [c])
          refine ⟨c :: result, more, lines, fun notices => ?_⟩
          rw [run_splicePieces_char, ran]
      | hit inclusion source =>
          obtain ⟨replacement, first, firstLines, here⟩ :=
            appends_expandInclude content body inclusion guard
          obtain ⟨result, more, lines, ran⟩ := ih (line + Text.newlines replacement)
          refine ⟨replacement ++ result, first ++ more, fun notice member => ?_, fun notices => ?_⟩
          · exact (List.mem_append.mp member).elim (firstLines notice) (lines notice)
          · rw [run_splicePieces_hit (here notices), ran, List.append_assoc]

theorem appends_pure : Appends pure := fun text guard =>
  ⟨text, [], by simp, fun notices => by rw [List.append_nil]; rfl⟩

theorem appends_expandNested (body : Appends expandBody) (depth : Nat) :
    Appends (expandNested scope expandBody depth) := by
  induction depth with
  | zero => exact appends_pure
  | succ depth ih => exact appends_spliceM ih body

theorem appends_expandBody (levels : Nat) : Appends (Expansion.expandBody scope levels) := by
  induction levels with
  | zero => exact fun text => appends_expandNested appends_pure text.length text
  | succ levels ih => exact fun text => appends_expandNested ih text.length text

theorem appends_expandWithin : Appends (expandWithin scope) := fun text =>
  appends_expandNested (appends_expandBody scope.mixins.size) text.length text

/-- What an include of a sheet becomes. -/
def expansion (scope : Scope) (inclusion : Include) : Text :=
  ((expandInclude scope (expandWithin scope) (expandWithin scope) none inclusion).run ⟨[], []⟩).1

def isUnknown (scope : Scope) (site : Site Include) : Bool :=
  (scope.mixins.get? (Mixin.key site.value.name)).isNone

def unknownNotice (scope : Scope) (site : Site Include) : Notice :=
  ⟨.unknownMixin site.value.name, some (lineAfter (expansion scope) site.before),
    some site.value.heading⟩

/-- Expansion from some include of a sheet on. Only the includes of the sheet itself are reported
with a line, and no mixin is being expanded around them. -/
theorem notices_expanded (scope : Scope) (before pieces : List (Piece Include))
    (notices : List Notice) :
    ∃ more, ((splicePieces (fun line inclusion =>
        expandInclude scope (expandWithin scope) (expandWithin scope) (some (line : Int)) inclusion)
        (lineAfter (expansion scope) before) pieces).run ⟨[], notices⟩).2 =
          ⟨[], notices ++ more⟩ ∧
      more.filter (·.line.isSome) =
        ((sitesFrom before pieces).filter (isUnknown scope)).map (unknownNotice scope) := by
  induction pieces generalizing before notices with
  | nil => exact ⟨[], by rw [List.append_nil]; rfl, rfl⟩
  | cons piece pieces ih =>
      cases piece with
      | char c =>
          rw [run_splicePieces_char, ← lineAfter_char]
          exact ih (before ++ [.char c]) notices
      | hit inclusion source =>
          have goesOn := lineAfter_hit (expansion scope) before inclusion source
          cases known : scope.mixins.get? (Mixin.key inclusion.name) with
          | none =>
              have unknown : isUnknown scope ⟨before, inclusion⟩ = true := by
                simp [isUnknown, known]
              have removed : expansion scope inclusion = [] := by
                rw [expansion, run_expandInclude_of_unknown rfl known]
              have ran := @run_expandInclude_of_unknown scope (expandWithin scope)
                (expandWithin scope) (some (lineAfter (expansion scope) before : Int)) inclusion
                ⟨[], notices⟩ rfl known
              obtain ⟨more, rest, lines⟩ := ih (before ++ [.hit inclusion source])
                (notices ++ [unknownNotice scope ⟨before, inclusion⟩])
              refine ⟨unknownNotice scope ⟨before, inclusion⟩ :: more, ?_, ?_⟩
              · rw [goesOn, removed, List.append_assoc] at rest
                rw [run_splicePieces_hit ran]
                exact rest
              · rw [sitesFrom, List.filter_cons_of_pos unknown, List.map_cons, ← lines]
                rfl
          | some mixin =>
              have found : ¬ isUnknown scope ⟨before, inclusion⟩ = true := by
                simp [isUnknown, known]
              obtain ⟨result, own, unplaced, ran⟩ := run_expandInclude_appends
                (@appends_expandWithin scope) appends_expandWithin (by simp : _ ∉ []) known
              have same : expansion scope inclusion = result := by
                rw [expansion, ran]
              obtain ⟨more, rest, lines⟩ := ih (before ++ [.hit inclusion source]) (notices ++ own)
              refine ⟨own ++ more, ?_, ?_⟩
              · rw [goesOn, same, List.append_assoc] at rest
                rw [run_splicePieces_hit (ran _ notices)]
                exact rest
              · have silent : own.filter (·.line.isSome) = [] :=
                  List.filter_eq_nil_iff.mpr fun notice member => by simp [unplaced notice member]
                rw [List.filter_append, silent, List.nil_append, lines, sitesFrom,
                  List.filter_cons_of_neg found]

end Expansion

namespace Conversion

open Pattern Mixin Expansion

theorem diagnostics_registerMixins (text : Text) (context : Context) :
    ((registerMixins text).run.run context).2.diagnostics = context.diagnostics ++
      ((definition?.sites text).filter (isDuplicate context.mixins.names)).map fun site =>
        ⟨context.source, duplicateNotice site⟩ := by
  have notices : ((registerAll text).run (context.mixins, [])).2.2 = [] ++ _ :=
    notices_registered context.mixins.names [] (definition?.cut text)
      (fun name => by rw [keysOf, List.filterMap_nil, List.map_nil, List.append_nil]) []
  change context.diagnostics ++ ((registerAll text).run (context.mixins, [])).2.2.map
    (fun notice => ⟨context.source, notice⟩) = _
  rw [notices, List.nil_append, List.map_map]
  rfl

theorem diagnostics_expandIncludes (text : Text) (context : Context) :
    ∃ more, ((expandIncludes text).run.run context).2.diagnostics = context.diagnostics ++ more ∧
      more.filter (·.notice.line.isSome) =
        ((Include.include?.sites text).filter (isUnknown (scope context))).map fun site =>
          ⟨context.source, unknownNotice (scope context) site⟩ := by
  obtain ⟨more, ran, lines⟩ := notices_expanded (scope context) [] (Include.include?.cut text) []
  have state : ((expandAll (scope context) text).run ⟨[], []⟩).2 = ⟨[], [] ++ more⟩ := by
    rw [run_expandAll]
    exact ran
  refine ⟨more.map fun notice => ⟨context.source, notice⟩, ?_, ?_⟩
  · change context.diagnostics ++ ((expandAll (scope context) text).run ⟨[], []⟩).2.notices.map
      (fun notice => ⟨context.source, notice⟩) = _
    rw [state, List.nil_append]
  · rw [List.filter_map]
    exact (congrArg (List.map _) lines).trans List.map_map

/-- Which diagnostics have a line, and when that is the line in the text that was given: where what
has been taken out or put in before holds as many line feeds as it did in that text. -/
theorem mixin_notice_lines (text : Text) (context : Context) :
    let duplicates := (definition?.sites text).filter (isDuplicate context.mixins.names)
    let unknown := (Include.include?.sites text).filter (isUnknown (scope context))
    ((registerMixins text).run.run context).2.diagnostics = context.diagnostics ++
        duplicates.map (fun site => ⟨context.source, duplicateNotice site⟩) ∧
      (∃ more,
        ((expandIncludes text).run.run context).2.diagnostics = context.diagnostics ++ more ∧
        more.filter (·.notice.line.isSome) =
          unknown.map fun site => ⟨context.source, unknownNotice (scope context) site⟩) ∧
      (∀ site ∈ duplicates,
        (∃ rest, definition? (text.drop site.offset) = some (site.value, rest)) ∧
        ((duplicateNotice site).line = some (text.lineAt site.offset : Int) ↔
          ∀ found ∈ site.earlier, '\n' ∉ found.2)) ∧
      ∀ site ∈ unknown,
        (∃ rest, Include.include? (text.drop site.offset) = some (site.value, rest)) ∧
        ((unknownNotice (scope context) site).line = some (text.lineAt site.offset : Int) ↔
          Text.newlines (site.earlier.flatMap fun found => expansion (scope context) found.1) =
            Text.newlines (site.earlier.flatMap Prod.snd)) := by
  refine ⟨diagnostics_registerMixins text context, diagnostics_expandIncludes text context,
    fun site member => ?_, fun site member => ?_⟩
  · have stands := (List.mem_filter.mp member).1
    refine ⟨found_of_mem_sites definition?_whole.proper stands, ?_⟩
    rw [duplicateNotice, Option.some.injEq, Int.natCast_inj,
      lineAfter_removed_eq_iff definition?_whole.proper stands]
  · have stands := (List.mem_filter.mp member).1
    refine ⟨found_of_mem_sites Include.include?_whole.proper stands, ?_⟩
    rw [unknownNotice, Option.some.injEq, Int.natCast_inj,
      lineAfter_eq_iff Include.include?_whole.proper stands]

/-- A definition that does not run on to another line; and an include whose content block does, as
the body that takes its place. -/
theorem mixin_notice_lines_level :
    let definitions : Text := "@mixin m() \x7b\x7d\n@mixin m() \x7b\x7d"
    let inclusions : Text := "@include n \x7b\n\x7d\n@include gone;"
    let context : Context := { Context.start none Options.default Plugins.none
      (Library.ofTable Table.empty) Cache.empty with
        mixins := Table.ofList [("n".toList, ⟨"n", [], "x: y;\n"⟩)] }
    let duplicates := (definition?.sites definitions).filter (isDuplicate context.mixins.names)
    let unknown := (Include.include?.sites inclusions).filter (isUnknown (scope context))
    (∃ site ∈ duplicates, definitions.lineAt site.offset = 2 ∧
        (duplicateNotice site).line = some (definitions.lineAt site.offset : Int)) ∧
      ∃ site ∈ unknown, inclusions.lineAt site.offset = 3 ∧
        (unknownNotice (scope context) site).line = some (inclusions.lineAt site.offset : Int) := by
  intro definitions inclusions context duplicates unknown
  obtain ⟨_, _, registered, _⟩ := mixin_notice_lines definitions context
  obtain ⟨_, _, _, expanded⟩ := mixin_notice_lines inclusions context
  obtain ⟨definition, second⟩ : ∃ site, site ∈ duplicates :=
    List.exists_mem_of_length_pos (by decide +kernel)
  obtain ⟨inclusion, last⟩ : ∃ site, site ∈ unknown :=
    List.exists_mem_of_length_pos (by decide +kernel)
  have lines : (∀ site ∈ duplicates, definitions.lineAt site.offset = 2) ∧
      ∀ site ∈ unknown, inclusions.lineAt site.offset = 3 := by
    decide +kernel
  have unbroken : ∀ site ∈ duplicates, ∀ found ∈ site.earlier, '\n' ∉ found.2 := by
    decide +kernel
  have level : ∀ site ∈ unknown,
      Text.newlines (site.earlier.flatMap fun found => expansion (scope context) found.1) =
        Text.newlines (site.earlier.flatMap Prod.snd) := by
    decide +kernel
  exact ⟨⟨definition, second, lines.1 definition second,
      (registered definition second).2.mpr (unbroken definition second)⟩,
    inclusion, last, lines.2 inclusion last,
      (expanded inclusion last).2.mpr (level inclusion last)⟩

/-- A definition and an include that end in the next line are removed, and the notices about what
stands in the third line give the second. -/
theorem mixin_notice_lines_short :
    let definitions : Text := "@mixin m() \x7b\n\x7d\n@mixin m() \x7b\x7d"
    let inclusions : Text := "@include a \x7b\n\x7d\n@include b;"
    let context := Context.start none Options.default Plugins.none (Library.ofTable Table.empty)
      Cache.empty
    let lines (pass : ConvertM Text) : List (Option Text × Option Int) :=
      (pass.run.run context).2.diagnostics.map fun diagnostic =>
        (diagnostic.notice.construct, diagnostic.notice.line)
    (lines (registerMixins definitions) = [(some "@mixin m() \x7b".toList, some 2)] ∧
      definitions.drop 15 = "@mixin m() \x7b\x7d".toList ∧ definitions.lineAt 15 = 3) ∧
    lines (expandIncludes inclusions) =
        [(some "@include a".toList, some 1), (some "@include b".toList, some 2)] ∧
      inclusions.drop 15 = "@include b;".toList ∧ inclusions.lineAt 15 = 3 := by
  decide +kernel

end Conversion

end Flatsheet
