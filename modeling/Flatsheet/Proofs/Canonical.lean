import Flatsheet.Proofs.MediaBlocks

/-!
Canonical CSS. Rules in normal form are written as bare declarations of the root and as lines, each
with the selectors of one media condition. A line reads back as one block, or as two for a selector
under a condition, and these blocks make that line again.
-/

namespace Flatsheet.Css

/-- Normal form of a selector or of a media condition: blanks collapsed, no delimiter, every
bracket closed and no comma outside brackets. -/
structure CanonicalText (text : Text) : Prop where
  collapsed : text.collapse = text
  undelimited : Token.Undelimited text
  unsplit : Text.Unsplit text

instance (text : Text) : Decidable (CanonicalText text) :=
  decidable_of_iff (text.collapse = text ∧ Token.Undelimited text ∧ Text.Unsplit text)
    ⟨fun ⟨collapsed, undelimited, unsplit⟩ => ⟨collapsed, undelimited, unsplit⟩,
      fun ⟨collapsed, undelimited, unsplit⟩ => ⟨collapsed, undelimited, unsplit⟩⟩

structure CanonicalSelector (selector : Selector) : Prop where
  given : selector.text ≠ [] ∨ selector.media ≠ []
  text : CanonicalText selector.text
  media : CanonicalText selector.media
  unnested : '&' ∉ selector.text
  unlimited : Selector.isMediaQuery selector.text = false

def CanonicalDeclaration (declaration : Text) : Prop :=
  ∃ statement : Text, statement ≠ [] ∧ statement.collapse = statement ∧
    Token.Undelimited statement ∧ declaration = statement ++ [';']

structure CanonicalRule (rule : Rule) : Prop where
  selected : rule.selectors ≠ []
  declared : rule.declarations ≠ []
  selectors : ∀ selector ∈ rule.selectors, CanonicalSelector selector
  declarations : ∀ declaration ∈ rule.declarations, CanonicalDeclaration declaration

theorem CanonicalText.trimmed {text : Text} (canonical : CanonicalText text) : Text.Trimmed text :=
  canonical.collapsed ▸ Text.trimmed_collapse text

/-- The items that declarations read back as. -/
def declarationItems (declarations : List Text) : List Item :=
  declarations.map fun declaration => .declaration declaration.dropLast

theorem ownDeclarations_items {declarations : List Text}
    (canonical : ∀ declaration ∈ declarations, CanonicalDeclaration declaration) :
    Rule.ownDeclarations (declarationItems declarations) = declarations := by
  induction declarations with
  | nil => rfl
  | cons declaration declarations ih =>
      obtain ⟨first, later⟩ := List.forall_mem_cons.mp canonical
      obtain ⟨statement, _, collapsed, _, rfl⟩ := first
      have own := Rule.ownDeclarations_declaration statement (declarationItems declarations)
      rw [collapsed, ih later] at own
      simpa [declarationItems] using own

theorem ofBlocks_items (selectors : List Selector) (declarations : List Text) :
    Rule.ofBlocks selectors (declarationItems declarations) = [] := by
  induction declarations with
  | nil => rfl
  | cons declaration declarations ih => exact ih

theorem written_declaration {declaration : Text} (canonical : CanonicalDeclaration declaration) :
    Item.Written (declarationItems [declaration]) declaration := by
  obtain ⟨statement, nonempty, collapsed, undelimited, rfl⟩ := canonical
  have trimmed : Text.Trimmed statement := collapsed ▸ Text.trimmed_collapse statement
  have written := Item.Written.declaration .nil ⟨nonempty, trimmed.trim_eq, undelimited⟩
    .nil (.nil .nil)
  simpa [declarationItems] using written

theorem written_declarations {declarations : List Text}
    (canonical : ∀ declaration ∈ declarations, CanonicalDeclaration declaration) :
    Item.Written (declarationItems declarations) (Text.join [' '] declarations) := by
  induction declarations with
  | nil => exact .nil .nil
  | cons declaration declarations ih =>
      obtain ⟨first, later⟩ := List.forall_mem_cons.mp canonical
      cases declarations with
      | nil => simpa using written_declaration first
      | cons next declarations =>
          rw [Text.join_cons_cons]
          exact (written_declaration first).append ((ih later).pad .space)

/-- What a line can have for one of its selectors. -/
structure Selecting (text : Text) : Prop where
  nonempty : text ≠ []
  canonical : CanonicalText text
  unnested : '&' ∉ text
  unlimited : Selector.isMediaQuery text = false

/-- A line of CSS in its parts. -/
structure Line where
  declarations : List Text
  texts : List Text
  media : Text

namespace Line

def text (line : Line) : Text := Css.line (Text.join [' '] line.declarations) line.texts line.media

structure Canonical (line : Line) : Prop where
  given : line.texts ≠ [] ∨ line.media ≠ []
  declared : line.declarations ≠ []
  declarations : ∀ declaration ∈ line.declarations, CanonicalDeclaration declaration
  texts : ∀ text ∈ line.texts, Selecting text
  nodup : line.texts.Nodup
  media : CanonicalText line.media

/-- The items that the selectors of a line and its declarations read back as. -/
def ruleItems (line : Line) : List Item :=
  if line.texts = [] then declarationItems line.declarations
  else [.block (some (Text.join ", " line.texts)) (declarationItems line.declarations)]

/-- The items that a line reads back as. -/
def items (line : Line) : List Item :=
  if line.media = [] then line.ruleItems
  else [.block (some ("@media ".toList ++ line.media)) line.ruleItems]

end Line

theorem isStatement_join {texts : List Text} (nonempty : texts ≠ [])
    (selecting : ∀ text ∈ texts, Selecting text) : Token.IsStatement (Text.join ", " texts) := by
  have trimmed : Text.Trimmed (Text.join ", " texts) := .join fun text listed =>
    ⟨(selecting text listed).nonempty, (selecting text listed).canonical.trimmed⟩
  refine ⟨?_, trimmed.trim_eq, ?_⟩
  · obtain ⟨text, rest, rfl⟩ := List.exists_cons_of_ne_nil nonempty
    exact Text.join_ne_nil (selecting text (by simp)).nonempty
  · intro c member
    rcases Text.mem_join member with between | ⟨text, listed, inside⟩
    · exact (by decide : Token.Undelimited ", ".toList) c between
    · exact (selecting text listed).canonical.undelimited c inside

theorem CanonicalText.media {condition : Text} (canonical : CanonicalText condition)
    (nonempty : condition ≠ []) : CanonicalText ("@media ".toList ++ condition) := by
  have keyword : Text.Word "@media".toList := by decide
  refine ⟨?_, ?_, ?_⟩
  · have words : Text.words ("@media".toList ++ ' ' :: condition) =
        "@media".toList :: condition.words := by
      rw [Text.words_append_blank Text.isBlank_space, Text.words_of_word keyword]
      rfl
    have several : condition.words ≠ [] := by
      intro none
      rw [← canonical.collapsed, Text.collapse, none] at nonempty
      exact nonempty rfl
    calc Text.collapse ("@media ".toList ++ condition)
      _ = Text.join [' '] ("@media".toList :: condition.words) := congrArg (Text.join [' ']) words
      _ = "@media ".toList ++ condition.collapse := List.intercalate_cons_of_ne_nil several
      _ = "@media ".toList ++ condition := by rw [canonical.collapsed]
  · exact (by decide : Token.Undelimited "@media ".toList).append canonical.undelimited
  · exact Text.Unsplit.append ⟨by decide, by decide⟩ canonical.unsplit

theorem written_block {heading body : Text} {inside : List Item}
    (proper : Token.IsStatement heading) (nested : Item.Written inside body) :
    Item.Written [.block (some heading) inside] (heading ++ ' ' :: braced body) := by
  have inner : Item.Written inside ([' '] ++ (body ++ [' '])) := by
    simpa using (nested.append (.nil .space)).pad .space
  have block := Item.Written.block .nil proper .space inner (.nil .nil)
  simpa [braced] using block

theorem Line.Canonical.written {line : Line} (canonical : line.Canonical) :
    Item.Written line.items line.text := by
  have declared := written_declarations canonical.declarations
  have rule : Item.Written line.ruleItems
      (if line.texts = [] then Text.join [' '] line.declarations
        else Text.join ", " line.texts ++ ' ' :: braced (Text.join [' '] line.declarations)) := by
    unfold Line.ruleItems
    split
    · exact declared
    next nonempty => exact written_block (isStatement_join nonempty canonical.texts) declared
  unfold Line.items Line.text Css.line
  split
  · exact rule
  next limited =>
      have condition := canonical.media.media limited
      exact written_block ⟨by simp, condition.trimmed.trim_eq, condition.undelimited⟩ rule

/-- Fragments that name no parent and no condition are the selectors of a block at the root. -/
theorem selectorsWithin_fragments {heading : Text} (media : Text)
    (plain : ∀ fragment ∈ heading.splitTopLevel,
      '&' ∉ fragment ∧ Selector.isMediaQuery fragment = false) :
    Rule.selectorsWithin [⟨[], media⟩] (some heading) =
      heading.splitTopLevel.map fun text => ⟨text, media⟩ := by
  have combined : ∀ fragment ∈ heading.splitTopLevel,
      Selector.combine ⟨[], media⟩ fragment = ⟨fragment, media⟩ := by
    intro fragment listed
    obtain ⟨part, _, rfl⟩ := List.mem_map.mp (List.mem_filter.mp listed).1
    obtain ⟨unnested, unlimited⟩ := plain _ listed
    exact Selector.combine_plain_text (Text.trimmed_collapse part) unnested unlimited
  simp only [Rule.selectorsWithin, Option.elim_some, List.map_cons, List.map_nil]
  rw [← List.map_eq_flatMap]
  exact List.map_congr_left combined

theorem selectorsWithin_join {texts : List Text} (media : Text)
    (selecting : ∀ text ∈ texts, Selecting text) :
    Rule.selectorsWithin [⟨[], media⟩] (some (Text.join ", " texts)) =
      texts.map fun text => ⟨text, media⟩ := by
  have split : Text.splitTopLevel (Text.join ", " texts) = texts :=
    Text.splitTopLevel_join
      (Text.divided_of_unsplit fun text listed => (selecting text listed).canonical.unsplit)
      fun text listed => ⟨(selecting text listed).nonempty,
        (selecting text listed).canonical.collapsed⟩
  rw [selectorsWithin_fragments, split]
  intro fragment listed
  rw [split] at listed
  exact ⟨(selecting fragment listed).unnested, (selecting fragment listed).unlimited⟩

theorem selectorsWithin_media {condition : Text} (canonical : CanonicalText condition) :
    Rule.selectorsWithin [⟨[], []⟩] (some ("@media ".toList ++ condition)) = [⟨[], condition⟩] := by
  have promoted := Rule.selectorsWithin_uncut Text.isBlank_space canonical.unsplit.uncut [⟨[], []⟩]
  rw [canonical.collapsed] at promoted
  exact promoted

theorem ruleLines_distinct {texts declarations : List Text} (media : Text) (nonempty : texts ≠ [])
    (named : ∀ text ∈ texts, text ≠ []) :
    ruleLines ⟨texts.map fun text => ⟨text, media⟩, declarations, []⟩ =
      [line (Text.join [' '] declarations) (distinct texts) media] := by
  have conditions :
      distinct ((texts.map fun text => (⟨text, media⟩ : Selector)).map Selector.media) =
        [media] := by
    obtain ⟨text, rest, rfl⟩ := List.exists_cons_of_ne_nil nonempty
    exact distinct_constant (by simp)
  have under : textsUnder (texts.map fun text => ⟨text, media⟩) media = distinct texts := by
    have all : (texts.map fun text => (⟨text, media⟩ : Selector)).filter (·.media = media) =
        texts.map fun text => ⟨text, media⟩ := List.filter_eq_self.mpr (by simp)
    have kept : texts.filter (· ≠ []) = texts := List.filter_eq_self.mpr (by simpa using named)
    have unchanged : Selector.text ∘ (fun text => ⟨text, media⟩) = id := rfl
    rw [textsUnder, all, List.map_map, unchanged, List.map_id, kept]
  simp only [ruleLines, conditions, under, List.map_cons, List.map_nil]

theorem ruleLines_texts {texts declarations : List Text} (media : Text) (nonempty : texts ≠ [])
    (named : ∀ text ∈ texts, text ≠ []) (nodup : texts.Nodup) :
    ruleLines ⟨texts.map fun text => ⟨text, media⟩, declarations, []⟩ =
      [line (Text.join [' '] declarations) texts media] := by
  rw [ruleLines_distinct media nonempty named, distinct_of_nodup nodup]

theorem ruleLines_media (declarations : List Text) (media : Text) :
    ruleLines ⟨[⟨[], media⟩], declarations, []⟩ =
      [line (Text.join [' '] declarations) [] media] := by
  simp [ruleLines, textsUnder, distinct]

def writtenLines (rules : List Rule) : List Text := (rules.filter isWritten).flatMap ruleLines

theorem writtenLines_append (rules more : List Rule) :
    writtenLines (rules ++ more) = writtenLines rules ++ writtenLines more := by
  simp [writtenLines]

theorem writtenLines_cons_undeclared (selectors : List Selector) (rules : List Rule) :
    writtenLines (⟨selectors, [], []⟩ :: rules) = writtenLines rules := by
  simp [writtenLines, isWritten]

theorem writtenLines_singleton {rule : Rule} (selected : rule.selectors ≠ [])
    (declared : rule.declarations ≠ []) : writtenLines [rule] = ruleLines rule := by
  simp [writtenLines, isWritten, selected, declared]

theorem flattenAll_declarations {declarations : List Text}
    (canonical : ∀ declaration ∈ declarations, CanonicalDeclaration declaration)
    (enclosing : List Selector) (heading : Option Text) :
    Rule.flattenAll (Rule.ofBlocks enclosing [.block heading (declarationItems declarations)]) =
      [⟨Rule.selectorsWithin enclosing heading, declarations, []⟩] := by
  rw [Rule.ofBlocks_block, Rule.flattenAll_cons, ownDeclarations_items canonical, ofBlocks_items]
  rfl

namespace Line

theorem ownDeclarations_items {line : Line} (given : line.texts ≠ [] ∨ line.media ≠ []) :
    Rule.ownDeclarations line.items = [] := by
  unfold items ruleItems
  split
  next unlimited =>
      rw [if_neg (given.resolve_right (by simp [unlimited]))]
      rfl
  · rfl

/-- What a line reads back as is written as that line. -/
theorem Canonical.writtenLines_items {line : Line} (canonical : line.Canonical) :
    writtenLines (Rule.flattenAll (Rule.ofBlocks [⟨[], []⟩] line.items)) = [line.text] := by
  have named : ∀ text ∈ line.texts, text ≠ [] := fun text listed =>
    (canonical.texts text listed).nonempty
  have rule (media : Text) (selected : line.texts ≠ []) :
      writtenLines [⟨line.texts.map fun text => ⟨text, media⟩, line.declarations, []⟩] =
        [Css.line (Text.join [' '] line.declarations) line.texts media] := by
    rw [writtenLines_singleton (by simpa using selected) canonical.declared,
      ruleLines_texts media selected named canonical.nodup]
  unfold items ruleItems text
  by_cases unselected : line.texts = []
  · have limited : line.media ≠ [] := canonical.given.resolve_left (by simp [unselected])
    rw [if_neg limited, if_pos unselected, flattenAll_declarations canonical.declarations,
      selectorsWithin_media canonical.media,
      writtenLines_singleton (by simp) canonical.declared, ruleLines_media, unselected]
  · by_cases unlimited : line.media = []
    · rw [if_pos unlimited, if_neg unselected, flattenAll_declarations canonical.declarations,
        selectorsWithin_join [] canonical.texts, rule [] unselected, unlimited]
    · rw [if_neg unlimited, if_neg unselected, Rule.ofBlocks_block, Rule.flattenAll_cons,
        selectorsWithin_media canonical.media, Rule.ownDeclarations_block,
        flattenAll_declarations canonical.declarations, selectorsWithin_join _ canonical.texts]
      exact (writtenLines_cons_undeclared _ _).trans (rule line.media unselected)

end Line

theorem written_ofLines {α : Type} {entries : List α} {items : α → List Item} {text : α → Text}
    (written : ∀ entry ∈ entries, Item.Written (items entry) (text entry)) :
    Item.Written (entries.flatMap items) (ofLines (entries.map text)) := by
  induction entries with
  | nil => exact .nil (by simp [Text.Blank, ofLines])
  | cons entry entries ih =>
      obtain ⟨first, later⟩ := List.forall_mem_cons.mp written
      have ended : Text.Blank ['\n'] := by simp [Text.Blank]; decide
      simpa [ofLines] using (first.append (.nil ended)).append (ih later)

theorem lines_implicit {root : Rule} (selected : root.selectors ≠ []) (rules : List Rule) :
    lines true (root :: rules) = rootLines root ++ writtenLines rules := by
  by_cases undeclared : root.declarations = []
  · simp [lines, isWritten, undeclared, rootLines, writtenLines]
  · simp [lines, isWritten, undeclared, selected, writtenLines]

theorem rootLines_eq (rule : Rule) :
    rootLines rule = rule.declarations.filter (fun declaration => !isCustomProperty declaration) ++
      if rule.declarations.filter isCustomProperty = [] then []
      else [":root ".toList ++
        braced (Text.join [' '] (rule.declarations.filter isCustomProperty))] := by
  rw [rootLines, List.partition_eq_filter_filter]
  rfl

theorem rootLines_bare {rule : Rule}
    (plain : ∀ declaration ∈ rule.declarations, isCustomProperty declaration = false) :
    rootLines rule = rule.declarations := by
  have custom : rule.declarations.filter isCustomProperty = [] := by
    simpa [List.filter_eq_nil_iff] using plain
  have bare : rule.declarations.filter (fun declaration => !isCustomProperty declaration) =
      rule.declarations := List.filter_eq_self.mpr (by simpa using plain)
  rw [rootLines_eq, custom, bare, if_pos rfl, List.append_nil]

theorem ownDeclarations_lines {parts : List Line} (canonical : ∀ line ∈ parts, line.Canonical) :
    Rule.ownDeclarations (parts.flatMap Line.items) = [] := by
  induction parts with
  | nil => rfl
  | cons line parts ih =>
      obtain ⟨first, later⟩ := List.forall_mem_cons.mp canonical
      rw [List.flatMap_cons, Rule.ownDeclarations_append, Line.ownDeclarations_items first.given,
        ih later, List.append_nil]

theorem writtenLines_lines {parts : List Line} (canonical : ∀ line ∈ parts, line.Canonical) :
    writtenLines (Rule.flattenAll (Rule.ofBlocks [⟨[], []⟩] (parts.flatMap Line.items))) =
      parts.map Line.text := by
  induction parts with
  | nil => rfl
  | cons line parts ih =>
      obtain ⟨first, later⟩ := List.forall_mem_cons.mp canonical
      rw [List.flatMap_cons, Rule.ofBlocks_append, Rule.flattenAll_append, writtenLines_append,
        first.writtenLines_items, ih later]
      rfl

/-- Bare declarations that are no custom properties, followed by canonical lines, are read and
written again as they are. -/
theorem ofTokens_scan_ofLines {bare : List Text} {parts : List Line}
    (declared : ∀ declaration ∈ bare, CanonicalDeclaration declaration)
    (plain : ∀ declaration ∈ bare, isCustomProperty declaration = false)
    (canonical : ∀ line ∈ parts, line.Canonical) :
    ofTokens none (Token.scan (ofLines (bare ++ parts.map Line.text))) =
      ofLines (bare ++ parts.map Line.text) := by
  have written : Item.Written (declarationItems bare ++ parts.flatMap Line.items)
      (ofLines (bare ++ parts.map Line.text)) := by
    have first : Item.Written (bare.flatMap fun declaration => declarationItems [declaration])
        (ofLines (bare.map id)) :=
      written_ofLines fun declaration listed => written_declaration (declared declaration listed)
    have second := written_ofLines fun line listed => (canonical line listed).written
    have single : bare.flatMap (fun declaration => declarationItems [declaration]) =
        declarationItems bare := List.map_eq_flatMap.symm
    rw [single, List.map_id] at first
    simpa [ofLines] using first.append second
  have own : Rule.ownDeclarations (declarationItems bare ++ parts.flatMap Line.items) = bare := by
    rw [Rule.ownDeclarations_append, ownDeclarations_items declared,
      ownDeclarations_lines canonical, List.append_nil]
  have blocks : Rule.ofBlocks [⟨[], []⟩] (declarationItems bare ++ parts.flatMap Line.items) =
      Rule.ofBlocks [⟨[], []⟩] (parts.flatMap Line.items) := by
    rw [Rule.ofBlocks_append, ofBlocks_items, List.nil_append]
  have root : Rule.rootSelector none = ⟨[], []⟩ := rfl
  have implicit : decide ((none : Option Text).getD [] = []) = true := rfl
  rw [ofTokens, Rule.flatten_ofTokens, Item.read_scan_written written, own, root, blocks, render,
    implicit, lines_implicit (by simp), rootLines_bare plain, writtenLines_lines canonical]

def linesOf (rule : Rule) : List Line :=
  (distinct (rule.selectors.map Selector.media)).map fun media =>
    ⟨rule.declarations, textsUnder rule.selectors media, media⟩

/-- The line of the custom properties of the root, if there are any. -/
def customLines (declarations : List Text) : List Line :=
  if declarations = [] then [] else [⟨declarations, [":root".toList], []⟩]

theorem CanonicalRule.lines {rule : Rule} (canonical : CanonicalRule rule) :
    ∀ line ∈ linesOf rule, line.Canonical := by
  intro line listed
  obtain ⟨media, found, rfl⟩ := List.mem_map.mp listed
  obtain ⟨selector, member, rfl⟩ := List.mem_map.mp (mem_of_mem_distinct found)
  have whole := canonical.selectors selector member
  refine ⟨?_, canonical.declared, canonical.declarations, ?_, nodup_distinct _, whole.media⟩
  · refine whole.given.imp_left fun named => ?_
    have under : selector.text ∈ textsUnder rule.selectors selector.media :=
      mem_distinct (by simpa [named] using ⟨selector, ⟨member, rfl⟩, rfl⟩)
    exact List.ne_nil_of_mem under
  · intro text under
    obtain ⟨kept, named⟩ := List.mem_filter.mp (mem_of_mem_distinct under)
    obtain ⟨other, selected, rfl⟩ := List.mem_map.mp kept
    have normal := canonical.selectors other (List.mem_filter.mp selected).1
    exact ⟨by simpa using named, normal.text, normal.unnested, normal.unlimited⟩

theorem customLines_canonical {declarations : List Text}
    (canonical : ∀ declaration ∈ declarations, CanonicalDeclaration declaration) :
    ∀ line ∈ customLines declarations, line.Canonical := by
  intro line listed
  unfold customLines at listed
  split at listed
  · contradiction
  next declared =>
      obtain rfl := List.mem_singleton.mp listed
      have unlimited : CanonicalText [] := by decide
      refine ⟨.inl (by simp), declared, canonical, fun text same => ?_, by simp, unlimited⟩
      obtain rfl := List.mem_singleton.mp same
      exact ⟨by decide, by decide, by decide, by decide⟩

theorem map_text_customLines (declarations : List Text) :
    (customLines declarations).map Line.text = if declarations = [] then []
      else [":root ".toList ++ braced (Text.join [' '] declarations)] := by
  unfold customLines
  split
  · rfl
  · simp [Line.text, line]

theorem writtenLines_canonical {rules : List Rule}
    (canonical : ∀ rule ∈ rules, CanonicalRule rule) :
    writtenLines rules = (rules.flatMap linesOf).map Line.text := by
  have written : rules.filter isWritten = rules := by
    refine List.filter_eq_self.mpr fun rule listed => ?_
    simp [isWritten, (canonical rule listed).selected, (canonical rule listed).declared]
  rw [writtenLines, written, List.map_flatMap]
  refine List.flatMap_congr fun rule _ => ?_
  simp [ruleLines, linesOf, Line.text]

/-- Canonical CSS is read and written again as it is. -/
theorem ofTokens_scan_render {root : Rule} {rules : List Rule}
    (implicit : root.selectors = [⟨[], []⟩])
    (declared : ∀ declaration ∈ root.declarations, CanonicalDeclaration declaration)
    (canonical : ∀ rule ∈ rules, CanonicalRule rule) :
    ofTokens none (Token.scan (render true (root :: rules))) = render true (root :: rules) := by
  let bare := root.declarations.filter fun declaration => !isCustomProperty declaration
  let custom := root.declarations.filter isCustomProperty
  have parts : lines true (root :: rules) =
      bare ++ (customLines custom ++ rules.flatMap linesOf).map Line.text := by
    rw [lines_implicit (by simp [implicit]), rootLines_eq, writtenLines_canonical canonical,
      List.map_append, map_text_customLines, List.append_assoc]
  have plain : ∀ declaration ∈ bare, isCustomProperty declaration = false := by simp [bare]
  have written : ∀ line ∈ customLines custom ++ rules.flatMap linesOf, line.Canonical := by
    refine List.forall_mem_append.mpr ⟨customLines_canonical ?_, fun line listed => ?_⟩
    · exact fun declaration listed => declared declaration (List.mem_filter.mp listed).1
    · obtain ⟨rule, member, inside⟩ := List.mem_flatMap.mp listed
      exact (canonical rule member).lines line inside
  have kept : ∀ declaration ∈ bare, CanonicalDeclaration declaration := fun declaration listed =>
    declared declaration (List.mem_filter.mp listed).1
  rw [render, parts]
  exact ofTokens_scan_ofLines kept plain written

theorem ofTokens_scan_render_grouped :
    let root : Rule := ⟨[⟨[], []⟩], ["x: 1;".toList, "--y: 2;".toList], []⟩
    let rule : Rule := ⟨[⟨"a:not(b, c)".toList, []⟩, ⟨"d".toList, "(w)".toList⟩,
      ⟨"e".toList, []⟩, ⟨[], "(w)".toList⟩], ["z: 3;".toList], []⟩
    let css := "x: 1;\n:root \x7b --y: 2; \x7d\na:not(b, c), e \x7b z: 3; \x7d\n".toList ++
      "@media (w) \x7b d \x7b z: 3; \x7d \x7d\n".toList
    render true [root, rule] = css ∧ ofTokens none (Token.scan css) = css := by
  intro root rule css
  have written : render true [root, rule] = css := by decide +kernel
  have statement (text : Text) (nonempty : text ≠ []) (collapsed : text.collapse = text)
      (free : Token.Undelimited text) : CanonicalDeclaration (text ++ [';']) :=
    ⟨text, nonempty, collapsed, free, rfl⟩
  have declared : ∀ declaration ∈ root.declarations, CanonicalDeclaration declaration :=
    List.forall_mem_cons.mpr ⟨statement "x: 1".toList (by decide) (by decide) (by decide),
      List.forall_mem_singleton.mpr
        (statement "--y: 2".toList (by decide) (by decide) (by decide))⟩
  have selectors : ∀ selector ∈ rule.selectors, CanonicalSelector selector := by
    intro selector listed
    simp only [rule, List.mem_cons, List.not_mem_nil, or_false] at listed
    rcases listed with rfl | rfl | rfl | rfl <;>
      exact ⟨by decide, by decide, by decide, by decide, by decide⟩
  have canonical : ∀ other ∈ [rule], CanonicalRule other := by
    refine List.forall_mem_singleton.mpr ⟨by decide, by decide, selectors, ?_⟩
    exact List.forall_mem_singleton.mpr
      (statement "z: 3".toList (by decide) (by decide) (by decide))
  refine ⟨written, ?_⟩
  rw [← written]
  exact ofTokens_scan_render rfl declared canonical

end Flatsheet.Css
