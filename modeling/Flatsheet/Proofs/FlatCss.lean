import Flatsheet.Proofs.Balance
import Flatsheet.Proofs.RuleTree
import Flatsheet.Proofs.Selectors

/-!
Flat CSS. Whatever the sheet is, balanced or not, every line of its CSS is a list of declarations,
alone or under selectors, and either of these may stand under one media condition. Nothing else is
nested.
-/

namespace Flatsheet.Css

open Text (Unbraced)

def Plain (text : Text) : Prop := ∀ c ∈ text, c ≠ ';' ∧ c ≠ '{' ∧ c ≠ '}' ∧ c ≠ '\n'

instance (text : Text) : Decidable (Plain text) := List.decidableBAll _ text

def IsDeclaration (text : Text) : Prop :=
  ∃ statement, statement ≠ [] ∧ Plain statement ∧ text = statement ++ [';']

/-- Declarations, at least one, one space apart. -/
def Body (body : Text) : Prop :=
  ∃ declarations : List Text, declarations ≠ [] ∧
    (∀ declaration ∈ declarations, IsDeclaration declaration) ∧
    body = Text.join [' '] declarations

/-- The forms of a line. -/
inductive FlatLine : Text → Prop
  | bare {body : Text} (declares : Body body) : FlatLine body
  | rule {selectors body : Text} (named : selectors ≠ []) (plain : Plain selectors)
      (declares : Body body) : FlatLine (selectors ++ ' ' :: braced body)
  | media {condition body : Text} (named : condition ≠ []) (plain : Plain condition)
      (declares : Body body) : FlatLine ("@media ".toList ++ condition ++ ' ' :: braced body)
  | mediaRule {condition selectors body : Text} (limited : condition ≠ [])
      (plainCondition : Plain condition) (named : selectors ≠ []) (plain : Plain selectors)
      (declares : Body body) :
      FlatLine ("@media ".toList ++ condition ++ ' ' :: braced (selectors ++ ' ' :: braced body))

/-- The depth of braces after a text, as long as it stays between zero and `limit`. -/
def depthAfter (limit : Nat) : (depth : Nat) → Text → Option Nat
  | depth, [] => some depth
  | depth, c :: text =>
      if c = '{' then if depth < limit then depthAfter limit (depth + 1) text else none
      else if c = '}' then if depth = 0 then none else depthAfter limit (depth - 1) text
      else depthAfter limit depth text

namespace Plain

theorem append {front rest : Text} (first : Plain front) (second : Plain rest) :
    Plain (front ++ rest) := fun c member => (List.mem_append.mp member).elim (first c) (second c)

theorem trim {text : Text} (plain : Plain text) : Plain text.trim := fun c member =>
  plain c (Text.mem_of_mem_trim member)

theorem join {separator : Text} {parts : List Text} (between : Plain separator)
    (plain : ∀ part ∈ parts, Plain part) : Plain (Text.join separator parts) := by
  intro c member
  rcases Text.mem_join member with inside | ⟨part, listed, inside⟩
  · exact between c inside
  · exact plain part listed c inside

theorem of_collapsed {text collapsed : Text} (free : Token.Undelimited text)
    (kept : ∀ c ∈ collapsed, c = ' ' ∨ c ∈ text ∧ isBlank c = false) : Plain collapsed := by
  intro c member
  rcases kept c member with rfl | ⟨inside, solid⟩
  · decide
  · obtain ⟨semicolon, opening, closing⟩ := free c inside
    refine ⟨semicolon, opening, closing, ?_⟩
    rintro rfl
    exact absurd solid (by decide)

theorem collapse {text : Text} (free : Token.Undelimited text) : Plain text.collapse :=
  of_collapsed free fun _ => Text.mem_collapse

theorem splitTopLevel {text : Text} (free : Token.Undelimited text) :
    ∀ fragment ∈ text.splitTopLevel, Plain fragment := fun _ listed =>
  of_collapsed free fun _ => Text.mem_of_mem_splitTopLevel listed

end Plain

structure PlainSelector (selector : Selector) : Prop where
  text : Plain selector.text
  media : Plain selector.media

theorem combine_plain {parent : Selector} {fragment : Text} (outside : PlainSelector parent)
    (inside : Plain fragment) : PlainSelector (Selector.combine parent fragment) := by
  unfold Selector.combine
  split
  next condition found =>
      have inner : Plain condition := fun c member =>
        inside c (by simp [Selector.mediaCondition?_eq_some found, member])
      refine ⟨outside.text, fun c member => ?_⟩
      rcases Selector.mem_joinMedia member with outer | added | between
      · exact outside.media c outer
      · exact inner.trim c added
      · exact (by decide : Plain " and ".toList) c between
  · refine ⟨fun c member => ?_, outside.media⟩
    rcases Selector.mem_nestText member with outer | inner | rfl
    · exact outside.text c outer
    · exact inside c inner
    · decide

theorem selectorsWithin_plain {enclosing : List Selector} {heading : Option Text}
    (outside : ∀ selector ∈ enclosing, PlainSelector selector)
    (free : ∀ text ∈ heading, Token.Undelimited text) :
    ∀ selector ∈ Rule.selectorsWithin enclosing heading, PlainSelector selector := by
  cases heading with
  | none => exact outside
  | some heading =>
      intro selector member
      obtain ⟨fragment, part, combined⟩ := List.mem_flatMap.mp member
      obtain ⟨parent, encloses, rfl⟩ := List.mem_map.mp combined
      exact combine_plain (outside parent encloses)
        (Plain.splitTopLevel (free heading rfl) fragment part)

structure PlainRule (rule : Rule) : Prop where
  selectors : ∀ selector ∈ rule.selectors, PlainSelector selector
  declarations : ∀ declaration ∈ rule.declarations, IsDeclaration declaration

/-- Every text of the items is one that a statement can have. -/
def Proper (items : List Item) : Prop :=
  ∀ entry ∈ Item.entriesAll items, ∀ text ∈ entry.texts, Token.IsStatement text

theorem isDeclaration_collapse {statement : Text} (proper : Token.IsStatement statement) :
    IsDeclaration (statement.collapse ++ [';']) := by
  refine ⟨statement.collapse, fun empty => ?_, .collapse proper.undelimited, rfl⟩
  have trimmed : statement.trim = [] := Text.trim_of_blank (Text.collapse_eq_nil.mp empty)
  exact proper.nonempty (proper.trimmed.symm.trans trimmed)

theorem Proper.declaration {statement : Text} {items : List Item}
    (proper : Proper (.declaration statement :: items)) :
    Token.IsStatement statement ∧ Proper items := by
  obtain ⟨first, later⟩ := List.forall_mem_cons.mp proper
  exact ⟨first statement (by simp [Item.Entry.texts]), later⟩

theorem Proper.block {heading : Option Text} {inside items : List Item}
    (proper : Proper (.block heading inside :: items)) :
    (∀ text ∈ heading, Token.IsStatement text) ∧ Proper inside ∧ Proper items := by
  obtain ⟨first, later⟩ := List.forall_mem_cons.mp proper
  obtain ⟨inner, outer⟩ := List.forall_mem_append.mp later
  exact ⟨fun text headed => first text (by simpa [Item.Entry.texts] using headed), inner, outer⟩

theorem ownDeclarations_plain {items : List Item} (proper : Proper items) :
    ∀ declaration ∈ Rule.ownDeclarations items, IsDeclaration declaration := by
  induction items using Item.block_induction with
  | nil => simp [Rule.ownDeclarations]
  | declaration statement items ih =>
      obtain ⟨isStatement, rest⟩ := proper.declaration
      exact List.forall_mem_cons.mpr ⟨isDeclaration_collapse isStatement, ih rest⟩
  | block heading inside items _ ih => exact ih proper.block.2.2

theorem ofBlocks_plain {selectors : List Selector} {items : List Item} (proper : Proper items)
    (plain : ∀ selector ∈ selectors, PlainSelector selector) :
    ∀ rule ∈ Rule.flattenAll (Rule.ofBlocks selectors items), PlainRule rule := by
  induction items using Item.block_induction generalizing selectors with
  | nil => simp [Rule.ofBlocks, Rule.flattenAll]
  | declaration statement items ih => exact ih proper.declaration.2 plain
  | block heading inside items inner outer =>
      obtain ⟨headed, nested, rest⟩ := proper.block
      have within := selectorsWithin_plain plain fun text found => (headed text found).undelimited
      rw [Rule.ofBlocks_block, Rule.flattenAll_cons]
      refine List.forall_mem_cons.mpr ⟨⟨within, ownDeclarations_plain nested⟩, ?_⟩
      exact List.forall_mem_append.mpr ⟨inner nested within, outer rest plain⟩

theorem flatten_ofTokens_plain {selector : Option Text} (single : ∀ root ∈ selector, Plain root)
    (text : Text) :
    ∀ rule ∈ (Rule.ofTokens selector (Token.scan text)).1.flatten, PlainRule rule := by
  have proper : Proper (Item.read (Token.scan text)).1 := fun entry listed other held =>
    Token.isStatement_of_mem_scan (Item.statement_of_mem_read listed held)
  have root : PlainSelector (Rule.rootSelector selector) := by
    refine ⟨?_, by simp [Rule.rootSelector, Plain]⟩
    cases selector with
    | none => simp [Rule.rootSelector, Plain]
    | some selector => exact single selector rfl
  have plain : ∀ other ∈ [Rule.rootSelector selector], PlainSelector other := by simpa using root
  rw [Rule.flatten_ofTokens]
  exact List.forall_mem_cons.mpr
    ⟨⟨plain, ownDeclarations_plain proper⟩, ofBlocks_plain proper plain⟩

theorem body_join {declarations : List Text} (nonempty : declarations ≠ [])
    (declared : ∀ declaration ∈ declarations, IsDeclaration declaration) :
    Body (Text.join [' '] declarations) :=
  ⟨declarations, nonempty, declared, rfl⟩

theorem line_flat {body media : Text} {texts : List Text} (declares : Body body)
    (selected : ∀ text ∈ texts, text ≠ [] ∧ Plain text) (limited : Plain media) :
    FlatLine (line body texts media) := by
  cases texts with
  | nil =>
      by_cases unlimited : media = []
      · simpa [line, unlimited] using FlatLine.bare declares
      · simpa [line, unlimited] using FlatLine.media unlimited limited declares
  | cons text texts =>
      have named : Text.join ", " (text :: texts) ≠ [] :=
        Text.join_ne_nil (selected text (by simp)).1
      have plain : Plain (Text.join ", " (text :: texts)) :=
        .join (by decide) fun other listed => (selected other listed).2
      by_cases unlimited : media = []
      · simpa [line, unlimited] using FlatLine.rule named plain declares
      · simpa [line, unlimited] using FlatLine.mediaRule unlimited limited named plain declares

theorem ruleLines_flat {rule : Rule} (plain : PlainRule rule) (nonempty : rule.declarations ≠ []) :
    ∀ line ∈ ruleLines rule, FlatLine line := by
  intro text member
  obtain ⟨media, listed, rfl⟩ := List.mem_map.mp member
  obtain ⟨selector, inside, rfl⟩ := List.mem_map.mp (mem_of_mem_distinct listed)
  refine line_flat (body_join nonempty plain.declarations) (fun part found => ?_)
    (plain.selectors selector inside).media
  obtain ⟨kept, named⟩ := List.mem_filter.mp (mem_of_mem_distinct found)
  obtain ⟨other, under, rfl⟩ := List.mem_map.mp kept
  exact ⟨by simpa using named, (plain.selectors other (List.mem_filter.mp under).1).text⟩

theorem rootLines_flat {rule : Rule} (plain : PlainRule rule) :
    ∀ line ∈ rootLines rule, FlatLine line := by
  intro text member
  rw [rootLines, List.partition_eq_filter_filter] at member
  rcases List.mem_append.mp member with bare | custom
  · have declared := plain.declarations text (List.mem_filter.mp bare).1
    have alone : Body text := ⟨[text], by simp, by simpa using declared, by simp⟩
    exact .bare alone
  · split at custom
    · contradiction
    next nonempty =>
        obtain rfl := List.mem_singleton.mp custom
        have declares := body_join nonempty fun declaration listed =>
          plain.declarations declaration (List.mem_filter.mp listed).1
        have root : Plain ":root".toList := by decide
        exact .rule (by decide) root declares

theorem lines_flat {rules : List Rule} (implicit : Bool) (plain : ∀ rule ∈ rules, PlainRule rule) :
    ∀ line ∈ lines implicit rules, FlatLine line := by
  have declares {rule : Rule} (written : isWritten rule = true) : rule.declarations ≠ [] := by
    simpa [isWritten] using (Bool.and_eq_true_iff.mp written).2
  cases rules with
  | nil => simp [lines]
  | cons root rules =>
      obtain ⟨first, rest⟩ := List.forall_mem_cons.mp plain
      intro line member
      rcases List.mem_append.mp member with early | late
      · split at early
        · contradiction
        next written =>
            split at early
            · exact rootLines_flat first line early
            · exact ruleLines_flat first (declares (by simpa using written)) line early
      · obtain ⟨rule, listed, inside⟩ := List.mem_flatMap.mp late
        obtain ⟨held, written⟩ := List.mem_filter.mp listed
        exact ruleLines_flat (rest rule held) (declares written) line inside

theorem depthAfter_append (limit depth : Nat) (front rest : Text) :
    depthAfter limit depth (front ++ rest) =
      (depthAfter limit depth front).bind (depthAfter limit · rest) := by
  induction front generalizing depth with
  | nil => rfl
  | cons c front ih =>
      simp only [List.cons_append, depthAfter]
      split_ifs <;> simp [ih]

theorem depthAfter_unbraced {text : Text} (free : Unbraced text) (limit depth : Nat) :
    depthAfter limit depth text = some depth := by
  induction text with
  | nil => rfl
  | cons c text ih =>
      obtain ⟨first, later⟩ := List.forall_mem_cons.mp free
      rw [depthAfter, if_neg first.1, if_neg first.2, ih later]

theorem depthAfter_braced {limit depth : Nat} {body : Text} (below : depth < limit)
    (inside : depthAfter limit (depth + 1) body = some (depth + 1)) :
    depthAfter limit depth (braced body) = some depth := by
  have opened : depthAfter limit depth ['{', ' '] = some (depth + 1) := by
    simp [depthAfter, below]
  have closed : depthAfter limit (depth + 1) [' ', '}'] = some depth := by
    simp [depthAfter]
  have parts : braced body = ['{', ' '] ++ (body ++ [' ', '}']) := by simp [braced]
  rw [parts, depthAfter_append, opened, Option.bind_some, depthAfter_append, inside,
    Option.bind_some, closed]

namespace Body

theorem plain_of_mem {body : Text} (declares : Body body) :
    ∀ c ∈ body, c ≠ '{' ∧ c ≠ '}' ∧ c ≠ '\n' := by
  obtain ⟨declarations, _, declared, rfl⟩ := declares
  intro c member
  rcases Text.mem_join member with between | ⟨declaration, listed, inside⟩
  · obtain rfl := List.mem_singleton.mp between
    decide
  · obtain ⟨statement, _, plain, rfl⟩ := declared declaration listed
    rcases List.mem_append.mp inside with held | last
    · exact (plain c held).2
    · obtain rfl := List.mem_singleton.mp last
      decide

theorem unbraced {body : Text} (declares : Body body) : Unbraced body := fun c member =>
  ⟨(declares.plain_of_mem c member).1, (declares.plain_of_mem c member).2.1⟩

theorem singleLine {body : Text} (declares : Body body) : '\n' ∉ body := fun member =>
  (declares.plain_of_mem '\n' member).2.2 rfl

end Body

theorem Plain.unbraced {text : Text} (plain : Plain text) : Unbraced text := fun c member =>
  ⟨(plain c member).2.1, (plain c member).2.2.1⟩

theorem Plain.singleLine {text : Text} (plain : Plain text) : '\n' ∉ text := fun member =>
  (plain '\n' member).2.2.2 rfl

theorem depthAfter_rule {limit depth : Nat} {heading body : Text} (below : depth < limit)
    (free : Unbraced heading) (inside : depthAfter limit (depth + 1) body = some (depth + 1)) :
    depthAfter limit depth (heading ++ ' ' :: braced body) = some depth := by
  have parts : heading ++ ' ' :: braced body = (heading ++ [' ']) ++ braced body := by simp
  have unbraced : Unbraced (heading ++ [' ']) := by
    simpa [Unbraced, or_imp, forall_and] using free
  rw [parts, depthAfter_append, depthAfter_unbraced unbraced, Option.bind_some,
    depthAfter_braced below inside]

namespace FlatLine

theorem singleLine {line : Text} (flat : FlatLine line) : '\n' ∉ line := by
  cases flat with
  | bare declares => exact declares.singleLine
  | rule _ plain declares => simp [braced, plain.singleLine, declares.singleLine]
  | media _ plain declares => simp [braced, plain.singleLine, declares.singleLine]
  | mediaRule _ plainCondition _ plain declares =>
      simp [braced, plainCondition.singleLine, plain.singleLine, declares.singleLine]

theorem depth_two {line : Text} (flat : FlatLine line) : depthAfter 2 0 line = some 0 := by
  have keyword : Plain "@media ".toList := by decide
  cases flat with
  | bare declares => exact depthAfter_unbraced declares.unbraced 2 0
  | rule _ plain declares =>
      exact depthAfter_rule (by decide) plain.unbraced (depthAfter_unbraced declares.unbraced 2 1)
  | media _ plain declares =>
      exact depthAfter_rule (by decide) (keyword.append plain).unbraced
        (depthAfter_unbraced declares.unbraced 2 1)
  | mediaRule _ plainCondition _ plain declares =>
      refine depthAfter_rule (by decide) (keyword.append plainCondition).unbraced ?_
      exact depthAfter_rule (by decide) plain.unbraced (depthAfter_unbraced declares.unbraced 2 2)

theorem depth_one_or_media {line : Text} (flat : FlatLine line) :
    depthAfter 1 0 line = some 0 ∨ ∃ rest, line = "@media ".toList ++ rest := by
  cases flat with
  | bare declares => exact .inl (depthAfter_unbraced declares.unbraced 1 0)
  | rule _ plain declares =>
      have inside := depthAfter_unbraced declares.unbraced 1 1
      exact .inl (depthAfter_rule (by decide) plain.unbraced inside)
  | media => exact .inr ⟨_, List.append_assoc _ _ _⟩
  | mediaRule => exact .inr ⟨_, List.append_assoc _ _ _⟩

end FlatLine

theorem depthAfter_ofLines {lines : List Text} (flat : ∀ line ∈ lines, FlatLine line) :
    depthAfter 2 0 (ofLines lines) = some 0 := by
  induction lines with
  | nil => rfl
  | cons line lines ih =>
      obtain ⟨first, later⟩ := List.forall_mem_cons.mp flat
      have ended : depthAfter 2 0 (line ++ ['\n']) = some 0 := by
        rw [depthAfter_append, first.depth_two]
        rfl
      rw [show ofLines (line :: lines) = (line ++ ['\n']) ++ ofLines lines from rfl,
        depthAfter_append, ended, Option.bind_some, ih later]

/-- The CSS of every text is flat: each of its lines has one of four forms, so that braces are
balanced and nest at most twice, and twice only under a media condition. -/
theorem ofTokens_flat (text : Text) (selector : Option Text)
    (single : ∀ root ∈ selector, Plain root) :
    ∃ lines : List Text, ofTokens selector (Token.scan text) = lines.flatMap (· ++ ['\n']) ∧
      (∀ line ∈ lines, FlatLine line ∧ '\n' ∉ line ∧
        (depthAfter 1 0 line = some 0 ∨ ∃ rest, line = "@media ".toList ++ rest)) ∧
      depthAfter 2 0 (ofTokens selector (Token.scan text)) = some 0 := by
  have flat := lines_flat (selector.getD [] = []) (flatten_ofTokens_plain single text)
  refine ⟨_, rfl, fun line listed => ?_, depthAfter_ofLines flat⟩
  exact ⟨flat line listed, (flat line listed).singleLine, (flat line listed).depth_one_or_media⟩

theorem ofTokens_flat_unbalanced :
    let sheet := "x:\n1; @media p \x7b &, b \x7b y; \x7d\x7d\x7d z;".toList
    let css := ofTokens (some "r".toList) (Token.scan sheet)
    css = "r \x7b x: 1; \x7d\n@media p \x7b r, r b \x7b y; \x7d \x7d\n".toList ∧
      (∃ lines : List Text, css = lines.flatMap (· ++ ['\n']) ∧ ∀ line ∈ lines, FlatLine line) ∧
      depthAfter 2 0 css = some 0 := by
  intro sheet css
  have single : ∀ root ∈ some "r".toList, Plain root := fun root same => by
    cases same
    decide
  obtain ⟨lines, split, flat, balanced⟩ := ofTokens_flat sheet (some "r".toList) single
  exact ⟨by decide +kernel, ⟨lines, split, fun line listed => (flat line listed).1⟩, balanced⟩

end Flatsheet.Css
