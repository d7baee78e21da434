import Flatsheet.Proofs.Intact
import Flatsheet.Proofs.Items
import Flatsheet.Proofs.Selectors

/-!
From text to CSS no placeholder is cut: tokens, items and rules are followed in that order, and what
is written of intact rules is intact.
-/

namespace Flatsheet

open Vault (Solid Unmarked)

variable {alone : Prop} {low high : Nat}

namespace Token

theorem solid_of_delimiter? {c : Char} {token : Token} (found : delimiter? c = some token) :
    Solid c ∧ Unmarked token.text := by
  unfold delimiter? at found
  split at found
  next same =>
      cases found
      exact ⟨same ▸ by decide, by decide⟩
  · split at found
    next same =>
        cases found
        exact ⟨same ▸ by decide, by decide⟩
    · split at found
      next same =>
          cases found
          exact ⟨same ▸ by decide, by decide⟩
      · contradiction

theorem statement?_intact {piece : Text} (intact : Vault.Intact alone low high piece) :
    ∀ token ∈ statement? piece, Vault.Intact alone low high token.text := by
  intro token found
  have trimmed := intact.trim
  unfold statement? at found
  split at found
  · contradiction
  · cases found
    exact trimmed

theorem scanFrom_intact {piece text : Text} (intact : Vault.Intact alone low high (piece ++ text)) :
    ∀ token ∈ scanFrom piece text, Vault.Intact alone low high token.text := by
  induction text generalizing piece with
  | nil =>
      intro token member
      rw [List.append_nil] at intact
      exact statement?_intact intact token (by simpa [scanFrom] using member)
  | cons c text ih =>
      intro token member
      rw [scanFrom] at member
      split at member
      next delimiter found =>
          obtain ⟨solid, unmarked⟩ := solid_of_delimiter? found
          obtain ⟨before, after⟩ := intact.split_solid solid
          rcases List.mem_append.mp member with early | later
          · exact statement?_intact before token (by simpa using early)
          · rcases List.mem_cons.mp later with rfl | rest
            · exact .of_unmarked unmarked
            · exact @ih [] after token rest
      · exact ih (by simpa using intact) token member

end Token

namespace Item

/-- Every text of the item is intact. -/
inductive Intact (alone : Prop) (low high : Nat) : Item → Prop
  | declaration {text : Text} (intact : Vault.Intact alone low high text) :
      Intact alone low high (.declaration text)
  | block {heading : Option Text} {items : List Item}
      (headed : ∀ text ∈ heading, Vault.Intact alone low high text)
      (inside : ∀ item ∈ items, Intact alone low high item) :
      Intact alone low high (.block heading items)

structure Frame.Intact (alone : Prop) (low high : Nat) (frame : Frame) : Prop where
  headed : ∀ text ∈ frame.1, Vault.Intact alone low high text
  before : ∀ item ∈ frame.2, Item.Intact alone low high item

theorem close_intact {heading : Option Text} {before items : List Item}
    (frame : Frame.Intact alone low high (heading, before))
    (inside : ∀ item ∈ items, Item.Intact alone low high item) :
    ∀ item ∈ before ++ [.block heading items], Item.Intact alone low high item := by
  intro item member
  rcases List.mem_append.mp member with early | last
  · exact frame.before item early
  · obtain rfl := List.mem_singleton.mp last
    exact .block frame.headed inside

theorem closeAll_intact {frames : List Frame} {items : List Item}
    (opened : ∀ frame ∈ frames, Frame.Intact alone low high frame)
    (inside : ∀ item ∈ items, Item.Intact alone low high item) :
    ∀ item ∈ closeAll frames items, Item.Intact alone low high item := by
  induction frames generalizing items with
  | nil => exact inside
  | cons frame frames ih =>
      exact ih (fun other member => opened other (by simp [member]))
        (close_intact (opened frame (by simp)) inside)

theorem readFrom_intact {frames : List Frame} {items : List Item} {tokens : List Token}
    (opened : ∀ frame ∈ frames, Frame.Intact alone low high frame)
    (inside : ∀ item ∈ items, Item.Intact alone low high item)
    (read : ∀ token ∈ tokens, Vault.Intact alone low high token.text) :
    ∀ item ∈ (readFrom frames items tokens).1, Item.Intact alone low high item := by
  fun_induction readFrom frames items tokens with
  | case1 frames items => exact closeAll_intact opened inside
  | case2 items tokens => exact inside
  | case3 heading before frames items tokens ih =>
      obtain ⟨frame, opened⟩ := List.forall_mem_cons.mp opened
      exact ih opened (close_intact frame inside) (List.forall_mem_cons.mp read).2
  | case4 frames items tokens ih => exact ih opened inside (List.forall_mem_cons.mp read).2
  | case5 frames items tokens ih =>
      have frame : Frame.Intact alone low high (none, items) := ⟨by simp, inside⟩
      exact ih (List.forall_mem_cons.mpr ⟨frame, opened⟩) (by simp) (List.forall_mem_cons.mp read).2
  | case6 frames items text tokens ih =>
      obtain ⟨heading, rest⟩ := List.forall_mem_cons.mp read
      have frame : Frame.Intact alone low high (some text, items) :=
        ⟨fun _ same => by cases same; exact heading, inside⟩
      exact ih (List.forall_mem_cons.mpr ⟨frame, opened⟩) (by simp) (List.forall_mem_cons.mp rest).2
  | case7 frames items text tokens _ ih =>
      obtain ⟨statement, rest⟩ := List.forall_mem_cons.mp read
      refine ih opened (fun item member => ?_) rest
      rcases List.mem_append.mp member with early | last
      · exact inside item early
      · obtain rfl := List.mem_singleton.mp last
        exact .declaration statement

end Item

namespace Selector

structure Intact (alone : Prop) (low high : Nat) (selector : Selector) : Prop where
  text : Vault.Intact alone low high selector.text
  media : Vault.Intact alone low high selector.media

theorem joinMedia_intact {outer inner : Text} (outside : Vault.Intact alone low high outer)
    (inside : Vault.Intact alone low high inner) :
    Vault.Intact alone low high (joinMedia outer inner) := by
  unfold joinMedia
  split
  · exact inside
  · exact (outside.append (.of_unmarked (by decide))).append inside

/-- The parent for every `&`, which stands in no placeholder. -/
theorem flatMap_intact {parent fragment : Text} (outside : Vault.Intact alone low high parent)
    (inside : Vault.Intact alone low high fragment) :
    Vault.Intact alone low high (fragment.flatMap fun c => if c = '&' then parent else [c]) := by
  induction inside with
  | nil => exact .nil
  | @char c text opening closing _ ih =>
      rw [List.flatMap_cons]
      split
      · exact outside.append ih
      · exact .char opening closing ih
  | @placeholder number text above below _ ih =>
      have copied : (Vault.placeholder number).flatMap (fun c => if c = '&' then parent else [c]) =
          Vault.placeholder number := by
        refine Eq.trans (List.flatMap_congr fun c member => ?_) (List.flatMap_singleton' _)
        rw [if_neg]
        rintro rfl
        exact Vault.not_solid_of_mem_placeholder member (by decide)
      rw [List.flatMap_append, copied]
      exact .placeholder above below ih

theorem nestText_intact {parent fragment : Text} (outside : Vault.Intact alone low high parent)
    (inside : Vault.Intact alone low high fragment) :
    Vault.Intact alone low high (nestText parent fragment) := by
  refine Vault.Intact.trim ?_
  split
  · exact flatMap_intact outside inside
  · exact outside.append (.of_solid (by decide) inside)

theorem combine_intact {parent : Selector} {fragment : Text}
    (outside : parent.Intact alone low high)
    (inside : Vault.Intact alone low high fragment) :
    (combine parent fragment).Intact alone low high := by
  unfold combine
  split
  next condition found =>
      rw [mediaCondition?_eq_some found] at inside
      have keyword : Unmarked mediaKeyword := by decide
      have condition := (inside.split_after fun c member => (keyword c member).1).2
      exact ⟨outside.text, joinMedia_intact outside.media condition.trim⟩
  · exact ⟨nestText_intact outside.text inside, outside.media⟩

theorem nest_intact {enclosing : List Selector} {heading : Text}
    (outside : ∀ selector ∈ enclosing, selector.Intact alone low high)
    (inside : Vault.Intact alone low high heading) :
    ∀ selector ∈ nest enclosing heading, selector.Intact alone low high := by
  intro selector member
  obtain ⟨fragment, part, combined⟩ := List.mem_flatMap.mp member
  obtain ⟨parent, encloses, rfl⟩ := List.mem_map.mp combined
  exact combine_intact (outside parent encloses) (inside.splitTopLevel fragment part)

end Selector

namespace Rule

/-- Every text of the rule, and of the rules inside it, is intact. -/
inductive Intact (alone : Prop) (low high : Nat) : Rule → Prop
  | mk {selectors : List Selector} {declarations : List Text} {children : List Rule}
      (selected : ∀ selector ∈ selectors, selector.Intact alone low high)
      (declared : ∀ text ∈ declarations, Vault.Intact alone low high text)
      (inside : ∀ rule ∈ children, Intact alone low high rule) :
      Intact alone low high ⟨selectors, declarations, children⟩

theorem selectorsOf_intact {enclosing : List Selector} {heading : Option Text}
    (outside : ∀ selector ∈ enclosing, selector.Intact alone low high)
    (headed : ∀ text ∈ heading, Vault.Intact alone low high text) :
    ∀ selector ∈ selectorsOf enclosing heading, selector.Intact alone low high := by
  cases heading with
  | none => exact outside
  | some heading => exact Selector.nest_intact outside (headed heading rfl)

mutual

theorem addItem_intact {selectors : List Selector} {rule : Rule}
    (selected : ∀ selector ∈ selectors, selector.Intact alone low high)
    (kept : rule.Intact alone low high) :
    (item : Item) → item.Intact alone low high → (addItem selectors item rule).Intact alone low high
  | .declaration statement, .declaration intact => by
      cases kept with
      | mk own declared inside =>
          refine .mk own (List.forall_mem_cons.mpr ⟨?_, declared⟩) inside
          exact intact.collapse.append (.of_unmarked (by decide))
  | .block heading items, .block headed nested => by
      cases kept with
      | mk own declared inside =>
          refine .mk own declared (List.forall_mem_cons.mpr ⟨?_, inside⟩)
          exact ofItems_intact (selectorsOf_intact selected headed) items nested

theorem ofItems_intact {selectors : List Selector}
    (selected : ∀ selector ∈ selectors, selector.Intact alone low high) :
    (items : List Item) → (∀ item ∈ items, item.Intact alone low high) →
      (ofItems selectors items).Intact alone low high
  | [], _ => .mk selected (by simp) (by simp)
  | item :: items, intact =>
      addItem_intact selected
        (ofItems_intact selected items fun other member => intact other (by simp [member])) item
        (intact item (by simp))

end

mutual

theorem flatten_intact : (rule : Rule) → rule.Intact alone low high →
    ∀ part ∈ rule.flatten, part.Intact alone low high
  | ⟨_, _, children⟩, .mk selected declared inside => by
      rw [flatten]
      exact List.forall_mem_cons.mpr
        ⟨.mk selected declared (by simp), flattenAll_intact children inside⟩

theorem flattenAll_intact : (rules : List Rule) → (∀ rule ∈ rules, rule.Intact alone low high) →
    ∀ part ∈ flattenAll rules, part.Intact alone low high
  | [], _ => by simp [flattenAll]
  | rule :: rules, intact => by
      obtain ⟨first, rest⟩ := List.forall_mem_cons.mp intact
      intro part member
      rw [flattenAll] at member
      rcases List.mem_append.mp member with early | late
      · exact flatten_intact rule first part early
      · exact flattenAll_intact rules rest part late

end

end Rule

namespace Css

theorem braced_intact {body : Text} (intact : Vault.Intact alone low high body) :
    Vault.Intact alone low high (braced body) :=
  ((Vault.Intact.of_unmarked (by decide)).append intact).append (.of_unmarked (by decide))

theorem rootLines_intact {rule : Rule} (intact : rule.Intact alone low high) :
    ∀ line ∈ rootLines rule, Vault.Intact alone low high line := by
  cases intact with
  | @mk selectors declarations children _ declared _ =>
      intro line member
      rw [rootLines, List.partition_eq_filter_filter] at member
      rcases List.mem_append.mp member with bare | custom
      · exact declared line (List.mem_filter.mp bare).1
      · split at custom
        · contradiction
        · obtain rfl := List.mem_singleton.mp custom
          refine (Vault.Intact.of_unmarked (by decide)).append (braced_intact ?_)
          exact .join (by decide) fun text member => declared text (List.mem_filter.mp member).1

theorem line_intact {body media : Text} {texts : List Text}
    (declared : Vault.Intact alone low high body)
    (selected : ∀ text ∈ texts, Vault.Intact alone low high text)
    (condition : Vault.Intact alone low high media) :
    Vault.Intact alone low high (line body texts media) := by
  have block : Vault.Intact alone low high
      (if texts = [] then body else Text.join ", " texts ++ ' ' :: braced body) := by
    split
    · exact declared
    · exact (Vault.Intact.join (by decide) selected).append
        (.of_solid (by decide) (braced_intact declared))
  unfold line
  dsimp only
  split
  · exact block
  · exact ((Vault.Intact.of_unmarked (by decide)).append condition).append
      (.of_solid (by decide) (braced_intact block))

theorem ruleLines_intact {rule : Rule} (intact : rule.Intact alone low high) :
    ∀ line ∈ ruleLines rule, Vault.Intact alone low high line := by
  cases intact with
  | @mk selectors declarations children selected declared _ =>
      intro text member
      obtain ⟨media, listed, rfl⟩ := List.mem_map.mp member
      obtain ⟨selector, inside, rfl⟩ := List.mem_map.mp (mem_of_mem_distinct listed)
      refine line_intact (.join (by decide) declared) ?_ (selected selector inside).media
      intro part found
      have kept := (List.mem_filter.mp (mem_of_mem_distinct found)).1
      obtain ⟨other, under, rfl⟩ := List.mem_map.mp kept
      exact (selected other (List.mem_filter.mp under).1).text

theorem lines_intact {rules : List Rule} (implicit : Bool)
    (intact : ∀ rule ∈ rules, rule.Intact alone low high) :
    ∀ line ∈ lines implicit rules, Vault.Intact alone low high line := by
  cases rules with
  | nil => simp [lines]
  | cons root rules =>
      obtain ⟨first, rest⟩ := List.forall_mem_cons.mp intact
      intro line member
      rcases List.mem_append.mp member with early | late
      · split at early
        · contradiction
        · split at early
          · exact rootLines_intact first line early
          · exact ruleLines_intact first line early
      · obtain ⟨rule, written, inside⟩ := List.mem_flatMap.mp late
        exact ruleLines_intact (rest rule (List.mem_filter.mp written).1) line inside

theorem ofLines_intact {lines : List Text}
    (intact : ∀ line ∈ lines, Vault.Intact alone low high line) :
    Vault.Intact alone low high (ofLines lines) := by
  induction lines with
  | nil => exact .nil
  | cons line lines ih =>
      obtain ⟨first, rest⟩ := List.forall_mem_cons.mp intact
      exact (first.append (.of_unmarked (by decide))).append (ih rest)

/-- The CSS of a text without a cut placeholder has none. -/
theorem ofTokens_intact {selector : Option Text} {text : Text}
    (root : Vault.Intact alone low high (selector.getD []))
    (intact : Vault.Intact alone low high text) :
    Vault.Intact alone low high (ofTokens selector (Token.scan text)) := by
  have tokens : ∀ token ∈ Token.scan text, Vault.Intact alone low high token.text :=
    Token.scanFrom_intact intact
  have items : ∀ item ∈ (Item.read (Token.scan text)).1, item.Intact alone low high :=
    Item.readFrom_intact (by simp) (by simp) tokens
  have selected : ∀ other ∈ [Rule.rootSelector selector], other.Intact alone low high := by
    intro other member
    obtain rfl := List.mem_singleton.mp member
    exact ⟨root, .nil⟩
  have rules := Rule.flatten_intact _ (Rule.ofItems_intact selected _ items)
  exact ofLines_intact (lines_intact _ rules)

end Css

end Flatsheet
