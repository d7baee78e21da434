import Flatsheet.Sheet.Item
import Flatsheet.Sheet.Selector

/-!
The rule tree: blocks with the full selectors they stand for, their declarations and the blocks
inside them, each in the order of the sheet.
-/

namespace Flatsheet

structure Rule where
  selectors : List Selector
  declarations : List Text
  children : List Rule
deriving Repr, BEq, Inhabited

namespace Rule

/-- The declaration that a statement makes: blanks collapsed, and ended. -/
def declarationOf (statement : Text) : Text := statement.collapse ++ [';']

/-- The selectors of a block inside a block of these selectors. Without a heading they stay. -/
def selectorsOf (enclosing : List Selector) : Option Text → List Selector
  | none => enclosing
  | some heading => Selector.nest enclosing heading

mutual

/-- The rule with one item more, at its front. -/
def addItem : (selectors : List Selector) → Item → Rule → Rule
  | _, .declaration statement, rule =>
      { rule with declarations := declarationOf statement :: rule.declarations }
  | selectors, .block heading items, rule =>
      { rule with children := ofItems (selectorsOf selectors heading) items :: rule.children }

/-- The rule of a block with these selectors and items. -/
def ofItems : (selectors : List Selector) → List Item → Rule
  | selectors, [] => ⟨selectors, [], []⟩
  | selectors, item :: items => addItem selectors item (ofItems selectors items)

end

/-- The selector of the root, which is empty for a whole sheet. -/
def rootSelector (selector : Option Text) : Selector := ⟨selector.getD [], []⟩

/-- The tree of a sheet, and the tokens after a closer that has no opener. -/
def ofTokens (selector : Option Text) (tokens : List Token) : Rule × List Token :=
  let (items, left) := Item.read tokens
  (ofItems [rootSelector selector] items, left)

mutual

/-- The rules of the tree without their children, parents before children. -/
def flatten : Rule → List Rule
  | ⟨selectors, declarations, children⟩ =>
      ⟨selectors, declarations, []⟩ :: flattenAll children

def flattenAll : List Rule → List Rule
  | [] => []
  | rule :: rules => flatten rule ++ flattenAll rules

end

end Rule

end Flatsheet
