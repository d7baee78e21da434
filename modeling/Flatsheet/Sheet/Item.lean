import Flatsheet.Sheet.Token

/-!
Items: a sheet as nested blocks of statements, before selectors are combined.
-/

namespace Flatsheet

inductive Item where
  | declaration (text : Text)
  /-- A block, with its heading if it has one. -/
  | block (heading : Option Text) (items : List Item)
deriving Repr

namespace Item

/-- A block that is still open: its heading, and the items that come before it in the enclosing
block. -/
abbrev Frame := Option Text × List Item

/-- The items of the outermost block, once all open blocks are closed. -/
def closeAll : List Frame → List Item → List Item
  | [], items => items
  | (heading, before) :: frames, items => closeAll frames (before ++ [.block heading items])

/-- Reads tokens inside the open blocks, the innermost first, of which the innermost holds `items`
so far. A closer without an opener ends the sheet; the tokens after it are returned. -/
def readFrom : List Frame → List Item → List Token → List Item × List Token
  | frames, items, [] => (closeAll frames items, [])
  | [], items, .closing :: tokens => (items, tokens)
  | (heading, before) :: frames, items, .closing :: tokens =>
      readFrom frames (before ++ [.block heading items]) tokens
  | frames, items, .semicolon :: tokens => readFrom frames items tokens
  | frames, items, .opening :: tokens => readFrom ((none, items) :: frames) [] tokens
  | frames, items, .statement text :: .opening :: tokens =>
      readFrom ((some text, items) :: frames) [] tokens
  | frames, items, .statement text :: tokens =>
      readFrom frames (items ++ [.declaration text]) tokens

def read (tokens : List Token) : List Item × List Token := readFrom [] [] tokens

end Item

end Flatsheet
