import Flatsheet.Text.Basic

/-!
Tokens: a sheet cut into statements and the delimiters `;`, `{` and `}` between them.
-/

namespace Flatsheet

inductive Token where
  | semicolon
  | opening
  | closing
  /-- The text of a declaration or of the selectors of a block, trimmed and not empty. -/
  | statement (text : Text)
deriving DecidableEq, Repr

namespace Token

def text : Token → Text
  | .semicolon => [';']
  | .opening => ['{']
  | .closing => ['}']
  | .statement text => text

def delimiter? (c : Char) : Option Token :=
  if c = ';' then some .semicolon
  else if c = '{' then some .opening
  else if c = '}' then some .closing
  else none

/-- The statement that a piece between delimiters holds, if it is not blank. -/
def statement? (piece : Text) : Option Token :=
  match piece.trim with
  | [] => none
  | text => some (.statement text)

/-- Cuts the text, of which `piece` has been read since the last delimiter. -/
def scanFrom (piece : Text) : Text → List Token
  | [] => (statement? piece).toList
  | c :: text =>
      match delimiter? c with
      | some token => (statement? piece).toList ++ token :: scanFrom [] text
      | none => scanFrom (piece ++ [c]) text

def scan (text : Text) : List Token := scanFrom [] text

end Token

end Flatsheet
