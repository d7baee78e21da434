import Flatsheet.Text.Displayed
import Flatsheet.Text.Lower

/-!
The content of a scalar. It is a text, except that an escape can name a surrogate, which is no
character and yet has its place in the content.
-/

namespace Flatsheet.Yaml

inductive CodePoint where
  | char (c : Char)
  | surrogate (code : Nat)
deriving DecidableEq, Repr

namespace CodePoint

def char? : CodePoint → Option Char
  | .char c => some c
  | .surrogate _ => none

def displayed (quote : Char) : CodePoint → Text
  | .char c => Text.displayChar quote c
  | .surrogate code => '\\' :: 'u' :: Text.hex 4 code

def lower : CodePoint → List CodePoint
  | .char c => (lowerChar c).map .char
  | point => [point]

end CodePoint

abbrev Content := List CodePoint

namespace Content

def ofText (text : Text) : Content := text.map .char

/-- The content as a text; none if it holds a surrogate. -/
def text? (content : Content) : Option Text := content.mapM CodePoint.char?

/-- The content as a text, with the replacement character for each surrogate. -/
def toText (content : Content) : Text := content.map fun point => point.char?.getD '�'

def displayed (content : Content) : Text :=
  let quote := Text.displayQuote content.toText
  quote :: content.flatMap (CodePoint.displayed quote) ++ [quote]

def lower (content : Content) : Content := content.flatMap CodePoint.lower

/-- Cuts the content at each colon. -/
def splitAtColons : Content → List Content
  | [] => [[]]
  | point :: content =>
      match splitAtColons content with
      | part :: parts =>
          if point = .char ':' then [] :: part :: parts else (point :: part) :: parts
      | [] => [[]]

end Content

end Flatsheet.Yaml
