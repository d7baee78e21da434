import Flatsheet.Text.Basic

/-!
The character classes of YAML.
-/

namespace Flatsheet.Yaml

/-- The characters that end a line, inside a text. -/
def isLineBreak (c : Char) : Bool := c == '\n' || c == '\x85' || c == '\u2028' || c == '\u2029'

/-- The characters that end a line of a document. -/
def isBreak (c : Char) : Bool := c == '\r' || isLineBreak c

/-- The characters that may stand after an indicator. -/
def isGap (c : Char) : Bool := c == '\x00' || c == ' ' || c == '\t' || isBreak c

/-- Whether a gap comes first; the end of the text counts as one. -/
def isGapAt : Text → Bool
  | [] => true
  | c :: _ => isGap c

/-- Whether a space or line break comes first; the end of the text counts as one. -/
def isSpaceAt : Text → Bool
  | [] => true
  | c :: _ => c == ' ' || isBreak c

/-- Whether a line ends here. -/
def isBreakAt : Text → Bool
  | [] => true
  | c :: _ => isBreak c

/-- The characters that a document may hold. -/
def isAllowed (c : Char) : Bool :=
  let code := c.toNat
  code == 0x09 || code == 0x0a || code == 0x0d || (0x20 ≤ code && code ≤ 0x7e) || code == 0x85 ||
    (0xa0 ≤ code && code ≤ 0xd7ff) || (0xe000 ≤ code && code ≤ 0xfffd) || 0x10000 ≤ code

/-- The characters of the names of anchors and directives. -/
def isNameChar (c : Char) : Bool := c.isAlphanum || c == '-' || c == '_'

def isHexDigit (c : Char) : Bool :=
  c.isDigit || ('a' ≤ c && c ≤ 'f') || ('A' ≤ c && c ≤ 'F')

def hexDigit (c : Char) : Nat :=
  if c.isDigit then c.toNat - 48 else if 'a' ≤ c then c.toNat - 87 else c.toNat - 55

def hexNumber (digits : Text) : Nat :=
  digits.foldl (fun value digit => 16 * value + hexDigit digit) 0

/-- Whether a document mark comes first, with a gap after it. -/
def isDocumentMark (mark text : Text) : Bool :=
  match Text.dropPrefix? mark text with
  | some rest => isGapAt rest
  | none => false

def startMark : Text := "---"

def endMark : Text := "..."

def isAnyDocumentMark (text : Text) : Bool :=
  isDocumentMark startMark text || isDocumentMark endMark text

end Flatsheet.Yaml
