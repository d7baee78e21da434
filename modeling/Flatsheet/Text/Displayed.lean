import Flatsheet.Text.Basic
import Flatsheet.Text.Printable

/-!
The displayed form of a text, for messages that quote it: between quotes, on one line, with escapes
for whatever is not printable.
-/

namespace Flatsheet.Text

/-- The hexadecimal digits of a number, lower case, padded with zeros on the left. -/
def hex (width n : Nat) : Text :=
  let digits := Nat.toDigits 16 n
  List.replicate (width - digits.length) '0' ++ digits

/-- Single quotes, unless the text holds one and no double quote. -/
def displayQuote (text : Text) : Char :=
  if text.contains '\'' && !text.contains '"' then '"' else '\''

def displayChar (quote c : Char) : Text :=
  if c = '\\' ∨ c = quote then ['\\', c]
  else if c = '\n' then ['\\', 'n']
  else if c = '\r' then ['\\', 'r']
  else if c = '\t' then ['\\', 't']
  else if isPrintable c then [c]
  else if c.toNat < 0x100 then '\\' :: 'x' :: hex 2 c.toNat
  else if c.toNat < 0x10000 then '\\' :: 'u' :: hex 4 c.toNat
  else '\\' :: 'U' :: hex 8 c.toNat

def displayed (text : Text) : Text :=
  let quote := displayQuote text
  quote :: text.flatMap (displayChar quote) ++ [quote]

end Flatsheet.Text
