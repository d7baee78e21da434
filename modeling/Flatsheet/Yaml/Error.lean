import Flatsheet.Yaml.Content
import Flatsheet.Yaml.Timestamp

/-!
What can be wrong with a YAML document.
-/

namespace Flatsheet.Yaml

inductive Error where
  /-- The document breaks the rules of the format. -/
  | malformed
  /-- An escape names a code point beyond the last. -/
  | codePoint
  /-- An escape names a number that is too large for a code point of any kind. -/
  | codeSize
  /-- A scalar has the form of a timestamp and is no point in time. -/
  | timestamp (error : Timestamp.Error)
  /-- A scalar tagged as a timestamp does not have the form of one. -/
  | notTimestamp
  /-- A mapping is tagged as a timestamp. -/
  | timestampMapping
  /-- A scalar tagged as a number has nothing but a sign. -/
  | emptyNumber
  /-- A scalar tagged as a number in this base is none. -/
  | integer (base : Nat) (digits : Content)
  /-- A number has so many decimal digits that it is not read. -/
  | integerSize (digits : Nat)
  /-- A scalar tagged as a number with a point is none. -/
  | float (digits : Content)
  /-- A number with a point has too many groups in base sixty. -/
  | floatSize
  /-- A scalar tagged as a truth value is none. -/
  | truth (word : Content)
  /-- A number has so many decimal digits that it is not shown. -/
  | shownSize
deriving DecidableEq, Repr

/-- How much of a text that is no number a message shows. -/
def shownLength : Nat := 200

namespace Error

def message : Error → Text
  | .malformed => "the document is not well formed"
  | .codePoint => "chr() arg not in range(0x110000)"
  | .codeSize => "Python int too large to convert to C int"
  | .timestamp error => error.message
  | .notTimestamp => "'NoneType' object has no attribute 'groupdict'"
  | .timestampMapping => "expected string or bytes-like object, got 'list'"
  | .emptyNumber => "string index out of range"
  | .integer base digits =>
      "invalid literal for int() with base ".toList ++ Text.ofNat base ++ ": ".toList ++
        digits.displayed.take shownLength
  | .integerSize digits => DigitLimit.readMessage digits
  | .float digits => "could not convert string to float: ".toList ++ digits.displayed
  | .floatSize => "int too large to convert to float"
  | .truth word => word.toText
  | .shownSize => DigitLimit.shownMessage

end Error

end Flatsheet.Yaml
