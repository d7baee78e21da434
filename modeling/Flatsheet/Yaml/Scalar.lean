import Flatsheet.Yaml.Timestamp

/-!
What a plain YAML scalar stands for, told by its look alone.
-/

namespace Flatsheet.Yaml

inductive ScalarKind where
  | null
  | bool
  | int
  | float
  | timestamp
  /-- The key `<<`, whose value is merged into the mapping. -/
  | merge
  /-- The key `=`. -/
  | value
  | string
deriving DecidableEq, Repr

namespace ScalarKind

def nullTexts : List Text := [[], "~", "null", "Null", "NULL"]

def trueTexts : List Text :=
  ["yes", "Yes", "YES", "true", "True", "TRUE", "on", "On", "ON"]

def falseTexts : List Text :=
  ["no", "No", "NO", "false", "False", "FALSE", "off", "Off", "OFF"]

def dropSign : Text → Text
  | '-' :: text => text
  | '+' :: text => text
  | text => text

/-- A digit, or the underscore that may stand between digits. -/
def isDigitPart (c : Char) : Bool := c.isDigit || c == '_'

/-- One group of a number in base sixty: one digit, or two of which the first is below six. -/
def isSixtieth : Text → Bool
  | [d] => d.isDigit
  | [t, d] => '0' ≤ t && t ≤ '5' && d.isDigit
  | _ => false

def isInt (text : Text) : Bool :=
  match dropSign text with
  | ['0'] => true
  | '0' :: 'b' :: digits => digits ≠ [] && digits.all fun c => c == '0' || c == '1' || c == '_'
  | '0' :: 'x' :: digits =>
      digits ≠ [] && digits.all fun c =>
        isDigitPart c || ('a' ≤ c && c ≤ 'f') || ('A' ≤ c && c ≤ 'F')
  | '0' :: digits => digits.all fun c => ('0' ≤ c && c ≤ '7') || c == '_'
  | first :: rest =>
      first.isDigit &&
        match Text.splitWhere (· = ':') rest with
        | digits :: groups => digits.all isDigitPart && groups.all isSixtieth
        | [] => false
  | [] => false

/-- An exponent, whose sign must be written, or nothing. -/
def isExponent : Text → Bool
  | [] => true
  | mark :: sign :: digits =>
      (mark == 'e' || mark == 'E') && (sign == '-' || sign == '+') && digits ≠ [] &&
        digits.all Char.isDigit
  | _ => false

def infinityTexts : List Text := [".inf", ".Inf", ".INF"]

def nanTexts : List Text := [".nan", ".NaN", ".NAN"]

/-- A number with a point, whose whole part may be in base sixty. -/
def isPointed (text : Text) : Bool :=
  match Text.partition '.' (dropSign text) with
  | (first :: rest, some places) =>
      first.isDigit &&
        match Text.splitWhere (· = ':') rest with
        | [digits] => digits.all isDigitPart && isExponent (places.dropWhile isDigitPart)
        | digits :: groups =>
            digits.all isDigitPart && groups.all isSixtieth && places.all isDigitPart
        | [] => false
  | ([], some (first :: places)) =>
      text.startsWith ['.'] && first.isDigit && isExponent (places.dropWhile isDigitPart)
  | _ => false

def isFloat (text : Text) : Bool :=
  infinityTexts.contains (dropSign text) || nanTexts.contains text || isPointed text

def ofPlain (text : Text) : ScalarKind :=
  if nullTexts.contains text then .null
  else if trueTexts.contains text || falseTexts.contains text then .bool
  else if isFloat text then .float
  else if isInt text then .int
  else if Timestamp.isPlain text then .timestamp
  else if text = "<<".toList then .merge
  else if text = "=".toList then .value
  else .string

end ScalarKind

end Flatsheet.Yaml
