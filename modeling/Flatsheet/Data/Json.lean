import Flatsheet.Data.Basic
import Flatsheet.Decimal.Nearest
import Flatsheet.Decimal.Written
import Flatsheet.Text.Digit

/-!
Data written as JSON and read from it. The written form is ASCII: any other character is escaped by
its UTF-16 units. The numbers that no digits write are words.
-/

namespace Flatsheet.Json

/-- An escaped UTF-16 unit. -/
def unitEscape (unit : Nat) : Text := '\\' :: 'u' :: Text.hex 4 unit

/-- The UTF-16 units of a character beyond the first plane. -/
def surrogates (code : Nat) : Nat × Nat :=
  (0xd800 + (code - 0x10000) / 0x400, 0xdc00 + (code - 0x10000) % 0x400)

def escapeChar (c : Char) : Text :=
  if c = '"' then ['\\', '"']
  else if c = '\\' then ['\\', '\\']
  else if c = '\n' then ['\\', 'n']
  else if c = '\r' then ['\\', 'r']
  else if c = '\t' then ['\\', 't']
  else if c = '\x08' then ['\\', 'b']
  else if c = '\x0c' then ['\\', 'f']
  else if 0x20 ≤ c.toNat ∧ c.toNat < 0x7f then [c]
  else if c.toNat < 0x10000 then unitEscape c.toNat
  else unitEscape (surrogates c.toNat).1 ++ unitEscape (surrogates c.toNat).2

def quote (content : Text) : Text := '"' :: content.flatMap escapeChar ++ ['"']

def writeFloat (value : Float) : Text :=
  if value.isNaN then "NaN"
  else if value.isInf then (if value < 0.0 then "-Infinity" else "Infinity")
  else Decimal.showFloat value

mutual

def write : Data → Text
  | .null => "null"
  | .bool true => "true"
  | .bool false => "false"
  | .int value => Text.ofInt value
  | .float value => writeFloat value
  | .text content => quote content
  | .list [] => "[]"
  | .list (element :: elements) => '[' :: write element ++ writeElements elements
  | .record [] => "\x7b\x7d"
  | .record ((name, value) :: fields) =>
      '{' :: quote name ++ ": ".toList ++ write value ++ writeFields fields

/-- The elements after the first, and the end of the list. -/
def writeElements : List Data → Text
  | [] => "]"
  | element :: elements => ", ".toList ++ write element ++ writeElements elements

/-- The fields after the first, and the end of the record. -/
def writeFields : List (Text × Data) → Text
  | [] => "\x7d"
  | (name, value) :: fields =>
      ", ".toList ++ quote name ++ ": ".toList ++ write value ++ writeFields fields

end

inductive Error where
  /-- The document breaks the rules of the format. -/
  | malformed
  /-- A whole number has so many digits that it is not read. -/
  | integerSize (digits : Nat)
deriving DecidableEq, Repr

def Error.message : Error → Text
  | .malformed => "the document is not well formed"
  | .integerSize digits => DigitLimit.readMessage digits

/-- What must be there for the document to be well formed. -/
def required {α : Type} : Option α → Except Error α
  | some value => .ok value
  | none => .error .malformed

def isSpace (c : Char) : Bool := c == ' ' || c == '\t' || c == '\n' || c == '\r'

def skipSpace (text : Text) : Text := text.dropWhile isSpace

def hexValue? (c : Char) : Option Nat :=
  if '0' ≤ c ∧ c ≤ '9' then some (c.toNat - 48)
  else if 'a' ≤ c ∧ c ≤ 'f' then some (c.toNat - 87)
  else if 'A' ≤ c ∧ c ≤ 'F' then some (c.toNat - 55)
  else none

/-- Four hexadecimal digits. -/
def unit? : Text → Option (Nat × Text)
  | a :: b :: c :: d :: rest => do
      let unit :=
        4096 * (← hexValue? a) + 256 * (← hexValue? b) + 16 * (← hexValue? c) + (← hexValue? d)
      return (unit, rest)
  | _ => none

/-- The second of two UTF-16 units that make one character, with the escape mark before it. -/
def lowSurrogate? (text : Text) : Option (Nat × Text) := do
  let (unit, rest) ← Text.dropPrefix? "\\u" text >>= unit?
  if 0xdc00 ≤ unit ∧ unit < 0xe000 then return (unit, rest) else none

/-- A character by its UTF-16 units, of which the first escape mark has been read. A lone surrogate
is no character and gives the replacement character. -/
def unitChar? (text : Text) : Option (Char × Text) := do
  let (unit, rest) ← unit? text
  if 0xd800 ≤ unit ∧ unit < 0xdc00 then
    match lowSurrogate? rest with
    | some (low, rest) =>
        return (Char.ofNat (0x10000 + (unit - 0xd800) * 0x400 + (low - 0xdc00)), rest)
    | none => return ('\ufffd', rest)
  else if 0xdc00 ≤ unit ∧ unit < 0xe000 then return ('\ufffd', rest)
  else return (Char.ofNat unit, rest)

/-- The character that an escape stands for, after its backslash. -/
def escape? : Text → Option (Char × Text)
  | '"' :: rest => some ('"', rest)
  | '\\' :: rest => some ('\\', rest)
  | '/' :: rest => some ('/', rest)
  | 'b' :: rest => some ('\x08', rest)
  | 'f' :: rest => some ('\x0c', rest)
  | 'n' :: rest => some ('\n', rest)
  | 'r' :: rest => some ('\r', rest)
  | 't' :: rest => some ('\t', rest)
  | 'u' :: rest => unitChar? rest
  | _ => none

/-- The content of a text after its opening quote, of at most `fuel` characters and escapes. -/
def content? : (fuel : Nat) → Text → Option (Text × Text)
  | 0, _ => none
  | _, [] => none
  | fuel + 1, c :: text =>
      if c = '"' then some ([], text)
      else if c = '\\' then do
        let (c, rest) ← escape? text
        let (content, rest) ← content? fuel rest
        return (c :: content, rest)
      else if c.toNat < 0x20 then none
      else do
        let (content, rest) ← content? fuel text
        return (c :: content, rest)

/-- A text after its opening quote. -/
def text? (text : Text) : Option (Text × Text) := content? (text.length + 1) text

def digitsValue (digits : Text) : Nat :=
  digits.foldl (fun value digit => 10 * value + (digit.toNat - 48)) 0

/-- The digits of a whole part: zero alone, or digits that do not start with it. -/
def whole? : Text → Option (Text × Text)
  | '0' :: rest => some (['0'], rest)
  | text =>
      match text.takeWhile Char.isDigit with
      | [] => none
      | digits => some (digits, text.dropWhile Char.isDigit)

/-- The digits after a point, if there are any. -/
def fraction (text : Text) : Text × Text :=
  match text with
  | '.' :: rest =>
      match rest.takeWhile Char.isDigit with
      | [] => ([], text)
      | digits => (digits, rest.dropWhile Char.isDigit)
  | _ => ([], text)

def signed (text : Text) : Bool × Text :=
  match text with
  | '-' :: rest => (true, rest)
  | '+' :: rest => (false, rest)
  | _ => (false, text)

def negateIf (negative : Bool) (value : Nat) : Int := if negative then -value else value

/-- The exponent after a mark, if there is one. -/
def exponent? (text : Text) : Option (Int × Text) :=
  match text with
  | c :: rest =>
      if c = 'e' ∨ c = 'E' then
        let (negative, rest) := signed rest
        match rest.takeWhile Char.isDigit with
        | [] => none
        | digits => some (negateIf negative (digitsValue digits), rest.dropWhile Char.isDigit)
      else none
  | [] => none

/-- A number that has a fraction or an exponent. -/
def floatOf (negative : Bool) (whole places : Text) (exponent : Int) : Data :=
  let magnitude := Decimal.toFloat ⟨digitsValue (whole ++ places), exponent - places.length⟩
  .float (if negative then -magnitude else magnitude)

def readNumber (text : Text) : Except Error (Data × Text) := do
  let (negative, unsigned) :=
    match text with
    | '-' :: rest => (true, rest)
    | _ => (false, text)
  let (whole, rest) ← required (whole? unsigned)
  let (places, rest) := fraction rest
  match exponent? rest with
  | some (exponent, rest) => return (floatOf negative whole places exponent, rest)
  | none =>
      if places ≠ [] then return (floatOf negative whole places 0, rest)
      else if digitLimit < whole.length then throw (.integerSize whole.length)
      else return (.int (negateIf negative (digitsValue whole)), rest)

/-- The words that stand for a value. -/
def words : List (Text × Data) :=
  [("null", .null), ("true", .bool true), ("false", .bool false), ("NaN", .float (0.0 / 0.0)),
    ("Infinity", .float (1.0 / 0.0)), ("-Infinity", .float (-1.0 / 0.0))]

def word? (text : Text) : Option (Data × Text) :=
  words.findSome? fun (word, value) => (Text.dropPrefix? word text).map (value, ·)

mutual

/-- A value at the start of the text, its parts nested at most `fuel` deep and long. -/
def readValue : (fuel : Nat) → Text → Except Error (Data × Text)
  | 0, _ => .error .malformed
  | _, [] => .error .malformed
  | fuel + 1, c :: text =>
      if c = '"' then do
        let (content, rest) ← required (text? text)
        return (.text content, rest)
      else if c = '[' then
        match skipSpace text with
        | ']' :: rest => .ok (.list [], rest)
        | text => do
            let (elements, rest) ← readElements fuel text
            return (.list elements, rest)
      else if c = '{' then
        match skipSpace text with
        | '}' :: rest => .ok (.record [], rest)
        | text => do
            let (fields, rest) ← readFields fuel text
            return (.record fields, rest)
      else match word? (c :: text) with
        | some result => .ok result
        | none => readNumber (c :: text)

/-- Elements and the end of their list. -/
def readElements : (fuel : Nat) → Text → Except Error (List Data × Text)
  | 0, _ => .error .malformed
  | fuel + 1, text => do
      let (element, rest) ← readValue fuel text
      match skipSpace rest with
      | ']' :: rest => return ([element], rest)
      | ',' :: rest =>
          let (elements, rest) ← readElements fuel (skipSpace rest)
          return (element :: elements, rest)
      | _ => throw .malformed

/-- Fields and the end of their record. -/
def readFields : (fuel : Nat) → Text → Except Error (List (Text × Data) × Text)
  | 0, _ => .error .malformed
  | fuel + 1, text => do
      let (name, rest) ← required (Text.dropPrefix? ['"'] text >>= text?)
      let rest ← required (Text.dropPrefix? [':'] (skipSpace rest))
      let (value, rest) ← readValue fuel (skipSpace rest)
      match skipSpace rest with
      | '}' :: rest => return ([(name, value)], rest)
      | ',' :: rest =>
          let (fields, rest) ← readFields fuel (skipSpace rest)
          return ((name, value) :: fields, rest)
      | _ => throw .malformed

end

/-- The value of a JSON document. Each step into a value takes a character, so the length of the
text bounds the nesting. -/
def read (text : Text) : Except Error Data := do
  let (value, rest) ← readValue (2 * text.length + 1) (skipSpace text)
  if skipSpace rest = [] then return value else throw .malformed

end Flatsheet.Json
