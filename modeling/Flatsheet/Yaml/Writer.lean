import Flatsheet.Data.Basic
import Flatsheet.Decimal.Written
import Flatsheet.Yaml.Character
import Flatsheet.Yaml.Scalar

/-!
Data written as YAML, in block style with two columns of indentation. A text is written plain where
that reads back as the same text, between single quotes where its characters allow it, and otherwise
between double quotes with all but ASCII escaped. Lines are broken at single spaces past column 80.
-/

namespace Flatsheet.Yaml

def lineWidth : Nat := 80

def indentation (indent : Nat) : Text := List.replicate indent ' '

def newLine (indent : Nat) : Text := '\n' :: indentation indent

/-- Whether a character can stand in an unescaped scalar. -/
def isOrdinary (c : Char) : Bool := c == '\n' || (0x20 ≤ c.toNat && c.toNat ≤ 0x7e)

/-- The characters that mean something else at the start of a scalar. -/
def leadingIndicators : Text := "#,[]\x7b\x7d&*!|>'\"%@`"

/-- Whether the rest of a scalar holds `: ` or ` #`. The flag says whether a gap comes before. -/
def hasInnerIndicator : (afterGap : Bool) → Text → Bool
  | _, [] => false
  | afterGap, c :: text =>
      (c == ':' && isGapAt text) || (c == '#' && afterGap) || hasInnerIndicator (isGap c) text

/-- Whether a reader would take the text for something other than one scalar. -/
def hasIndicator (text : Text) : Bool :=
  match text with
  | [] => false
  | c :: rest =>
      text.startsWith "---" || text.startsWith "..." || leadingIndicators.contains c ||
        ((c == '?' || c == ':' || c == '-') && isGapAt rest) || hasInnerIndicator (isGap c) rest

/-- Whether a space and a line break are next to each other. -/
def hasSpacedBreak : Text → Bool
  | c :: d :: text =>
      (c == ' ' && isLineBreak d) || (isLineBreak c && d == ' ') || hasSpacedBreak (d :: text)
  | _ => false

/-- The characters that do not show at the end of a line. -/
def isEdge (c : Char) : Bool := c == ' ' || isLineBreak c

/-- Whether the text begins or ends with a space or line break. -/
def hasEdge (text : Text) : Bool :=
  (text.head?.map isEdge).getD false || (text.getLast?.map isEdge).getD false

def isMultiline (text : Text) : Bool := text.any isLineBreak

def allowsSingleQuotes (text : Text) : Bool := text.all isOrdinary && !hasSpacedBreak text

/-- Whether the text can be written without quotes. It must read back as a text. -/
def allowsPlain (text : Text) : Bool :=
  ScalarKind.ofPlain text == .string && text.all isOrdinary && !isMultiline text && !hasEdge text &&
    !hasIndicator text

inductive Style where
  | plain
  | single
  | double
deriving DecidableEq, Repr

/-- The style of a text. The key of a mapping is written on one line. -/
def styleOf (isKey : Bool) (text : Text) : Style :=
  if allowsPlain text then .plain
  else if allowsSingleQuotes text && !(isKey && isMultiline text) then .single
  else .double

/-- Where a scalar is written: its lines go on at `indent`, if they may be broken at all. -/
structure Frame where
  indent : Nat
  breaks : Bool

/-- Cuts a text into runs of characters of one class each. -/
def runs (sameClass : Char → Char → Bool) : Text → List Text
  | [] => []
  | c :: text =>
      match runs sameClass text with
      | (d :: run) :: rest =>
          if sameClass c d then (c :: d :: run) :: rest else [c] :: (d :: run) :: rest
      | rest => [c] :: rest

def spaceRuns (text : Text) : List Text :=
  runs (fun c d => (c == ' ') == (d == ' ') && (c == '\n') == (d == '\n')) text

/-- Writes the runs of a plain scalar from a column on. -/
def writePlainRuns (frame : Frame) : (column : Nat) → List Text → Text
  | _, [] => []
  | column, run :: rest =>
      if run = [' '] ∧ lineWidth < column ∧ frame.breaks then
        newLine frame.indent ++ writePlainRuns frame frame.indent rest
      else run ++ writePlainRuns frame (column + run.length) rest

def doubleQuotes (run : Text) : Text := run.flatMap fun c => if c = '\'' then "''" else [c]

/-- Writes the runs of a single-quoted scalar from a column on. A space at either end stays where it
is; line breaks are written once more than they occur. -/
def writeSingleRuns (frame : Frame) : (isFirst : Bool) → (column : Nat) → List Text → Text
  | _, _, [] => []
  | isFirst, column, run :: rest =>
      if run.head? = some '\n' then
        '\n' :: run ++ indentation frame.indent ++ writeSingleRuns frame false frame.indent rest
      else if run = [' '] ∧ lineWidth < column ∧ frame.breaks ∧ !isFirst ∧ rest ≠ [] then
        newLine frame.indent ++ writeSingleRuns frame false frame.indent rest
      else
        let written := doubleQuotes run
        written ++ writeSingleRuns frame false (column + written.length) rest

def upperHex (width n : Nat) : Text := (Text.hex width n).map Char.toUpper

/-- The letters of the short escapes. -/
def shortEscapes : List (Char × Char) :=
  [('\x00', '0'), ('\x07', 'a'), ('\x08', 'b'), ('\t', 't'), ('\n', 'n'), ('\x0b', 'v'),
    ('\x0c', 'f'), ('\r', 'r'), ('\x1b', 'e'), ('"', '"'), ('\\', '\\'), ('\x85', 'N'),
    ('\xa0', '_'), ('\u2028', 'L'), ('\u2029', 'P')]

/-- The escape of a character, if it needs one between double quotes. -/
def escape? (c : Char) : Option Text :=
  match shortEscapes.lookup c with
  | some letter => some ['\\', letter]
  | none =>
      if 0x20 ≤ c.toNat ∧ c.toNat ≤ 0x7e then none
      else if c.toNat ≤ 0xff then some ('\\' :: 'x' :: upperHex 2 c.toNat)
      else if c.toNat ≤ 0xffff then some ('\\' :: 'u' :: upperHex 4 c.toNat)
      else some ('\\' :: 'U' :: upperHex 8 c.toNat)

/-- Writes a double-quoted scalar from a column on. Past the line width the line is broken at a
space, or next to an escape, but neither after the first character nor before the last; a space that
comes first on the new line is escaped. The flag `isFresh` says that an escape or the opening quote
comes before. -/
def writeDoubleFrom (frame : Frame) : (isFirst isFresh : Bool) → (column : Nat) → Text → Text
  | _, _, _, [] => []
  | isFirst, isFresh, column, c :: text =>
      let mayBreak := frame.breaks && !isFirst && text ≠ []
      match escape? c with
      | some escape =>
          let column := column + escape.length
          if mayBreak ∧ lineWidth + 1 < column then
            let guarded : Text := if text.head? = some ' ' then ['\\'] else []
            escape ++ '\\' :: newLine frame.indent ++ guarded ++
              writeDoubleFrom frame false true (frame.indent + guarded.length) text
          else escape ++ writeDoubleFrom frame false true column text
      | none =>
          if mayBreak ∧ (c = ' ' ∨ isFresh) ∧ lineWidth < column then
            let guarded : Text := if c = ' ' then ['\\'] else []
            '\\' :: newLine frame.indent ++ guarded ++
              c :: writeDoubleFrom frame false false (frame.indent + guarded.length + 1) text
          else c :: writeDoubleFrom frame false false (column + 1) text

/-- A text from a column on. -/
def writeText (frame : Frame) (isKey : Bool) (column : Nat) (content : Text) : Text :=
  match styleOf isKey content with
  | .plain => writePlainRuns frame column (spaceRuns content)
  | .single =>
      '\'' :: writeSingleRuns frame true (column + 1) (spaceRuns content) ++ ['\'']
  | .double => '"' :: writeDoubleFrom frame true true (column + 1) content ++ ['"']

/-- A number with a point, which is written also before an exponent. -/
def writeFloat (value : Float) : Text :=
  if value.isNaN then ".nan"
  else if value.isInf then (if value < 0.0 then "-.inf" else ".inf")
  else
    let written := Decimal.showFloat value
    match Text.partition 'e' written with
    | (digits, some exponent) =>
        if digits.contains '.' then written else digits ++ ".0e".toList ++ exponent
    | (_, none) => written

/-- What the tag of a text adds to its length as a key. -/
def tagLength : Nat := 5

/-- A key stands on the line of its value if it is short, not empty and of one line. -/
def isSimpleKey (name : Text) : Bool :=
  tagLength + name.length < 128 && name ≠ [] && !isMultiline name

/-- What a value follows: its key on the line, or a mark with which a line starts. -/
inductive Place where
  | afterKey
  | afterMark
deriving DecidableEq, Repr

mutual

/-- A value in a block at `indent`, with the blanks or line break before it. -/
def writeValue : (indent column : Nat) → Place → Data → Text
  | _, _, _, .null => " null"
  | _, _, _, .bool true => " true"
  | _, _, _, .bool false => " false"
  | _, _, _, .int value => ' ' :: Text.ofInt value
  | _, _, _, .float value => ' ' :: writeFloat value
  | indent, column, _, .text content =>
      ' ' :: writeText ⟨indent + 2, true⟩ false (column + 1) content
  | _, _, _, .list [] => " []"
  | _, _, _, .record [] => " \x7b\x7d"
  | indent, _, .afterKey, .list (element :: elements) =>
      newLine indent ++ '-' :: writeValue indent (indent + 1) .afterMark element ++
        writeElements indent elements
  | indent, _, .afterMark, .list (element :: elements) =>
      ' ' :: '-' :: writeValue (indent + 2) (indent + 3) .afterMark element ++
        writeElements (indent + 2) elements
  | indent, _, .afterKey, .record (field :: fields) =>
      newLine (indent + 2) ++ writeField (indent + 2) field ++ writeFields (indent + 2) fields
  | indent, _, .afterMark, .record (field :: fields) =>
      ' ' :: writeField (indent + 2) field ++ writeFields (indent + 2) fields

/-- The elements of a list, each on a line of its own. -/
def writeElements : (indent : Nat) → List Data → Text
  | _, [] => []
  | indent, element :: elements =>
      newLine indent ++ '-' :: writeValue indent (indent + 1) .afterMark element ++
        writeElements indent elements

/-- A field that starts at column `indent`. -/
def writeField : (indent : Nat) → Text × Data → Text
  | indent, (name, value) =>
      if isSimpleKey name then
        let key := writeText ⟨indent + 2, false⟩ true indent name
        key ++ ':' :: writeValue indent (indent + key.length + 1) .afterKey value
      else
        '?' :: ' ' :: writeText ⟨indent + 2, true⟩ false (indent + 2) name ++
          newLine indent ++ ':' :: writeValue indent (indent + 1) .afterMark value

/-- The fields of a record, each on a line of its own. -/
def writeFields : (indent : Nat) → List (Text × Data) → Text
  | _, [] => []
  | indent, field :: fields =>
      newLine indent ++ writeField indent field ++ writeFields indent fields

end

/-- A whole document whose value is a record. -/
def write : Data → Text
  | .record (field :: fields) => writeField 0 field ++ writeFields 0 fields ++ ['\n']
  | value => (writeValue 0 0 .afterKey value).drop 1 ++ ['\n']

end Flatsheet.Yaml
