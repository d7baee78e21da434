import Flatsheet.Yaml.Cursor
import Flatsheet.Yaml.Error

/-!
Quoted scalars. Both kinds may go on over several lines, where breaks are folded as in plain
scalars; between double quotes there are escapes.
-/

namespace Flatsheet.Yaml.QuotedText

/-- The characters of the escapes of one letter. -/
def escapes : List (Char × Char) :=
  [('0', '\x00'), ('a', '\x07'), ('b', '\x08'), ('t', '\t'), ('\t', '\t'), ('n', '\n'),
    ('v', '\x0b'), ('f', '\x0c'), ('r', '\r'), ('e', '\x1b'), (' ', ' '), ('"', '"'), ('\\', '\\'),
    ('/', '/'), ('N', '\x85'), ('_', '\xa0'), ('L', '\u2028'), ('P', '\u2029')]

/-- How many hexadecimal digits follow the letter of an escape by code point. -/
def escapeWidths : List (Char × Nat) := [('x', 2), ('u', 4), ('U', 8)]

def codePointOf (code : Nat) : Except Error CodePoint :=
  if 0x80000000 ≤ code then .error .codeSize
  else if 0x110000 ≤ code then .error .codePoint
  else if 0xd800 ≤ code ∧ code < 0xe000 then .ok (.surrogate code)
  else .ok (.char (Char.ofNat code))

/-- Reads line breaks, with the spaces and tabs that indent lines dropped. -/
def readBreaks : (fuel : Nat) → Cursor → Except Error (Text × Cursor)
  | 0, cursor => .ok ([], cursor)
  | fuel + 1, cursor =>
      if isAnyDocumentMark cursor.rest then .error .malformed
      else
        let cursor := cursor.skipWhile fun c => c == ' ' || c == '\t'
        match cursor.lineBreak? with
        | some (c, next) => do
            let (breaks, last) ← readBreaks fuel next
            return (c :: breaks, last)
        | none => .ok ([], cursor)

/-- What a gap between words reads as: its spaces, or its line breaks folded. -/
def readGap (cursor : Cursor) : Except Error (Text × Cursor) := do
  let (spaces, cursor) := cursor.takeWhile fun c => c == ' ' || c == '\t'
  match cursor.lineBreak? with
  | some (first, next) =>
      let (others, last) ← readBreaks (next.rest.length + 1) next
      let folded :=
        if first ≠ '\n' then first :: others else if others = [] then [' '] else others
      return (folded, last)
  | none => if cursor.rest = [] then throw .malformed else return (spaces, cursor)

/-- Reads an escape, the cursor standing after its backslash. -/
def readEscape (cursor : Cursor) : Except Error (Content × Cursor) :=
  match cursor.rest with
  | [] => .error .malformed
  | letter :: rest =>
      match escapes.lookup letter, escapeWidths.lookup letter with
      | some c, _ => .ok ([.char c], cursor.step)
      | none, some width =>
          let digits := rest.take width
          if digits.length = width ∧ digits.all isHexDigit then do
            return ([← codePointOf (hexNumber digits)], cursor.advance (width + 1))
          else .error .malformed
      | none, none =>
          match cursor.lineBreak? with
          | some (_, next) => do
              let (breaks, last) ← readBreaks (next.rest.length + 1) next
              return (.ofText breaks, last)
          | none => .error .malformed

/-- Whether a character has to be looked at inside quotes. -/
def isSpecial (c : Char) : Bool := c == '\'' || c == '"' || c == '\\' || isGap c

/-- Reads what comes next inside quotes; nothing if the closing quote does. -/
def readPart? (quote : Char) (cursor : Cursor) : Except Error (Option (Content × Cursor)) :=
  match cursor.rest with
  | [] => .error .malformed
  | c :: rest =>
      if c = quote then
        if quote = '\'' ∧ rest.head? = some '\'' then .ok (some ([.char '\''], cursor.advance 2))
        else .ok none
      else if c = '\\' ∧ quote = '"' then (readEscape cursor.step).map some
      else if isGap c then do
        let (gap, next) ← readGap cursor
        return some (.ofText gap, next)
      else if isSpecial c then .ok (some ([.char c], cursor.step))
      else
        let (run, next) := cursor.takeWhile (!isSpecial ·)
        .ok (some (.ofText run, next))

def readFrom (quote : Char) : (fuel : Nat) → Cursor → Except Error (Content × Cursor)
  | 0, _ => .error .malformed
  | fuel + 1, cursor => do
      match ← readPart? quote cursor with
      | none => return ([], cursor.step)
      | some (part, next) =>
          let (parts, last) ← readFrom quote fuel next
          return (part ++ parts, last)

/-- Reads a scalar whose opening quote comes next. -/
def read (quote : Char) (cursor : Cursor) : Except Error (Content × Cursor) :=
  readFrom quote (cursor.rest.length + 1) cursor.step

end Flatsheet.Yaml.QuotedText
