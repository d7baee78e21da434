import Flatsheet.Yaml.Character

/-!
A place in a document: what is left to read, and where it stands. Columns tell how far a line is
indented; a byte order mark takes no column.
-/

namespace Flatsheet.Yaml

structure Cursor where
  rest : Text
  /-- How many characters have been read. -/
  index : Nat
  line : Nat
  column : Nat

namespace Cursor

def start (text : Text) : Cursor := ⟨text, 0, 0, 0⟩

def peek? (cursor : Cursor) : Option Char := cursor.rest.head?

def step (cursor : Cursor) : Cursor :=
  match cursor.rest with
  | [] => cursor
  | c :: rest =>
      if isLineBreak c || (c == '\r' && rest.head? != some '\n') then
        ⟨rest, cursor.index + 1, cursor.line + 1, 0⟩
      else if c = '\ufeff' then ⟨rest, cursor.index + 1, cursor.line, cursor.column⟩
      else ⟨rest, cursor.index + 1, cursor.line, cursor.column + 1⟩

def advance : Nat → Cursor → Cursor
  | 0, cursor => cursor
  | count + 1, cursor => advance count cursor.step

/-- The run of characters that satisfy `p`, and the place after it. -/
def takeWhile (p : Char → Bool) (cursor : Cursor) : Text × Cursor :=
  let run := cursor.rest.takeWhile p
  (run, cursor.advance run.length)

def skipWhile (p : Char → Bool) (cursor : Cursor) : Cursor := (cursor.takeWhile p).2

def skipSpaces (cursor : Cursor) : Cursor := cursor.skipWhile (· == ' ')

/-- Skips the rest of a line. -/
def skipLine (cursor : Cursor) : Cursor := cursor.skipWhile (!isBreak ·)

/-- Reads a line break. The separators of lines and paragraphs stand for themselves, all others for
a line feed. -/
def lineBreak? (cursor : Cursor) : Option (Char × Cursor) :=
  match cursor.rest with
  | '\r' :: '\n' :: _ => some ('\n', cursor.advance 2)
  | c :: _ =>
      if c = '\u2028' ∨ c = '\u2029' then some (c, cursor.step)
      else if isBreak c then some ('\n', cursor.step)
      else none
  | [] => none

/-- Skips spaces and a comment, after which the line must end, and goes to the next line. -/
def finishLine? (cursor : Cursor) : Option Cursor :=
  let cursor := cursor.skipSpaces
  let cursor := if cursor.peek? = some '#' then cursor.skipLine else cursor
  if isBreakAt cursor.rest then
    match cursor.lineBreak? with
    | some (_, cursor) => some cursor
    | none => some cursor
  else none

end Cursor

end Flatsheet.Yaml
