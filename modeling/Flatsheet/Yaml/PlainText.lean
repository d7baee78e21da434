import Flatsheet.Yaml.Cursor

/-!
Plain scalars: texts without quotes, which may go on over several lines. A single line break inside
one reads as a space, and of several the first is dropped.
-/

namespace Flatsheet.Yaml.PlainText

/-- The brackets and the comma, which end a plain scalar inside a flow collection. -/
def isFlowMark (c : Char) : Bool := c == ',' || c == '[' || c == ']' || c == '{' || c == '}'

/-- The length of the word with which the text starts. Inside a flow collection, a question mark
ends it too. -/
def wordLength (inFlow : Bool) : Text → Nat
  | [] => 0
  | c :: text =>
      let endsKey := c == ':' &&
        (isGapAt text || (inFlow && (text.head?.map isFlowMark).getD false))
      if isGap c || endsKey || (inFlow && (c == '?' || isFlowMark c)) then 0
      else wordLength inFlow text + 1

structure Gap where
  /-- What stands between two words; empty if the scalar ends here. -/
  text : Text
  crossesLine : Bool
  cursor : Cursor

/-- Reads the line breaks and spaces after a first break. There are none to speak of if a document
mark comes after one of them. -/
def readBreaks : (fuel : Nat) → Cursor → Option Text × Cursor
  | 0, cursor => (some [], cursor)
  | fuel + 1, cursor =>
      match cursor.lineBreak? with
      | some (c, next) =>
          if isAnyDocumentMark next.rest then (none, next)
          else
            let (breaks, last) := readBreaks fuel next
            (breaks.map (c :: ·), last)
      | none =>
          if cursor.peek? = some ' ' then readBreaks fuel cursor.step else (some [], cursor)

/-- What line breaks inside a scalar read as, the first of them apart. -/
def foldBreaks (first : Char) (others : Text) : Text :=
  if first ≠ '\n' then first :: others else if others = [] then [' '] else others

def readGap (cursor : Cursor) : Gap :=
  let (spaces, afterSpaces) := cursor.takeWhile (· == ' ')
  match afterSpaces.lineBreak? with
  | none => ⟨spaces, false, afterSpaces⟩
  | some (first, next) =>
      if isAnyDocumentMark next.rest then ⟨[], true, next⟩
      else
        let (others, last) := readBreaks (next.rest.length + 1) next
        ⟨(others.map (foldBreaks first)).getD [], true, last⟩

structure Result where
  content : Text
  /-- Whether the scalar was left on a new line. -/
  crossesLine : Bool
  cursor : Cursor

/-- Reads words and the gaps between them; `gap` comes before the next word. Outside flow
collections a line indented less than `indent` ends the scalar. -/
def readFrom (inFlow : Bool) (indent : Nat) :
    (fuel : Nat) → (gap : Text) → (crossesLine : Bool) → Cursor → Result
  | 0, _, crossesLine, cursor => ⟨[], crossesLine, cursor⟩
  | fuel + 1, gap, crossesLine, cursor =>
      let length := if cursor.peek? = some '#' then 0 else wordLength inFlow cursor.rest
      if length = 0 then ⟨[], crossesLine, cursor⟩
      else
        let word := cursor.rest.take length
        let next := readGap (cursor.advance length)
        if next.text = [] ∨ next.cursor.peek? = some '#' ∨
            (!inFlow && next.cursor.column < indent) then
          ⟨gap ++ word, next.crossesLine, next.cursor⟩
        else
          let result := readFrom inFlow indent fuel next.text next.crossesLine next.cursor
          { result with content := gap ++ word ++ result.content }

def read (inFlow : Bool) (indent : Nat) (cursor : Cursor) : Result :=
  readFrom inFlow indent (cursor.rest.length + 1) [] false cursor

end Flatsheet.Yaml.PlainText
