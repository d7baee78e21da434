import Flatsheet.Yaml.Cursor

/-!
Block scalars: the indented lines after `|`, taken as they are, or after `>`, where single breaks
between lines that are not indented further read as spaces. A sign says what becomes of the breaks
at the end.
-/

namespace Flatsheet.Yaml.BlockText

inductive Chomping where
  /-- The last line break is kept. -/
  | clip
  /-- No line break is kept. -/
  | strip
  /-- All line breaks are kept. -/
  | keep
deriving DecidableEq, Repr

def chomping? : Char → Option Chomping
  | '+' => some .keep
  | '-' => some .strip
  | _ => none

/-- The indentation that a digit asks for, which is not zero. -/
def increment? (c : Char) : Option Nat :=
  if '1' ≤ c ∧ c ≤ '9' then some (c.toNat - 48) else none

/-- The sign and the digit after the mark of a block, in either order. -/
def readHeader? (cursor : Cursor) : Option (Chomping × Option Nat × Cursor) :=
  let (chomping, increment, cursor) :=
    match cursor.rest with
    | c :: d :: _ =>
        match chomping? c, increment? c with
        | some chomping, _ =>
            match increment? d with
            | some increment => (chomping, some increment, cursor.advance 2)
            | none => (chomping, none, cursor.step)
        | none, some increment =>
            match chomping? d with
            | some chomping => (chomping, some increment, cursor.advance 2)
            | none => (.clip, some increment, cursor.step)
        | none, none => (.clip, none, cursor)
    | [c] =>
        match chomping? c, increment? c with
        | some chomping, _ => (chomping, none, cursor.step)
        | none, some increment => (.clip, some increment, cursor.step)
        | none, none => (.clip, none, cursor)
    | [] => (.clip, none, cursor)
  if isSpaceAt cursor.rest then (cursor.finishLine?).map (chomping, increment, ·) else none

/-- Reads empty lines in front of a block, and how far the furthest of them and the first line are
indented. -/
def readIndentation : (fuel : Nat) → (widest : Nat) → Cursor → Text × Nat × Cursor
  | 0, widest, cursor => ([], widest, cursor)
  | fuel + 1, widest, cursor =>
      match cursor.lineBreak? with
      | some (c, next) =>
          let (breaks, result) := readIndentation fuel widest next
          (c :: breaks, result)
      | none =>
          if cursor.peek? = some ' ' then
            readIndentation fuel (max widest cursor.step.column) cursor.step
          else ([], widest, cursor)

/-- Skips spaces up to a column. -/
def indentTo (indent : Nat) (cursor : Cursor) : Cursor :=
  let spaces := (cursor.rest.takeWhile (· == ' ')).length
  cursor.advance (min spaces (indent - cursor.column))

/-- Reads empty lines, and the indentation of the line after them. -/
def readBreaks (indent : Nat) : (fuel : Nat) → Cursor → Text × Cursor
  | 0, cursor => ([], cursor)
  | fuel + 1, cursor =>
      let cursor := indentTo indent cursor
      match cursor.lineBreak? with
      | some (c, next) =>
          let (breaks, last) := readBreaks indent fuel next
          (c :: breaks, last)
      | none => ([], cursor)

def isLine (indent : Nat) (cursor : Cursor) : Bool :=
  cursor.column == indent && cursor.rest != []

/-- Whether the next line is indented further. -/
def isIndented (cursor : Cursor) : Bool := cursor.peek? == some ' ' || cursor.peek? == some '\t'

/-- What the break between two lines and the empty lines after it read as. -/
def joinLines (isFolded plainBefore plainAfter : Bool) (lineBreak breaks : Text) : Text :=
  if isFolded && lineBreak == ['\n'] && plainBefore && plainAfter then
    (if breaks = [] then [' '] else breaks)
  else lineBreak ++ breaks

def ending (chomping : Chomping) (lineBreak breaks : Text) : Text :=
  match chomping with
  | .clip => lineBreak
  | .strip => []
  | .keep => lineBreak ++ breaks

/-- Reads the lines of a block, the cursor standing at the first character of one of them. -/
def readLines (isFolded : Bool) (chomping : Chomping) (indent : Nat) :
    (fuel : Nat) → Cursor → Text × Cursor
  | 0, cursor => ([], cursor)
  | fuel + 1, cursor =>
      let plainBefore := !isIndented cursor
      let (line, afterLine) := cursor.takeWhile (!isBreak ·)
      let (lineBreak, afterBreak) :=
        match afterLine.lineBreak? with
        | some (c, next) => ([c], next)
        | none => ([], afterLine)
      let (breaks, next) := readBreaks indent (afterBreak.rest.length + 1) afterBreak
      if isLine indent next then
        let (lines, last) := readLines isFolded chomping indent fuel next
        let join := joinLines isFolded plainBefore (!isIndented next) lineBreak breaks
        (line ++ join ++ lines, last)
      else (line ++ ending chomping lineBreak breaks, next)

/-- Reads a block scalar whose mark comes next. Its lines are indented by at least `least`. -/
def read? (isFolded : Bool) (least : Nat) (cursor : Cursor) : Option (Text × Cursor) := do
  let (chomping, increment, start) ← readHeader? cursor.step
  let fuel := start.rest.length + 1
  let (breaks, indent, first) :=
    match increment with
    | some increment =>
        let indent := least + increment - 1
        let (breaks, first) := readBreaks indent fuel start
        (breaks, indent, first)
    | none =>
        let (breaks, widest, first) := readIndentation fuel 0 start
        (breaks, max least widest, first)
  if isLine indent first then
    let (lines, last) := readLines isFolded chomping indent fuel first
    return (breaks ++ lines, last)
  else return (ending chomping [] breaks, first)

end Flatsheet.Yaml.BlockText
