import Flatsheet.Text.Pattern

/-!
Lists written in a text: arguments and values separated by commas or line feeds, and selectors
separated by commas outside brackets.
-/

namespace Flatsheet.Text

def isListSeparator (c : Char) : Bool := c == '\n' || c == ','

/-- What `next` leaves after some of the blanks at the start: after all of them if it can, else
after all but the last, and so on. -/
def afterBlanks? (next : Text → Option Text) : Text → Option Text
  | [] => next []
  | c :: text =>
      if isBlank c then (afterBlanks? next text).or (next (c :: text)) else next (c :: text)

/-- What follows one or more separators, all of them skipped, and the blanks after them. -/
def skipSeparators? (text : Text) : Option Text :=
  (run? isListSeparator text).map fun found => found.2.trimLeft

/-- Separators with blanks around them. A line feed is a blank too, so the blanks in front may have
to leave one for the separators. -/
def listSeparator? : Pattern Unit := fun text => (afterBlanks? skipSeparators? text).map ((), ·)

/-- The items of a list written with commas or line feeds, trimmed. Empty items are dropped. -/
def splitList (text : Text) : List Text := (listSeparator?.split text.trim).filter (· ≠ [])

/-- The bracket depth after a character. A closer without an opener is ignored. -/
def bracketDepth (depth : Nat) (c : Char) : Nat :=
  if c = '(' ∨ c = '[' then depth + 1
  else if c = ')' ∨ c = ']' then depth - 1
  else depth

/-- Cuts at the separator wherever the bracket depth, this character counted, is zero. -/
def splitOutside (separator : Text) (depth : Nat) : Text → List Text
  | [] => [[]]
  | c :: text =>
      let inner := bracketDepth depth c
      if [c] = separator ∧ inner = 0 then [] :: splitOutside separator inner text
      else (splitOutside separator inner text).modifyHead (c :: ·)

/-- The parts between separators outside brackets, with blanks collapsed; blank parts are dropped.
Only a separator of one character is ever found. -/
def splitTopLevelAt (text separator : Text) : List Text :=
  ((splitOutside separator 0 text).map collapse).filter (· ≠ [])

def splitTopLevel (text : Text) : List Text := text.splitTopLevelAt [',']

end Flatsheet.Text
