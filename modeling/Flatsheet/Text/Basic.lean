import Flatsheet.Text.Blank

/-!
Text as the passes handle it: a list of characters, so that every position, length and offset counts
characters. The operations here know nothing of style sheets.
-/

namespace Flatsheet

abbrev Text := List Char

instance : Coe String Text := ⟨String.toList⟩

namespace Text

/-- What follows `expected`, if the text starts with it. -/
def dropPrefix? : (expected text : Text) → Option Text
  | [], text => some text
  | _ :: _, [] => none
  | e :: expected, c :: text => if e = c then dropPrefix? expected text else none

def startsWith (text expected : Text) : Bool := (dropPrefix? expected text).isSome

def endsWith (text expected : Text) : Bool := startsWith text.reverse expected.reverse

def trimLeft (text : Text) : Text := text.dropWhile isBlank

def trimRight (text : Text) : Text := (text.reverse.dropWhile isBlank).reverse

def trim (text : Text) : Text := trimRight (trimLeft text)

/-- Cuts the text at every character that satisfies `cut`. The cut characters are dropped, and
there is one part more than there are cuts. -/
def splitWhere (cut : Char → Bool) : Text → List Text
  | [] => [[]]
  | c :: text =>
      if cut c then [] :: splitWhere cut text else (splitWhere cut text).modifyHead (c :: ·)

def words (text : Text) : List Text := (splitWhere isBlank text).filter (· ≠ [])

def join (separator : Text) (parts : List Text) : Text := separator.intercalate parts

/-- The words of the text, one space apart. -/
def collapse (text : Text) : Text := join [' '] (words text)

/-- The text before and after the first occurrence of a character. -/
def partition (mark : Char) : Text → Text × Option Text
  | [] => ([], none)
  | c :: text =>
      if c = mark then ([], some text)
      else let (before, after) := partition mark text; (c :: before, after)

/-- One character for another, everywhere. -/
def replaceChar (old new : Char) (text : Text) : Text :=
  text.map fun c => if c = old then new else c

/-- Ends every line in a line feed: a carriage return counts as one, together with the line feed
after it if there is one. -/
def unifyNewlines : Text → Text
  | [] => []
  | '\r' :: '\n' :: text => '\n' :: unifyNewlines text
  | c :: text => (if c = '\r' then '\n' else c) :: unifyNewlines text

/-- How many line feeds the text holds. -/
def newlines (text : Text) : Nat := text.count '\n'

/-- The line, counted from one, on which the character at `offset` stands. -/
def lineAt (text : Text) (offset : Int) : Nat := newlines (text.take offset.toNat) + 1

def ofNat (n : Nat) : Text := Nat.toDigits 10 n

def ofInt : Int → Text
  | .ofNat n => ofNat n
  | .negSucc n => '-' :: ofNat (n + 1)

/-- What follows the first occurrence of `mark`. -/
def afterFirst? (mark : Text) : Text → Option Text
  | [] => dropPrefix? mark []
  | c :: text => (dropPrefix? mark (c :: text)).or (afterFirst? mark text)

/-- The text up to the last occurrence of a character, and what follows it. -/
def partitionLast (mark : Char) (text : Text) : Option (Text × Text) :=
  match partition mark text.reverse with
  | (_, none) => none
  | (after, some before) => some (before.reverse, after.reverse)

end Text

end Flatsheet
