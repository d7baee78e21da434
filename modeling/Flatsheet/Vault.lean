import Flatsheet.Text.Digit
import Flatsheet.Text.Pattern
import Flatsheet.Text.Displayed

/-!
The vault of quoted literals. Literals are lifted out of a text before anything else looks at it, so
that comment marks, braces or semicolons inside quotes are never seen, and are put back at the end.
In the meantime a placeholder stands for each: its number, counted from one, between two private-use
characters.
-/

namespace Flatsheet

structure Vault where
  literals : List Text
deriving DecidableEq, Repr, Inhabited

namespace Vault

def openMark : Char := '\ue000'

def closeMark : Char := '\ue001'

def placeholder (number : Int) : Text := openMark :: Text.ofInt number ++ [closeMark]

/-- The digits of the placeholder with which the text starts. They may be of any script. -/
def placeholder? : Pattern Text
  | [] => none
  | c :: text =>
      if c = openMark then
        match Text.run? isDecimalDigit text with
        | some (digits, mark :: rest) =>
            if mark = closeMark then some (digits, rest) else none
        | _ => none
      else none

/-- What follows the nearest closing quote that has a character other than a backslash before it,
the first of the characters given at the earliest. Everything up to that character is on one line.
-/
def afterClosing? (quote : Char) : Text → Option Text
  | x :: y :: text =>
      if x ≠ '\\' ∧ y = quote then some text
      else if x = '\n' then none
      else afterClosing? quote (y :: text)
  | _ => none

/-- A quoted literal: the shortest that is not empty, or else an empty one. -/
def literal? : Pattern Unit
  | [] => none
  | quote :: text =>
      if quote = '"' ∨ quote = '\'' then
        match afterClosing? quote text with
        | some rest => some ((), rest)
        | none => (Text.dropPrefix? [quote] text).map ((), ·)
      else none

/-- The literal at an index. An index below zero counts from the end. -/
def get? (vault : Vault) (index : Int) : Option Text :=
  if 0 ≤ index then vault.literals[index.toNat]?
  else if 0 ≤ vault.literals.length + index then
    vault.literals[(vault.literals.length + index).toNat]?
  else none

inductive Error where
  /-- The text is not one placeholder. -/
  | notPlaceholder (text : Text)
  /-- There is no literal at this place. -/
  | missing
  /-- There is no literal at this place, nor could there be one. -/
  | indexSize
  /-- A number has so many digits that it is not read. -/
  | numberSize (digits : Nat)
deriving DecidableEq, Repr

def Error.message : Error → Text
  | .notPlaceholder text => "Not a quote placeholder: ".toList ++ text.displayed
  | .missing => "list index out of range"
  | .indexSize => "cannot fit 'int' into an index-sized integer"
  | .numberSize digits => DigitLimit.readMessage digits

/-- The bound of the indexes that a list can have. -/
def indexBound : Int := 0x8000000000000000

/-- Why there is no literal at an index. -/
def Error.ofIndex (index : Int) : Error :=
  if -indexBound ≤ index ∧ index < indexBound then .missing else .indexSize

/-- The literal at an index. -/
def get (vault : Vault) (index : Int) : Except Error Text :=
  match vault.get? index with
  | some literal => .ok literal
  | none => .error (.ofIndex index)

/-- The index of the literal for which a placeholder with these digits stands. Number zero stands
for the last. -/
def indexOf (digits : Text) : Int := (decimalValue digits : Int) - 1

/-- Whether a number with these digits is read. One that is too long is not, unless it is written
plainly: then it is left to the vault, which has a literal for it only if it has that many. -/
def isRead (digits : Text) : Bool :=
  digits.length ≤ digitLimit || digits = Text.ofNat (decimalValue digits)

def find? (vault : Vault) (digits : Text) : Option Text :=
  if isRead digits then vault.get? (indexOf digits) else none

/-- The literal for which a placeholder with these digits stands. -/
def numbered (vault : Vault) (digits : Text) : Except Error Text :=
  match vault.find? digits with
  | some literal => .ok literal
  | none =>
      .error (if digitLimit < digits.length then .numberSize digits.length
        else .ofIndex (indexOf digits))

def size (vault : Vault) : Nat := vault.literals.length

/-- Adds a literal; the answer is its placeholder. -/
def store (vault : Vault) (literal : Text) : Text × Vault :=
  (placeholder (vault.size + 1), ⟨vault.literals ++ [literal]⟩)

/-- Lifts every quoted literal out of the text. -/
def protect (vault : Vault) (text : Text) : Text × Vault :=
  (literal?.replaceM (m := StateM Vault) (fun _ _ literal => fun vault => vault.store literal)
    text).run vault

/-- Puts every literal back, unless some placeholder has none. -/
def restore (vault : Vault) (text : Text) : Except Error Text :=
  placeholder?.replaceM (fun _ digits _ => vault.numbered digits) text

def lookUp (vault : Vault) (token : Text) : Except Error Text :=
  match placeholder? token with
  | some (digits, []) => vault.numbered digits
  | _ => .error (.notPlaceholder token)

/-- What stands between the quotes of a literal. -/
def unquote : Text → Text
  | [] => []
  | quote :: text =>
      if (quote = '"' ∨ quote = '\'') ∧ text.getLast? = some quote then text.dropLast
      else quote :: text

end Vault

end Flatsheet
