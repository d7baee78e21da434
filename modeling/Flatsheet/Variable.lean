import Flatsheet.Table
import Flatsheet.Text.Pattern

/-!
Variables. `$accent: red;` becomes the custom property `--accent: red;` and `$accent;` its use
`var(--accent);`. The table of variables is flat, and values are copied when declared: `$b: $a;`
stores the value that `$a` has at that point. A use is replaced without a look at the table.
-/

namespace Flatsheet.Variable

/-- The characters of a variable name after its `$`, further `$` included. -/
def isNamePart (c : Char) : Bool := isName c || c == '$'

/-- A variable name, without the `$` in front. -/
def name? : Pattern Text
  | '$' :: text => Text.run? isNamePart text
  | _ => none

/-- A value of at least one character, up to the first semicolon after that character, all on one
line. -/
def value? : Pattern Text
  | [] => none
  | c :: text =>
      match Text.until? ';' text with
      | some (tail, rest) => if '\n' ∈ c :: tail then none else some (c :: tail, rest)
      | none => none

/-- Blanks and a value after them. As many blanks as possible are left out of the value. -/
def spacedValue? : Pattern (Text × Text)
  | [] => none
  | c :: text =>
      let longer := if isBlank c then spacedValue? text else none
      match longer with
      | some ((blanks, value), rest) => some ((c :: blanks, value), rest)
      | none => (value? (c :: text)).map fun (value, rest) => (([], value), rest)

structure Declaration where
  name : Text
  separator : Text
  value : Text

/-- `$name: value;`. -/
def declaration? : Pattern Declaration := fun text => do
  let (name, afterName) ← name? text
  let afterColon ← Text.dropPrefix? [':'] afterName.trimLeft
  let ((blanks, value), rest) ← spacedValue? afterColon
  return (⟨name, afterName.takeWhile isBlank ++ ':' :: blanks, value⟩, rest)

/-- The name that a value refers to, if it is a bare `$name`. -/
def reference? (value : Text) : Option Text :=
  match value.trim with
  | '$' :: name => if name ≠ [] ∧ name.all isName then some name else none
  | _ => none

/-- Enters a declaration in the table. A bare reference to a known variable takes its value. -/
def declare (globals : Table Text) (declaration : Declaration) : Table Text :=
  let value :=
    match reference? declaration.value with
    | some name => (globals.get? name).getD declaration.value
    | none => declaration.value
  globals.insert declaration.name value

/-- The custom property that a declaration becomes. -/
def Declaration.render (declaration : Declaration) : Text :=
  "--".toList ++ declaration.name ++ declaration.separator ++ declaration.value ++ [';']

/-- Enters every declaration in the table and puts a custom property in its place. -/
def declareAll (text : Text) : StateM (Table Text) Text :=
  declaration?.replaceM (fun _ declaration _ => do
    modify (declare · declaration)
    return declaration.render) text

structure Use where
  name : Text
  /-- What follows the name: blanks, perhaps `!important`, and a semicolon. -/
  ending : Text

/-- `$name;` or `$name !important;`. -/
def use? : Pattern Use := fun text => do
  let (name, afterName) ← name? text
  let beforeEnd :=
    match Text.skipBlanks? afterName >>= Text.dropPrefix? "!important" with
    | some rest => rest
    | none => afterName
  let rest ← Text.dropPrefix? [';'] beforeEnd.trimLeft
  return (⟨name, afterName.take (afterName.length - rest.length)⟩, rest)

def Use.render (use : Use) : Text := "var(--".toList ++ use.name ++ ')' :: use.ending

/-- Replaces declarations first, then uses. -/
def substitute (text : Text) : StateM (Table Text) Text := do
  return use?.replace Use.render (← declareAll text)

end Flatsheet.Variable
