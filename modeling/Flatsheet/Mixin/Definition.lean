import Flatsheet.Mixin.Basic
import Flatsheet.Diagnostic
import Flatsheet.Text.Pattern
import Flatsheet.Text.Block

/-!
Mixin definitions. `@mixin name(parameters) { body }` is filed under its name and removed from the
text. The first definition of a name stands; a later one is dropped and reported.
-/

namespace Flatsheet.Mixin

/-- A parenthesised list, up to the first closing parenthesis. -/
def parenthesised? (text : Text) : Option (Text × Text) :=
  match text.trimLeft with
  | '(' :: inside => Text.until? ')' inside
  | _ => none

/-- A keyword, blanks, a name, and perhaps a parenthesised list. -/
def heading? (keyword : Text) : Pattern (Text × Option Text) := fun text => do
  let afterKeyword ← Text.dropPrefix? keyword text
  let beforeName ← Text.skipBlanks? afterKeyword
  let (name, afterName) ← Text.run? isName beforeName
  match parenthesised? afterName with
  | some (list, rest) => return ((name, some list), rest)
  | none => return ((name, none), afterName)

structure Definition where
  /-- Everything up to the opening brace, with that brace. -/
  heading : Text
  mixin : Mixin

/-- A mixin definition. One whose block is never closed takes the rest of the text. -/
def definition? : Pattern Definition := fun text => do
  let ((name, list), afterHeading) ← heading? "@mixin" text
  let inside ← Text.dropPrefix? ['{'] afterHeading.trimLeft
  let (body, rest) := Block.body inside
  let heading := text.take (text.length - inside.length)
  return (⟨heading, name, Parameter.listOfText (list.getD []), body⟩, rest)

/-- Files a definition, met on the given line. -/
def register (line : Nat) (definition : Definition) :
    StateM (Table Mixin × List Notice) Unit :=
  modify fun (mixins, notices) =>
    let mixin := definition.mixin
    if mixins.contains (key mixin.name) then
      (mixins, notices ++ [⟨.duplicateMixin mixin.name, some line, some definition.heading⟩])
    else (mixins.insert (key mixin.name) mixin, notices)

/-- Files every definition and removes it. Lines are those of the text as it is by then. -/
def registerAll (text : Text) : StateM (Table Mixin × List Notice) Text :=
  definition?.spliceM (fun line definition => do
    register line definition
    return []) text

end Flatsheet.Mixin
