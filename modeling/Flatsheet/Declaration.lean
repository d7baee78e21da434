import Flatsheet.Fault
import Flatsheet.Diagnostic

/-!
Declarations as plain text: repair of missing semicolons, and flattening of nested properties. Both
work on the look of the text. The repair knows values of one word only, and takes a selector such as
`a:hover` at the end of a line for a declaration; flattening goes one level deep.
-/

namespace Flatsheet.Declaration

/-- The characters of a value of one word, which may be a placeholder. -/
def isValue (c : Char) : Bool :=
  isWord c || c == '"' || c == '\'' || c == Vault.openMark || c == Vault.closeMark

/-- `name: value` with only spaces between it and a closing brace or the end of its line. The
meaning is the declaration, and the match ends before those spaces. -/
def unended? : Pattern Text := fun text => do
  let (_, afterName) ← Text.run? isWord text
  let afterColon ← Text.dropPrefix? [':'] afterName.trimLeft
  let (_, rest) ← Text.run? isValue afterColon.trimLeft
  match rest.dropWhile (· = ' ') with
  | '}' :: _ | '\n' :: _ => return (text.take (text.length - rest.length), rest)
  | _ => none

/-- Ends every unended declaration with a semicolon and reports it, unless its text holds a
placeholder without a literal: then the repair stops there. -/
def endAll (vault : Vault) (text : Text) : ExceptT Fault (StateM (List Notice)) Text :=
  unended?.replaceM (fun line declaration _ => do
    match vault.restore declaration with
    | .error error => throw (.literal error)
    | .ok restored =>
        modify (· ++ [⟨.missingSemicolon restored, some line, some declaration⟩])
        return declaration ++ [';']) text

structure NestedProperty where
  name : Text
  body : Text

/-- `name: { body }`, where the body is not empty and ends at the first closing brace. -/
def nestedProperty? : Pattern NestedProperty := fun text => do
  let (name, afterName) ← Text.run? isName text
  let afterColon ← Text.dropPrefix? [':'] afterName.trimLeft
  let afterBrace ← Text.dropPrefix? ['{'] afterColon.trimLeft
  let (body, rest) ← Text.until? '}' afterBrace
  if body = [] then none else return (⟨name, body⟩, rest)

/-- A name and the colon after it. -/
def label? : Pattern Text := fun text => do
  let (name, afterName) ← Text.run? isName text
  let rest ← Text.dropPrefix? [':'] afterName.trimLeft
  return (name, rest)

/-- `margin: { top: 1px; left: 2px; }` becomes ` margin-top: 1px; margin-left: 2px; `. -/
def flattenNested (text : Text) : Text :=
  nestedProperty?.replace (fun property =>
    label?.replace (fun label => property.name ++ '-' :: label ++ [':']) property.body) text

end Flatsheet.Declaration
