import Flatsheet.Mixin.Binding
import Flatsheet.Mixin.Definition

/-!
Includes and their expansion. `@include name(arguments);` is replaced by the body of the mixin, with
its own includes expanded and its parameters bound; the block of `@include name { content }` goes
where the body says `@content`. A mixin that is being expanded is not expanded again inside itself.
-/

namespace Flatsheet

structure Include where
  name : Text
  arguments : Option Text
  content : Option Text

namespace Include

/-- An include. It ends with a semicolon, with its content block, or before a closing brace. -/
def include? : Pattern Include := fun text => do
  let ((name, list), afterHeading) ← Mixin.heading? "@include" text
  match afterHeading.trimLeft with
  | ';' :: rest => return (⟨name, list, none⟩, rest)
  | '{' :: inside =>
      let (content, rest) := Block.body inside
      return (⟨name, list, some content⟩, rest)
  | '}' :: rest => return (⟨name, list, none⟩, '}' :: rest)
  | _ => none

/-- The include without its arguments, as diagnostics show it. -/
def heading (inclusion : Include) : Text := "@include ".toList ++ inclusion.name

/-- The arguments that one item of an argument list gives: the item, or for `$list...` the items of
the variable. -/
def spread (globals : Table Text) (item : Text) : List Text :=
  if item.endsWith Parameter.spreadMark then
    let reference := item.take (item.length - Parameter.spreadMark.length)
    Text.splitList ((globals.get? (reference.dropWhile (· = '$'))).getD [])
  else [item]

def argumentsOf (globals : Table Text) (list : Option Text) : List Text :=
  (Text.splitList (list.getD [])).flatMap (spread globals)

/-- The place in a body where the content of the include goes. -/
def contentSlot? : Pattern Unit := fun text => do
  let afterName ← Text.dropPrefix? "@content" text
  match afterName.trimLeft with
  | ';' :: rest => return ((), rest)
  | rest => return ((), rest)

end Include

namespace Expansion

/-- What expansion reads and never changes. -/
structure Scope where
  mixins : Table Mixin
  globals : Table Text

structure State where
  /-- The keys of the mixins that are being expanded. -/
  guard : List Text
  notices : List Notice

def report (notice : Notice) : StateM State Unit :=
  modify fun state => { state with notices := state.notices ++ [notice] }

def enter (key : Text) : StateM State Unit :=
  modify fun state => { state with guard := key :: state.guard }

def leave (key : Text) : StateM State Unit :=
  modify fun state => { state with guard := state.guard.erase key }

/-- Expands one include. The content belongs to whoever includes, so it is expanded before the mixin
is entered; `expandContent` and `expandBody` expand the includes inside the two. -/
def expandInclude (scope : Scope) (expandContent expandBody : Text → StateM State Text)
    (line : Option Int) (inclusion : Include) : StateM State Text := do
  let key := Mixin.key inclusion.name
  if (← get).guard.contains key then
    report ⟨.endlessRecursion inclusion.name, line, some inclusion.heading⟩
    return []
  match scope.mixins.get? key with
  | none =>
      report ⟨.unknownMixin inclusion.name, line, some inclusion.heading⟩
      return []
  | some mixin =>
      let content ← expandContent (inclusion.content.getD [])
      enter key
      let body ← expandBody mixin.body
      leave key
      let arguments := Include.argumentsOf scope.globals inclusion.arguments
      let bound := bindArguments body mixin.parameters arguments
      return Include.contentSlot?.replace (fun _ => content) bound

/-- Expands the includes of a text inside another include, where lines are not known. Content blocks
nest at most `depth` deep. -/
def expandNested (scope : Scope) (expandBody : Text → StateM State Text) :
    (depth : Nat) → Text → StateM State Text
  | 0, text => pure text
  | depth + 1, text =>
      Include.include?.spliceM (fun _ inclusion =>
        expandInclude scope (expandNested scope expandBody depth) expandBody none inclusion) text

/-- Expands the includes of a mixin body, entering at most `levels` mixins one inside another. -/
def expandBody (scope : Scope) : (levels : Nat) → Text → StateM State Text
  | 0, text => expandNested scope pure text.length text
  | levels + 1, text => expandNested scope (expandBody scope levels) text.length text

/-- Expands the includes of a text that stands inside the mixins of the guard. A content block is
shorter than the text that holds it, and a mixin is entered only when its key is not in the guard:
so the length of the text and the size of the table bound the nesting. -/
def expandWithin (scope : Scope) (text : Text) : StateM State Text :=
  expandNested scope (expandBody scope scope.mixins.size) text.length text

/-- Expands the includes of a whole sheet. Lines are those of the text as it is by then. -/
def expandAll (scope : Scope) (text : Text) : StateM State Text :=
  Include.include?.spliceM (fun line inclusion =>
    expandInclude scope (expandWithin scope) (expandBody scope scope.mixins.size) (some line)
      inclusion) text

end Expansion

end Flatsheet
