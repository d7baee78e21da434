import Flatsheet.Vault
import Flatsheet.Mixin.Basic

/-!
Plug-ins: converters, which change the whole text after mixins and variables are resolved, and
functions, which answer calls such as `double(4px)` that are left in it.
-/

namespace Flatsheet

namespace Plugin

/-- What a converter may read and change besides the text. -/
structure Tables where
  vault : Vault
  globals : Table Text
  mixins : Table Mixin

/-- The work of a converter, which may give up with a message. -/
abbrev ConverterM := ExceptT Text (StateM Tables)

/-- A converter answers with the new text, or with nothing. -/
abbrev Converter := Text → ConverterM (Option Text)

inductive Reply where
  | text (content : Text)
  | number (value : Int)
  | nothing
deriving DecidableEq, Repr

def Reply.render : Reply → Text
  | .text content => content
  | .number value => Text.ofInt value
  | .nothing => []

/-- A function answers the text between the parentheses of a call, or gives up with a message. -/
abbrev Function := Text → Except Text Reply

structure Call where
  name : Text
  arguments : Text

/-- `name(arguments)`, where the arguments hold neither a closing parenthesis nor a semicolon. -/
def call? : Pattern Call := fun text => do
  let (name, afterName) ← Text.run? isName text
  let inside ← Text.dropPrefix? ['('] afterName
  let isArgument := fun c => c != ')' && c != ';'
  let rest ← Text.dropPrefix? [')'] (inside.dropWhile isArgument)
  return (⟨name, inside.takeWhile isArgument⟩, rest)

/-- Replaces every call of a registered function by its answer. The arguments of a call are not
searched for calls. -/
def answerCalls (functions : Table Function) (text : Text) : Except Text Text :=
  call?.replaceM (fun _ call source =>
    match functions.get? call.name with
    | none => pure source
    | some function => return (← function call.arguments).render) text

/-- Runs the converters in order. -/
def runConverters (converters : List Converter) (text : Text) : ConverterM Text :=
  converters.foldlM (fun text converter => return (← converter text).getD []) text

end Plugin

structure Plugins where
  /-- In the order in which they run. -/
  converters : List Plugin.Converter
  functions : Table Plugin.Function

def Plugins.none : Plugins := ⟨[], Table.empty⟩

namespace Plugin.Converter

def append (ending : Text) : Converter := fun text => return some (text ++ ending)

def replace (old new : Text) : Converter := fun text => return some (text.replaceAll old new)

/-- Answers with nothing, which leaves an empty text. -/
def discard : Converter := fun _ => return none

def setVariable (name value : Text) : Converter := fun text => do
  modify fun tables => { tables with globals := tables.globals.insert name value }
  return some text

/-- Stores a literal and puts its placeholder at the end. -/
def appendLiteral (literal : Text) : Converter := fun text => do
  let placeholder ← modifyGet fun (tables : Tables) =>
    let (placeholder, vault) := tables.vault.store literal
    (placeholder, { tables with vault })
  return some (text ++ placeholder)

/-- Puts the names of variables and mixins and the number of literals at the end. -/
def appendTables : Converter := fun text => do
  let tables ← get
  let names := fun (names : List Text) => Text.join [','] names
  return some (text ++ "\n--tables: ".toList ++ names tables.globals.names ++ '|' ::
    names tables.mixins.names ++ '|' :: Text.ofNat tables.vault.size ++ [';'])

def fail (message : Text) : Converter := fun _ => throw message

end Plugin.Converter

namespace Plugin.Function

def wrap (before after : Text) : Function := fun arguments =>
  .ok (.text (before ++ arguments ++ after))

def const (reply : Reply) : Function := fun _ => .ok reply

def length : Function := fun arguments => .ok (.number arguments.length)

def replace (old new : Text) : Function := fun arguments =>
  .ok (.text (arguments.replaceAll old new))

def fail (message : Text) : Function := fun _ => .error message

end Plugin.Function

end Flatsheet
