import Flatsheet.Declaration
import Flatsheet.Mixin.Include
import Flatsheet.Options
import Flatsheet.Plugin
import Flatsheet.Resource.Import
import Flatsheet.Variable

/-!
The context of a conversion: what its passes share. Imported resources use the context of the sheet
that imports them, so their variables and mixins are seen by the rest of the sheet.
-/

namespace Flatsheet

structure Context where
  vault : Vault
  /-- The values of the variables declared so far. -/
  globals : Table Text
  mixins : Table Mixin
  plugins : Plugins
  options : Options
  library : Library
  cache : Cache
  /-- The path of the sheet: imports are resolved against it, and diagnostics name it. -/
  basePath : Option Text
  diagnostics : List Diagnostic

/-- A pass over the text. What it did to the context before a fault stays. -/
abbrev ConvertM := ExceptT Fault (StateM Context)

namespace Context

def start (basePath : Option Text) (options : Options) (plugins : Plugins) (library : Library)
    (cache : Cache) : Context :=
  ⟨⟨[]⟩, Table.empty, Table.empty, plugins, options, library, cache, basePath, []⟩

/-- The name of the sheet in diagnostics. -/
def source (context : Context) : Text :=
  match context.basePath with
  | none | some [] => Diagnostic.unnamedSource
  | some path => path

/-- Records notices as diagnostics of the sheet. -/
def report (context : Context) (notices : List Notice) : Context :=
  { context with
    diagnostics := context.diagnostics ++ notices.map fun notice => ⟨context.source, notice⟩ }

end Context

namespace Conversion

def protect (text : Text) : ConvertM Text :=
  modifyGet fun context =>
    let (text, vault) := context.vault.protect text
    (text, { context with vault })

def restore (text : Text) : ConvertM Text := do
  match (← get).vault.restore text with
  | .ok text => return text
  | .error error => throw (.literal error)

def stripComments (text : Text) : ConvertM Text :=
  return Comment.strip (← get).options.nestedComments text

/-- Resolves imports against `base`, or else against the path of the sheet. -/
def resolveImports (base : Option Text) (text : Text) : ConvertM Text := fun context =>
  let source : Import.Source := ⟨context.library, context.options.nestedComments⟩
  let (result, state) :=
    (Import.resolveAll source (base <|> context.basePath) text).run
      ⟨context.vault, context.cache, [], []⟩
  (result, { context.report state.notices with vault := state.vault, cache := state.cache })

def endDeclarations (text : Text) : ConvertM Text := fun context =>
  let (result, notices) := (Declaration.endAll context.vault text).run []
  (result, context.report notices)

def registerMixins (text : Text) : ConvertM Text :=
  modifyGet fun context =>
    let (text, mixins, notices) := (Mixin.registerAll text).run (context.mixins, [])
    (text, { context.report notices with mixins })

def substituteVariables (text : Text) : ConvertM Text :=
  modifyGet fun context =>
    let (text, globals) := (Variable.substitute text).run context.globals
    (text, { context with globals })

def scope (context : Context) : Expansion.Scope := ⟨context.mixins, context.globals⟩

def expandIncludes (text : Text) : ConvertM Text :=
  modifyGet fun context =>
    let (text, state) := (Expansion.expandAll (scope context) text).run ⟨[], []⟩
    (text, context.report state.notices)

/-- Expands includes as if inside the mixins of the guard. -/
def expandIncludesWithin (guard : List Text) (text : Text) : ConvertM Text :=
  modifyGet fun context =>
    let (text, state) := (Expansion.expandWithin (scope context) text).run ⟨guard, []⟩
    (text, context.report state.notices)

def runConverters (text : Text) : ConvertM Text := fun context =>
  let (result, tables) := (Plugin.runConverters context.plugins.converters text).run
    ⟨context.vault, context.globals, context.mixins⟩
  (result.mapError .plugin,
    { context with vault := tables.vault, globals := tables.globals, mixins := tables.mixins })

def answerCalls (text : Text) : ConvertM Text := fun context =>
  ((Plugin.answerCalls context.plugins.functions text).mapError .plugin, context)

end Conversion

end Flatsheet
