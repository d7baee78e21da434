import Flatsheet.Conversion.Context
import Flatsheet.Sheet.Css

/-!
Conversion of a sheet: the passes over its text in order, then the flat rules of what they leave,
then the literals put back. Mixins are registered before variables are replaced, so that stored
bodies keep the names of their parameters, and variables are replaced again for what expanded bodies
bring in.
-/

namespace Flatsheet

inductive Pass where
  | newlines
  | literals
  | comments
  | imports
  | semicolons
  | nestedProperties
  | mixins
  | substitution
  | includes
  | converters
  | functions
deriving DecidableEq, Repr

namespace Pass

def run : Pass → Text → ConvertM Text
  | .newlines, text => return text.unifyNewlines
  | .literals, text => Conversion.protect text
  | .comments, text => Conversion.stripComments text
  | .imports, text => Conversion.resolveImports none text
  | .semicolons, text => Conversion.endDeclarations text
  | .nestedProperties, text => return Declaration.flattenNested text
  | .mixins, text => Conversion.registerMixins text
  | .substitution, text => Conversion.substituteVariables text
  | .includes, text => Conversion.expandIncludes text
  | .converters, text => Conversion.runConverters text
  | .functions, text => Conversion.answerCalls text

/-- The passes in the order of a conversion. -/
def pipeline : List Pass :=
  [.newlines, .literals, .comments, .imports, .semicolons, .nestedProperties, .mixins,
    .substitution, .includes, .substitution, .converters, .functions]

end Pass

/-- The text after all passes. -/
def preprocess (text : Text) : ConvertM Text :=
  Pass.pipeline.foldlM (fun text pass => pass.run text) text

/-- Converts a sheet to CSS. With a root selector, its bare declarations become a rule. -/
def convert (text : Text) (rootSelector : Option Text) : ConvertM Text := do
  let text ← preprocess text
  Conversion.restore (Css.ofTokens rootSelector (Token.scan text))

/-- Converts a sheet that stands at `basePath`, or where the context says if none is given. -/
def convertAt (basePath : Option Text) (text : Text) (rootSelector : Option Text) :
    ConvertM Text := do
  modify fun context => { context with basePath := basePath <|> context.basePath }
  convert text rootSelector

/-- The sheet of a library. A failure of the medium behind the library is told by the path alone. -/
def loadSheet (library : Library) (path : Text) : Except Fault Text :=
  match library.load path with
  | .ok text => .ok text
  | .error .undecodable => .error .undecodable
  | .error .nullCharacter => .error .nullCharacter
  | .error (.medium _) => .error (.notLoaded (LoadError.failedToLoad path))
  | .error error => .error (.notLoaded error.message)

/-- Loads a sheet and converts it. Its path is claimed first, so that an import pointing back at it
brings nothing in. -/
def convertFile (path : Text) (rootSelector : Option Text) : ConvertM Text := do
  modify fun context =>
    { context with basePath := some path, cache := (context.cache.claim path).2 }
  let text ← (loadSheet (← get).library path : Except Fault Text)
  convert text rootSelector

end Flatsheet
