import Flatsheet.Example
import Flatsheet.Snapshot

/-!
A demonstration: the example sheet after every pass, the CSS it becomes, and what the conversion
collected.
-/

namespace Flatsheet.Demo

def rule (mark : Char) : Text := List.replicate 80 mark ++ ['\n']

/-- The name under which a pass is listed. -/
def passName : Pass → Text
  | .newlines | .literals | .nestedProperties => "<lambda>"
  | .comments => "_strip_comments"
  | .imports => "resolve_imports"
  | .semicolons => "fix_missing_semicolons"
  | .mixins => "register_mixins"
  | .substitution => "substitute_variables"
  | .includes => "expand_includes"
  | .converters => "run_converters"
  | .functions => "run_functions"

/-- The text after a pass, with its number and the literals put back. -/
def accountOf (number : Nat) (pass : Pass) (text : Text) : ConvertM Text := do
  let restored ← Conversion.restore text
  return '\n' :: Text.ofNat number ++ ". ".toList ++ passName pass ++ ['\n'] ++ rule '-' ++
    restored.trim ++ ['\n']

/-- Runs passes from a number on; the answer is the text after them, and the account of each. -/
def runPasses : (number : Nat) → List Pass → Text → ConvertM (Text × Text)
  | _, [], text => return (text, [])
  | number, pass :: passes, text => do
      let text ← pass.run text
      let account ← accountOf number pass text
      let (final, accounts) ← runPasses (number + 1) passes text
      return (final, account ++ accounts)

def report : ConvertM Text := do
  let (text, accounts) ← runPasses 1 Pass.pipeline Example.sheet
  let tokens := Token.scan text
  let css ← Conversion.restore (Css.ofTokens none tokens)
  let snapshot ← ((← get).snapshot : Except Fault Data)
  return rule '=' ++ "COMPLETE PIPELINE DEMO: pscss -> CSS\n".toList ++ rule '=' ++ accounts ++
    "\nTOKENS: ".toList ++ Text.ofNat tokens.length ++ "\n\nCSS OUTPUT:\n".toList ++ rule '-' ++
    css ++ ['\n'] ++ "CONTEXT:\n".toList ++ rule '-' ++ Yaml.write snapshot ++ ['\n']

/-- Everything that the demonstration prints. -/
def output : Except Fault Text := (report.run Example.context).1

end Flatsheet.Demo
