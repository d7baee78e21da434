import Flatsheet.Text.Basic

/-!
Diagnostics. A sheet with mistakes still converts: each mistake is repaired or skipped, and reported
with its line where that is known. Diagnostics never change what is produced.
-/

namespace Flatsheet

inductive Problem where
  | missingSemicolon (declaration : Text)
  | duplicateMixin (name : Text)
  | endlessRecursion (name : Text)
  | unknownMixin (name : Text)
  /-- An import that could not be loaded, for this reason. -/
  | notLoaded (reason : Text)
  /-- A remark made by whoever embeds the conversion. -/
  | remark (message : Text)
deriving DecidableEq, Repr

def Problem.message : Problem → Text
  | .missingSemicolon declaration => "missing semicolon for \"".toList ++ declaration ++ ['"']
  | .duplicateMixin name => "duplicate @mixin \"".toList ++ name ++ ['"']
  | .endlessRecursion name => "endless recursion in @mixin \"".toList ++ name ++ ['"']
  | .unknownMixin name => "unknown @include mixin: \"".toList ++ name ++ ['"']
  | .notLoaded reason => reason
  | .remark message => message

/-- A problem, the line on which it was found and the text that shows it. -/
structure Notice where
  problem : Problem
  line : Option Int
  construct : Option Text
deriving DecidableEq, Repr

/-- A notice about a named sheet. -/
structure Diagnostic where
  source : Text
  notice : Notice
deriving DecidableEq, Repr

/-- The name of a sheet that has no path. -/
def Diagnostic.unnamedSource : Text := "pscss"

def Diagnostic.message (diagnostic : Diagnostic) : Text := diagnostic.notice.problem.message

def Diagnostic.render (diagnostic : Diagnostic) : Text :=
  match diagnostic.notice.line with
  | none => diagnostic.source ++ ": ".toList ++ diagnostic.message
  | some line => diagnostic.source ++ ':' :: Text.ofInt line ++ ": ".toList ++ diagnostic.message

end Flatsheet
