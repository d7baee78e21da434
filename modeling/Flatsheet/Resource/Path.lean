import Flatsheet.Text.Basic

/-!
Paths of resources. An import is resolved against the resource in which it stands: the last segment
of that path gives way to the imported path.
-/

namespace Flatsheet.Path

/-- The imported path with the directory of `base` in front, if `base` has one. Slashes at the front
are dropped. -/
def resolve (base : Option Text) (path : Text) : Text :=
  let resolved :=
    match Text.partitionLast '/' (base.getD []) with
    | some (directory, _) => directory ++ '/' :: path
    | none => path
  resolved.dropWhile (· = '/')

/-- The endings of the sheets that an import brings in. -/
def sheetEndings : List Text := [".scss", ".ncss", ".pscss", ".pncss"]

/-- The path without one line feed at its end. -/
def withoutFinalNewline (path : Text) : Text :=
  if path.getLast? = some '\n' then path.dropLast else path

/-- Whether an import of this path is brought in. Any other import is left to the reader of the
CSS. -/
def isSheet (path : Text) : Bool :=
  path.startsWith ['_'] || sheetEndings.any fun ending => (withoutFinalNewline path).endsWith ending

/-- The path under which a partial is kept: without the underscore that marks it. -/
def withoutMark : Text → Text
  | '_' :: path => path
  | path => path

/-- Two paths one after the other, unless the second is rooted. -/
def append (root path : Text) : Text :=
  if path.startsWith ['/'] then path
  else if root = [] ∨ root.endsWith ['/'] then root ++ path
  else root ++ '/' :: path

end Flatsheet.Path
