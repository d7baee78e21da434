import Flatsheet.Table
import Flatsheet.Resource.FileTree

/-!
Libraries: where resources come from. A library answers a path with a text or says why it has none.
-/

namespace Flatsheet

inductive LoadError where
  /-- The library has nothing under this path. -/
  | unknown (path : Text)
  /-- The file of this path could not be read. -/
  | unreadable (path : Text) (cause : FileError)
  /-- The medium behind the library failed, for this reason. -/
  | medium (reason : Text)
  /-- The file is no text in its encoding. -/
  | undecodable
  /-- The path can be no path of a file. -/
  | nullCharacter
deriving DecidableEq, Repr

/-- The message that names the path alone. -/
def LoadError.failedToLoad (path : Text) : Text := "failed to load: ".toList ++ path

def LoadError.message : LoadError → Text
  | .unknown path => failedToLoad path
  | .unreadable path cause => failedToLoad path ++ " (".toList ++ cause.reason ++ [')']
  | .medium reason => reason
  | .undecodable => "the resource is not written in its encoding"
  | .nullCharacter => FileError.nullCharacter.reason

structure Library where
  load : Text → Except LoadError Text
  /-- How deep resources may import one another. -/
  nesting : Nat

/-- What a library in memory holds under a path. -/
inductive Resource where
  | text (content : Text)
  /-- The path is known, but there is no text. -/
  | nothing
  | failing (reason : Text)
deriving DecidableEq, Repr

namespace Library

def loadFrom (resources : Table Resource) (path : Text) : Except LoadError Text :=
  match resources.get? path with
  | some (.text content) => .ok content
  | some .nothing => .ok []
  | some (.failing reason) => .error (.medium reason)
  | none => .error (.unknown path)

/-- A library in memory. An import circle is cut at the first identifier that comes again, so its
resources nest no deeper than their number. -/
def ofTable (resources : Table Resource) : Library := ⟨loadFrom resources, resources.size⟩

/-- One file goes by endlessly many paths, so files are given a fixed depth. -/
def fileNesting : Nat := 1000

/-- The files below a root directory. -/
def ofFiles (tree : FileTree) (root : Text) (encoding : Encoding) : Library where
  load path :=
    match tree.readText encoding (Path.append root path) with
    | .ok (some text) => .ok text
    | .ok none => .error .undecodable
    | .error .nullCharacter => .error .nullCharacter
    | .error cause => .error (.unreadable path cause)
  nesting := fileNesting

end Library

end Flatsheet
