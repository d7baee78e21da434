import Flatsheet.Resource.Path

/-!
A tree of files, seen from its top directory, and the reading of files as text. Paths are walked
segment by segment, so `..` and `.` work as in a file system and a path through a plain file fails.
-/

namespace Flatsheet

structure FileTree where
  /-- The segments of each path, and the bytes of the file there. -/
  files : List (List Text × ByteArray)

inductive FileError where
  | notFound
  | isDirectory
  | notDirectory
  | nameTooLong
  /-- The path holds the character with which names end. -/
  | nullCharacter
deriving DecidableEq, Repr

def FileError.reason : FileError → Text
  | .notFound => "No such file or directory"
  | .isDirectory => "Is a directory"
  | .notDirectory => "Not a directory"
  | .nameTooLong => "File name too long"
  | .nullCharacter => "embedded null byte"

namespace FileTree

def segments (path : Text) : List Text := path.splitWhere (· = '/')

def file? (tree : FileTree) (place : List Text) : Option ByteArray :=
  (tree.files.find? fun file => file.1 = place).map Prod.snd

def hasDirectory (tree : FileTree) (place : List Text) : Bool :=
  tree.files.any fun file => place.isPrefixOf file.1 && place.length < file.1.length

/-- The most bytes that one segment of a path may have. -/
def segmentLimit : Nat := 255

/-- The bytes at which a path is too long. -/
def pathLimit : Nat := 4096

def byteLength (text : Text) : Nat := text.foldl (fun size c => size + c.utf8Size) 0

/-- Walks on from a directory. Above the top of the tree, where `place` is none, nothing is known by
name. -/
def walk (tree : FileTree) : (place : Option (List Text)) → List Text → Except FileError ByteArray
  | _, [] => .error .isDirectory
  | place, [] :: rest => walk tree place rest
  | place, ['.'] :: rest => walk tree place rest
  | none, ['.', '.'] :: rest => walk tree none rest
  | some [], ['.', '.'] :: rest => walk tree none rest
  | some place, ['.', '.'] :: rest => walk tree (some place.dropLast) rest
  | none, segment :: _ =>
      .error (if segmentLimit < byteLength segment then .nameTooLong else .notFound)
  | some place, segment :: rest =>
      let next := place ++ [segment]
      if segmentLimit < byteLength segment then .error .nameTooLong
      else match tree.file? next with
      | some bytes => if rest = [] then .ok bytes else .error .notDirectory
      | none => if tree.hasDirectory next then walk tree (some next) rest else .error .notFound

def read (tree : FileTree) (path : Text) : Except FileError ByteArray :=
  if path.contains '\x00' then .error .nullCharacter
  else if path = [] then .error .notFound
  else if pathLimit ≤ byteLength path then .error .nameTooLong
  else walk tree (if path.startsWith ['/'] then none else some []) (segments path)

end FileTree

inductive Encoding where
  | utf8
  /-- UTF-8 with a byte order mark, which is dropped if it is there. -/
  | utf8Signed
  | latin1
  | ascii
deriving DecidableEq, Repr

namespace Encoding

def ofBytes (bytes : ByteArray) : Text := bytes.toList.map fun byte => Char.ofNat byte.toNat

def decode? (encoding : Encoding) (bytes : ByteArray) : Option Text :=
  match encoding with
  | .utf8 => (String.fromUTF8? bytes).map String.toList
  | .utf8Signed =>
      (String.fromUTF8? bytes).map fun text =>
        match text.toList with
        | '\ufeff' :: text => text
        | text => text
  | .latin1 => some (ofBytes bytes)
  | .ascii => if bytes.toList.all (· < 0x80) then some (ofBytes bytes) else none

end Encoding

/-- The file as text with its lines ended by line feeds; none if its bytes are no text. -/
def FileTree.readText (tree : FileTree) (encoding : Encoding) (path : Text) :
    Except FileError (Option Text) := do
  let bytes ← tree.read path
  return (encoding.decode? bytes).map Text.unifyNewlines

end Flatsheet
