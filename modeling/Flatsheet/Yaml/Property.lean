import Flatsheet.Yaml.Cursor

/-!
Anchors, aliases, tags and directives.
-/

namespace Flatsheet.Yaml

/-- The tag of a node: a suffix, in the name space of a handle if one is given. -/
structure Tag where
  handle : Option Text
  suffix : Text
deriving DecidableEq, Repr

inductive Directive where
  | version (major minor : Nat)
  /-- The name space that a handle stands for. -/
  | handle (name space : Text)
  | other
deriving DecidableEq, Repr

namespace Property

/-- The characters that may follow the name of an anchor. -/
def endsAnchor : Text → Bool
  | [] => true
  | c :: _ => isGap c || "?:,]\x7d%@`".toList.contains c

/-- Reads the name of an anchor or alias, after its mark. -/
def readAnchor? (cursor : Cursor) : Option (Text × Cursor) :=
  let (name, next) := cursor.step.takeWhile isNameChar
  if name ≠ [] ∧ endsAnchor next.rest then some (name, next) else none

def isUriChar (c : Char) : Bool :=
  c.isAlphanum || "-;/?:@&=+$,_.!~*'()[]".toList.contains c

/-- The bytes that a row of percent escapes writes. -/
def readEscapedBytes? : (fuel : Nat) → Cursor → Option (List UInt8 × Cursor)
  | 0, cursor => some ([], cursor)
  | fuel + 1, cursor =>
      match cursor.rest with
      | '%' :: a :: b :: _ =>
          if isHexDigit a && isHexDigit b then do
            let (bytes, last) ← readEscapedBytes? fuel (cursor.advance 3)
            return (UInt8.ofNat (hexNumber [a, b]) :: bytes, last)
          else none
      | '%' :: _ => none
      | _ => some ([], cursor)

/-- Reads the characters of a tag, with percent escapes decoded. -/
def readUriFrom? : (fuel : Nat) → Cursor → Option (Text × Cursor)
  | 0, cursor => some ([], cursor)
  | fuel + 1, cursor =>
      match cursor.rest with
      | '%' :: _ => do
          let (bytes, next) ← readEscapedBytes? cursor.rest.length cursor
          let text ← String.fromUTF8? (ByteArray.mk bytes.toArray)
          let (uri, last) ← readUriFrom? fuel next
          return (text.toList ++ uri, last)
      | c :: _ =>
          if isUriChar c then do
            let (uri, last) ← readUriFrom? fuel cursor.step
            return (c :: uri, last)
          else some ([], cursor)
      | [] => some ([], cursor)

/-- Reads the characters of a tag; there must be some. -/
def readUri? (cursor : Cursor) : Option (Text × Cursor) := do
  let (uri, next) ← readUriFrom? (cursor.rest.length + 1) cursor
  if next.index = cursor.index then none else return (uri, next)

/-- Reads a handle: an exclamation mark alone before a space, or a name between two of them. -/
def readHandle? (cursor : Cursor) : Option (Text × Cursor) :=
  match cursor.rest with
  | '!' :: ' ' :: _ => some (['!'], cursor.step)
  | '!' :: _ =>
      let (name, next) := cursor.step.takeWhile isNameChar
      if next.peek? = some '!' then some ('!' :: name ++ ['!'], next.step) else none
  | _ => none

/-- Whether a second exclamation mark stands in the word after the first. -/
def hasHandle (word : Text) : Bool := (word.takeWhile fun c => c != ' ' && !isBreak c).contains '!'

def readTag? (cursor : Cursor) : Option (Tag × Cursor) := do
  let (tag, next) ←
    match cursor.rest.drop 1 with
    | '<' :: _ => do
        let (suffix, next) ← readUri? (cursor.advance 2)
        if next.peek? = some '>' then pure (⟨none, suffix⟩, next.step) else none
    | word =>
        if isGapAt word then pure (⟨none, ['!']⟩, cursor.step)
        else do
          let (handle, next) ←
            if hasHandle word then readHandle? cursor else pure (['!'], cursor.step)
          let (suffix, next) ← readUri? next
          pure ((⟨some handle, suffix⟩ : Tag), next)
  if isSpaceAt next.rest then return (tag, next) else none

def decimalOf (digits : Text) : Nat :=
  digits.foldl (fun value digit => 10 * value + (digit.toNat - 48)) 0

/-- Reads a number of at least one digit. -/
def readNumber? (cursor : Cursor) : Option (Nat × Cursor) :=
  let (digits, next) := cursor.takeWhile Char.isDigit
  if digits = [] then none else some (decimalOf digits, next)

def readVersion? (cursor : Cursor) : Option (Directive × Cursor) := do
  let (major, next) ← readNumber? cursor.skipSpaces
  if next.peek? ≠ some '.' then none
  let (minor, next) ← readNumber? next.step
  if isSpaceAt next.rest then return (.version major minor, next) else none

def readHandleDirective? (cursor : Cursor) : Option (Directive × Cursor) := do
  let (handle, next) ← readHandle? cursor.skipSpaces
  if next.peek? ≠ some ' ' then none
  let (space, next) ← readUri? next.skipSpaces
  if isSpaceAt next.rest then return (.handle handle space, next) else none

/-- Reads a directive line. -/
def readDirective? (cursor : Cursor) : Option (Directive × Cursor) := do
  let (name, next) := cursor.step.takeWhile isNameChar
  if name = [] ∨ !isSpaceAt next.rest then none
  let (directive, next) ←
    if name = "YAML".toList then readVersion? next
    else if name = "TAG".toList then readHandleDirective? next
    else pure (.other, next.skipLine)
  return (directive, ← next.finishLine?)

end Property

end Flatsheet.Yaml
