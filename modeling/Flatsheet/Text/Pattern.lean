import Flatsheet.Text.Word
import Flatsheet.Text.Basic

/-!
Patterns and replacement. A pattern looks at a text and says whether it starts with a match, what
the match means and what follows it. Cutting a text by a pattern lists its characters and its
matches from left to right, the matches disjoint and each as far left as possible; a replacement
changes the matches and keeps the other characters.
-/

namespace Flatsheet

universe u v

/-- What the text starts with, and the rest of the text. -/
abbrev Pattern (α : Type u) := Text → Option (α × Text)

/-- A character outside every match, or a match with the text it covers. -/
inductive Piece (α : Type u) where
  | char (c : Char)
  | hit (value : α) (source : Text)

def Piece.source {α : Type u} : Piece α → Text
  | .char c => [c]
  | .hit _ source => source

namespace Text

/-- The longest start of the text whose characters satisfy `p`, which is not empty. -/
def run? (p : Char → Bool) : Pattern Text := fun text =>
  match text.takeWhile p with
  | [] => none
  | run => some (run, text.dropWhile p)

/-- At least one blank, all of them skipped. -/
def skipBlanks? (text : Text) : Option Text := (run? isBlank text).map Prod.snd

/-- What stands before the first `mark`, and what follows that mark. -/
def until? (mark : Char) : Pattern Text := fun text =>
  match partition mark text with
  | (_, none) => none
  | (before, some after) => some (before, after)

end Text

namespace Pattern

variable {α : Type u}

/-- Cuts after `skip` characters that an earlier match has covered. A match covers at least one
character. -/
def cutFrom (pattern : Pattern α) : (skip : Nat) → Text → List (Piece α)
  | _, [] => []
  | skip + 1, _ :: text => cutFrom pattern skip text
  | 0, c :: text =>
      match pattern (c :: text) with
      | none => .char c :: cutFrom pattern 0 text
      | some (value, rest) =>
          let size := (c :: text).length - rest.length
          .hit value ((c :: text).take size) :: cutFrom pattern (size - 1) text

def cut (pattern : Pattern α) (text : Text) : List (Piece α) := cutFrom pattern 0 text

/-- Replaces the matches among the pieces. The replacement is given the line of the match, where
`line` is the line of the first piece. -/
def replacePieces {m : Type → Type v} [Monad m] (replace : Nat → α → Text → m Text) :
    (line : Nat) → List (Piece α) → m Text
  | _, [] => pure []
  | line, .char c :: pieces => do
      return c :: (← replacePieces replace (line + Text.newlines [c]) pieces)
  | line, .hit value source :: pieces => do
      let replacement ← replace line value source
      return replacement ++ (← replacePieces replace (line + Text.newlines source) pieces)

/-- Replaces every match, from left to right. The replacement is given the line on which the match
starts, its meaning and its text. -/
def replaceM {m : Type → Type v} [Monad m] (pattern : Pattern α)
    (replace : Nat → α → Text → m Text) (text : Text) : m Text :=
  replacePieces replace 1 (pattern.cut text)

/-- Like `replacePieces`, with lines counted in the text as it stands after the replacements made
so far. -/
def splicePieces {m : Type → Type v} [Monad m] (replace : Nat → α → m Text) :
    (line : Nat) → List (Piece α) → m Text
  | _, [] => pure []
  | line, .char c :: pieces => do
      return c :: (← splicePieces replace (line + Text.newlines [c]) pieces)
  | line, .hit value _ :: pieces => do
      let replacement ← replace line value
      return replacement ++ (← splicePieces replace (line + Text.newlines replacement) pieces)

/-- Replaces every match, from left to right. The replacement is given the line that the match has
once the matches before it are replaced. -/
def spliceM {m : Type → Type v} [Monad m] (pattern : Pattern α)
    (replace : Nat → α → m Text) (text : Text) : m Text :=
  splicePieces replace 1 (pattern.cut text)

/-- Replaces every match by a text that depends on its meaning alone. -/
def replace (pattern : Pattern α) (replacement : α → Text) (text : Text) : Text :=
  (pattern.cut text).flatMap fun
    | .char c => [c]
    | .hit value _ => replacement value

/-- Removes every match. -/
def erase (pattern : Pattern α) (text : Text) : Text := pattern.replace (fun _ => []) text

/-- What stands before, between and after the matches among the pieces. -/
def partsOf : List (Piece α) → List Text
  | [] => [[]]
  | .char c :: pieces => (partsOf pieces).modifyHead (c :: ·)
  | .hit _ _ :: pieces => [] :: partsOf pieces

/-- Cuts the text at every match. The matches are dropped, and there is one part more than there
are matches. -/
def split (pattern : Pattern α) (text : Text) : List Text := partsOf (pattern.cut text)

end Pattern

namespace Text

/-- Every occurrence of `old` replaced, from left to right. The empty text occurs before every
character and at the end. -/
def replaceAll (text old new : Text) : Text :=
  match old with
  | [] => new ++ text.flatMap (· :: new)
  | _ => Pattern.replace (fun text => (dropPrefix? old text).map ((), ·)) (fun _ => new) text

end Text

end Flatsheet
