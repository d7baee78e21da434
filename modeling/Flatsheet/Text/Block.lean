import Flatsheet.Text.Basic

/-!
Balanced blocks. A block starts at an opener and ends with the closer that brings the depth back to
zero; both may be longer than one character.
-/

namespace Flatsheet.Block

/-- Walks along the views of a text, each one what the text reads from the next position on, and
returns the position after the closer that ends the block. Positions inside a delimiter are
skipped. -/
def scan (opener closer : Text) : (skip : Nat) → (depth : Int) → (position : Nat) → List Text →
    Option Nat
  | _, _, _, [] => none
  | skip + 1, depth, position, _ :: views => scan opener closer skip depth (position + 1) views
  | 0, depth, position, view :: views =>
      if view.startsWith opener then
        scan opener closer (opener.length - 1) (depth + 1) (position + 1) views
      else if view.startsWith closer then
        if depth = 1 then some (position + closer.length)
        else scan opener closer (closer.length - 1) (depth - 1) (position + 1) views
      else scan opener closer 0 depth (position + 1) views

/-- The text from each of its positions on. -/
def suffixes : Text → List Text
  | [] => []
  | c :: text => (c :: text) :: suffixes text

/-- The views of a text from `start` on. A position below zero counts from the end of the text, or
is its beginning if that lies further back. -/
def viewsFrom (text : Text) (start : Int) : List Text :=
  (List.range (-start).toNat).map (fun (i : Nat) => text.drop (text.length + start + i).toNat) ++
    suffixes (text.drop start.toNat)

/-- The position after the block that starts at `start`, or -1 when nothing closes it. -/
def endFrom (opener closer text : Text) (start : Int) : Int :=
  match scan opener closer 0 0 0 (viewsFrom text start) with
  | some size => start + size
  | none => -1

/-- How many characters the block covers with which the text starts. -/
def size? (opener closer text : Text) : Option Nat := scan opener closer 0 0 0 (suffixes text)

/-- The body of a block whose opening brace has just been read, and what follows the block. A block
that nothing closes takes the rest of the text. -/
def body (text : Text) : Text × Text :=
  match size? ['{'] ['}'] ('{' :: text) with
  | some size => (text.take (size - 2), text.drop (size - 1))
  | none => (text, [])

end Flatsheet.Block
