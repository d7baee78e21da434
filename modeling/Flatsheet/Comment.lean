import Flatsheet.Text.Pattern
import Flatsheet.Text.Block

/-!
Comments: blocks between `/*` and `*/`, which may be allowed to nest, and lines from `//` on. Quoted
literals have been lifted out before, so marks inside quotes do not count.
-/

namespace Flatsheet.Comment

/-- A block comment that ends at the first closing mark. One that nothing closes is no comment. -/
def block? : Pattern Unit := fun text => do
  let inside ← Text.dropPrefix? "/*" text
  let rest ← Text.afterFirst? "*/" inside
  return ((), rest)

/-- A block comment that ends where all blocks opened in it are closed, or else with the text. -/
def nestedBlock? : Pattern Unit := fun text =>
  if text.startsWith "/*" then
    match Block.size? "/*" "*/" text with
    | some size => some ((), text.drop size)
    | none => some ((), [])
  else none

/-- A comment up to the end of its line. -/
def line? : Pattern Unit := fun text => do
  let inside ← Text.dropPrefix? "//" text
  return ((), inside.dropWhile (· ≠ '\n'))

def stripNested (text : Text) : Text := nestedBlock?.erase text

/-- Removes block comments, then line comments. -/
def strip (nested : Bool) (text : Text) : Text :=
  line?.erase (if nested then stripNested text else block?.erase text)

end Flatsheet.Comment
