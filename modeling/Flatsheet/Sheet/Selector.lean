import Flatsheet.Text.Listing
import Flatsheet.Text.Pattern

/-!
Selectors with the media condition under which they hold. The two are kept apart, so that an
`@media` block inside a rule adds a condition and no descendant.
-/

namespace Flatsheet

structure Selector where
  /-- Empty for the root of the sheet. -/
  text : Text
  /-- The condition without the keyword `@media`; empty if there is none. -/
  media : Text
deriving DecidableEq, Repr, Inhabited

namespace Selector

def mediaKeyword : Text := "@media"

/-- What follows the keyword of a media query. -/
def mediaCondition? (fragment : Text) : Option Text :=
  match Text.dropPrefix? mediaKeyword fragment with
  | some (c :: rest) => if isWord c then none else some (c :: rest)
  | condition => condition

def isMediaQuery (fragment : Text) : Bool := (mediaCondition? fragment).isSome

/-- The media condition of a block inside another: both hold. -/
def joinMedia (outer inner : Text) : Text :=
  if outer = [] then inner else outer ++ " and ".toList ++ inner

/-- The parent in place of every `&`, or else in front. -/
def nestText (parent fragment : Text) : Text :=
  let nested : Text :=
    if '&' ∈ fragment then fragment.flatMap fun c => if c = '&' then parent else [c]
    else parent ++ ' ' :: fragment
  nested.trim

/-- One fragment of the selectors of a block, inside a block whose selector is `parent`. -/
def combine (parent : Selector) (fragment : Text) : Selector :=
  match mediaCondition? fragment with
  | some condition => ⟨parent.text, joinMedia parent.media condition.trim⟩
  | none => ⟨nestText parent.text fragment, parent.media⟩

/-- The selectors of a block: each fragment of its heading combined with each enclosing selector. -/
def nest (enclosing : List Selector) (heading : Text) : List Selector :=
  heading.splitTopLevel.flatMap fun fragment => enclosing.map (combine · fragment)

def render (selector : Selector) : Text :=
  if selector.media = [] then selector.text
  else if selector.text = [] then "@media ".toList ++ selector.media
  else "@media ".toList ++ selector.media ++ " \x7b ".toList ++ selector.text ++ " \x7d".toList

end Selector

end Flatsheet
