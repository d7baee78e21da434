import Flatsheet.Text.Basic

/-!
The order of texts by code point, and sorting by it.
-/

namespace Flatsheet.Text

/-- Whether the first text does not come after the second. -/
def precedes : Text → Text → Bool
  | [], _ => true
  | _ :: _, [] => false
  | c :: first, d :: second => c < d || (c == d && precedes first second)

universe u

/-- Puts an entry before the first one that does not come before it. -/
def insertSorted {α : Type u} (entry : Text × α) : List (Text × α) → List (Text × α)
  | [] => [entry]
  | other :: entries =>
      if precedes entry.1 other.1 then entry :: other :: entries
      else other :: insertSorted entry entries

/-- The entries in the order of their names. -/
def sortEntries {α : Type u} (entries : List (Text × α)) : List (Text × α) :=
  entries.foldr insertSorted []

def sort (texts : List Text) : List Text :=
  (sortEntries (texts.map fun text => (text, ()))).map Prod.fst

end Flatsheet.Text
