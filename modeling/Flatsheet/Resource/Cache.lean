import Flatsheet.Text.Basic

/-!
The cache of resources: the identifiers that have been claimed. Each identifier is claimed once, and
only whoever claims it first loads it; this also breaks circles of imports.
-/

namespace Flatsheet

structure Cache where
  /-- The claimed identifiers, the latest first. -/
  claimed : List Text
deriving DecidableEq, Repr, Inhabited

namespace Cache

def empty : Cache := ⟨[]⟩

def contains (cache : Cache) (identifier : Text) : Bool := cache.claimed.contains identifier

/-- Claims an identifier. The answer is whether it was free. -/
def claim (cache : Cache) (identifier : Text) : Bool × Cache :=
  if cache.contains identifier then (false, cache) else (true, ⟨identifier :: cache.claimed⟩)

def ofList (identifiers : List Text) : Cache :=
  identifiers.foldl (fun cache identifier => (cache.claim identifier).2) empty

def size (cache : Cache) : Nat := cache.claimed.length

end Cache

end Flatsheet
