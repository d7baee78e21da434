import Flatsheet.Text.Basic

/-!
Tables: values under distinct names, in the order in which the names first came in. Overwriting a
value keeps its place.
-/

namespace Flatsheet

universe u

structure Table (α : Type u) where
  entries : List (Text × α)

namespace Table

variable {α : Type u}

def empty : Table α := ⟨[]⟩

instance : Inhabited (Table α) := ⟨empty⟩

def get? (table : Table α) (name : Text) : Option α :=
  (table.entries.find? fun entry => entry.1 = name).map Prod.snd

def contains (table : Table α) (name : Text) : Bool := (table.get? name).isSome

/-- Puts an entry in its place, or at the end if its name is new. -/
def put (name : Text) (value : α) : List (Text × α) → List (Text × α)
  | [] => [(name, value)]
  | entry :: entries =>
      if entry.1 = name then (name, value) :: entries else entry :: put name value entries

def insert (table : Table α) (name : Text) (value : α) : Table α :=
  ⟨put name value table.entries⟩

def ofList (entries : List (Text × α)) : Table α :=
  entries.foldl (fun table entry => table.insert entry.1 entry.2) empty

def names (table : Table α) : List Text := table.entries.map Prod.fst

def size (table : Table α) : Nat := table.entries.length

end Table

end Flatsheet
