import Mathlib.Data.List.Basic
import Flatsheet.Table

/-!
What holds of every value of a table, and what an insertion leaves of that.
-/

namespace Flatsheet.Table

universe u

variable {α : Type u} {table : Table α} {name : Text} {value : α}

def All (property : α → Prop) (table : Table α) : Prop :=
  ∀ entry ∈ table.entries, property entry.2

instance (property : α → Prop) [DecidablePred property] (table : Table α) :
    Decidable (table.All property) :=
  List.decidableBAll _ table.entries

theorem mem_put {entry : Text × α} {entries : List (Text × α)}
    (member : entry ∈ put name value entries) : entry = (name, value) ∨ entry ∈ entries := by
  induction entries with
  | nil => simpa [put] using member
  | cons first entries ih =>
      rw [put] at member
      split at member
      · rcases List.mem_cons.mp member with same | later
        · exact .inl same
        · exact .inr (by simp [later])
      · rcases List.mem_cons.mp member with same | later
        · exact .inr (by simp [same])
        · rcases ih later with same | inside
          · exact .inl same
          · exact .inr (by simp [inside])

theorem mem_insert {entry : Text × α} (member : entry ∈ (table.insert name value).entries) :
    entry = (name, value) ∨ entry ∈ table.entries :=
  mem_put member

theorem mem_of_get?_eq_some (found : table.get? name = some value) :
    (name, value) ∈ table.entries := by
  obtain ⟨⟨key, content⟩, read, rfl⟩ := Option.map_eq_some_iff.mp found
  obtain rfl : key = name := by simpa using List.find?_some read
  exact List.mem_of_find?_eq_some read

theorem get?_insert (table : Table α) (name : Text) (value : α) (other : Text) :
    (table.insert name value).get? other =
      if name = other then some value else table.get? other := by
  obtain ⟨entries⟩ := table
  simp only [insert, get?]
  induction entries with
  | nil => by_cases same : name = other <;> simp [put, same]
  | cons entry entries ih =>
      rw [put]
      split
      next here => by_cases same : name = other <;> simp [here, same]
      next elsewhere =>
          by_cases found : entry.1 = other
          · have apart : name ≠ other := fun same => elsewhere (found.trans same.symm)
            simp [found, apart]
          · simpa [found] using ih

theorem contains_iff : table.contains name = true ↔ name ∈ table.names := by
  rw [contains, get?, Option.isSome_map, List.find?_isSome]
  simp [names]

theorem mem_names_insert {other : Text} :
    other ∈ (table.insert name value).names ↔ other ∈ table.names ∨ other = name := by
  rw [← contains_iff, ← contains_iff, contains, contains, get?_insert]
  by_cases same : name = other
  · simp [same]
  · simp [same, Ne.symm same]

/-- A name that the table does not hold goes to the end. -/
theorem insert_of_get?_eq_none (free : table.get? name = none) :
    (table.insert name value).entries = table.entries ++ [(name, value)] := by
  obtain ⟨entries⟩ := table
  simp only [get?, Option.map_eq_none_iff, List.find?_eq_none, decide_eq_true_eq] at free
  simp only [insert]
  induction entries with
  | nil => rfl
  | cons first entries ih =>
      have other : first.1 ≠ name := free first (by simp)
      rw [put, if_neg other, ih fun entry member => free entry (by simp [member])]
      rfl

namespace All

variable {property property' : α → Prop}

theorem empty : (Table.empty : Table α).All property := by
  intro entry member
  simp [Table.empty] at member

theorem insert (all : table.All property) (holds : property value) :
    (table.insert name value).All property := by
  intro entry member
  rcases mem_insert member with rfl | inside
  · exact holds
  · exact all entry inside

theorem get? (all : table.All property) (found : table.get? name = some value) :
    property value :=
  all _ (mem_of_get?_eq_some found)

theorem mono (all : table.All property) (implies : ∀ value, property value → property' value) :
    table.All property' := fun entry member => implies entry.2 (all entry member)

end All

end Flatsheet.Table
