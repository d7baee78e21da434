import Flatsheet.Mixin.Include
import Flatsheet.Proofs.Separators
import Flatsheet.Proofs.Table

/-!
Where the names and the values of a binding come from, and where a bound name stands in a text.
-/

namespace Flatsheet

theorem Text.mem_of_mem_splitList {text item : Text} {c : Char} (listed : item ∈ text.splitList)
    (member : c ∈ item) : c ∈ text := by
  rw [splitList_eq] at listed
  obtain ⟨part, inside, rfl⟩ := List.mem_map.mp (List.mem_filter.mp listed).1
  have kept : c ∈ (splitWhere isListSeparator text).flatten :=
    List.mem_flatten.mpr ⟨part, inside, mem_of_mem_trim member⟩
  rw [flatten_splitWhere] at kept
  exact (List.mem_filter.mp kept).1

/-- An argument is an item of the list, or of a variable. -/
theorem Include.mem_argumentsOf {globals : Table Text} {list : Option Text} {argument : Text}
    (member : argument ∈ argumentsOf globals list) :
    argument ∈ (list.getD []).splitList ∨
      ∃ entry ∈ globals.entries, argument ∈ entry.2.splitList := by
  obtain ⟨item, inside, spreads⟩ := List.mem_flatMap.mp member
  unfold spread at spreads
  split at spreads
  · dsimp only at spreads
    cases found : globals.get? ((item.take (item.length - Parameter.spreadMark.length)).dropWhile
        (· = '$')) with
    | none =>
        rw [found] at spreads
        contradiction
    | some value =>
        rw [found] at spreads
        exact .inr ⟨_, Table.mem_of_get?_eq_some found, spreads⟩
  · obtain rfl : argument = item := by simpa using spreads
    exact .inl inside

namespace Binding

theorem firstGiven_cases (argument : Text) (default : Option Text) (previous : Text) :
    firstGiven argument default previous = argument ∨
      firstGiven argument default previous ∈ default ∨
      firstGiven argument default previous = previous := by
  unfold firstGiven
  split
  · exact .inl rfl
  · split
    · exact .inr (.inr rfl)
    · exact .inr (.inr rfl)
    · exact .inr (.inl rfl)

variable {binding : Binding} {holds : Text → Prop}

/-- A binding is extended by parameters, and by values that satisfy what arguments, defaults and the
value before them satisfy. -/
theorem mem_extend {previous : Text} {parameters : List Parameter} {arguments : List Text}
    {entry : Text × Text} (before : holds previous)
    (defaults : ∀ parameter ∈ parameters, ∀ value ∈ parameter.default, holds value)
    (argued : ∀ argument ∈ arguments, holds argument)
    (join : ∀ values, (∀ value ∈ values, holds value) → holds (Text.join ", " values))
    (member : entry ∈ (extend binding previous parameters arguments).entries) :
    entry ∈ binding.entries ∨
      (∃ parameter ∈ parameters, entry.1 = parameter.placeholder) ∧ holds entry.2 := by
  induction parameters generalizing binding previous arguments with
  | nil => exact .inl member
  | cons parameter parameters ih =>
      have argument : holds
          (if parameter.isSpread then Text.join ", " arguments else arguments.headD []) := by
        split
        · exact join arguments argued
        · cases arguments with
          | nil => exact join [] (by simp)
          | cons argument arguments => exact argued argument (by simp)
      have value : holds (firstGiven
          (if parameter.isSpread then Text.join ", " arguments else arguments.headD [])
          parameter.default previous) := by
        rcases firstGiven_cases _ parameter.default previous with same | given | same
        · rwa [same]
        · exact defaults parameter (by simp) _ given
        · rwa [same]
      rcases ih value (fun other listed => defaults other (by simp [listed]))
        (fun other listed => argued other (List.mem_of_mem_tail listed)) member with
          inside | ⟨⟨other, listed, name⟩, kept⟩
      · rcases Table.mem_insert inside with rfl | old
        · exact .inr ⟨⟨parameter, by simp, rfl⟩, value⟩
        · exact .inl old
      · exact .inr ⟨⟨other, by simp [listed], name⟩, kept⟩

theorem mem_ofArguments {parameters : List Parameter} {arguments : List Text}
    {entry : Text × Text} (initial : holds initialValue)
    (defaults : ∀ parameter ∈ parameters, ∀ value ∈ parameter.default, holds value)
    (argued : ∀ argument ∈ arguments, holds argument)
    (join : ∀ values, (∀ value ∈ values, holds value) → holds (Text.join ", " values))
    (member : entry ∈ (ofArguments parameters arguments).entries) :
    (∃ parameter ∈ parameters, entry.1 = parameter.placeholder) ∧ holds entry.2 :=
  (mem_extend initial defaults argued join member).resolve_left (by simp [Table.empty])

theorem longer_eq_some {best : Option (Text × Text)} {entry found : Text × Text}
    (same : longer best entry = some found) : best = some found ∨ entry = found := by
  unfold longer at same
  split at same
  · split at same
    · exact .inr (by simpa using same)
    · exact .inl same
  · exact .inr (by simpa using same)

theorem nameAt?_eq_some {text : Text} {entry : Text × Text}
    (found : binding.nameAt? text = some entry) :
    entry ∈ binding.entries ∧ standsAt text entry.1 = true := by
  suffices member : ∀ (entries : List (Text × Text)) best, entries.foldl longer best = some entry →
      best = some entry ∨ entry ∈ entries by
    rcases member _ _ found with start | inside
    · contradiction
    · exact List.mem_filter.mp inside
  intro entries
  induction entries with
  | nil =>
      intro best same
      exact .inl same
  | cons first entries ih =>
      intro best same
      rcases ih (longer best first) same with early | late
      · rcases longer_eq_some early with start | rfl
        · exact .inl start
        · exact .inr (by simp)
      · exact .inr (by simp [late])

theorem split_of_standsAt {text name : Text} (stands : standsAt text name = true) :
    ∃ rest, text = name ++ rest ∧ ∀ c ∈ rest.head?, isName c = false := by
  unfold standsAt at stands
  split at stands
  next c rest left =>
      exact ⟨c :: rest, Text.dropPrefix?_eq_some.mp left, by simpa using stands⟩
  next left => exact ⟨[], Text.dropPrefix?_eq_some.mp left, by simp⟩
  · contradiction

/-- Whether a word character comes before what follows the text. -/
def endsInWord (afterWord : Bool) (text : Text) : Bool := text.foldl (fun _ c => isWord c) afterWord

theorem applyFrom_covered (binding : Binding) (afterWord : Bool) (covered rest : Text) :
    binding.applyFrom afterWord covered.length (covered ++ rest) =
      binding.applyFrom (endsInWord afterWord covered) 0 rest := by
  induction covered generalizing afterWord with
  | nil => rfl
  | cons c covered ih => exact ih (isWord c)

end Binding

end Flatsheet
