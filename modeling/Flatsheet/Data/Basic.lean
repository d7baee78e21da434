import Flatsheet.Options

/-!
Plain data: what a snapshot is made of and what a data document holds.
-/

namespace Flatsheet

inductive Data where
  | null
  | bool (value : Bool)
  | int (value : Int)
  | float (value : Float)
  | text (content : Text)
  | list (elements : List Data)
  /-- Fields by name. Of two fields with one name the last counts. -/
  | record (fields : List (Text × Data))
deriving Repr, Inhabited

namespace Data

/-- The field of a record; none if the data is no record or has no such field. -/
def field? (data : Data) (name : Text) : Option Data :=
  match data with
  | .record fields => (fields.reverse.find? fun field => field.1 = name).map Prod.snd
  | _ => none

mutual

/-- How deep lists and records are nested; one for a plain value. -/
def depth : Data → Nat
  | .list elements => elementsDepth elements + 1
  | .record fields => fieldsDepth fields + 1
  | _ => 1

def elementsDepth : List Data → Nat
  | [] => 0
  | element :: elements => max (depth element) (elementsDepth elements)

def fieldsDepth : List (Text × Data) → Nat
  | [] => 0
  | (_, value) :: fields => max (depth value) (fieldsDepth fields)

end

def text? : Data → Option Text
  | .text content => some content
  | _ => none

def list? : Data → Option (List Data)
  | .list elements => some elements
  | _ => none

/-- Whether the data counts as true: a number other than zero, a text, list or record that is not
empty. -/
def isTruthy : Data → Bool
  | .null => false
  | .bool value => value
  | .int value => value ≠ 0
  | .float value => value != 0.0
  | .text content => content ≠ []
  | .list elements => !elements.isEmpty
  | .record fields => !fields.isEmpty

/-- What a flag is set to by this data. -/
def setting : Data → Options.Setting
  | .null => .bare
  | .text content => .text content
  | data => .truth data.isTruthy

/-- The entry of an options mapping that a text key and its value make. -/
def optionEntry (key : Text) (value : Data) : Options.Entry := ⟨key, key.displayed, value.setting⟩

end Data

end Flatsheet
