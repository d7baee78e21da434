import Flatsheet.Data.Basic

/-!
A view of values: what can be told of a value without knowing in which format it was written.
-/

namespace Flatsheet

structure View (α : Type) where
  /-- The word for the kind of a value in messages. -/
  kind : α → Text
  /-- What a record holds under a name; none if the value is no record. -/
  field? : α → Option (Text → Option α)
  /-- What a walk over the value meets; none if there is nothing to walk over. -/
  items? : α → Option (List α)
  toData : α → Data

/-- A value that is not what it has to be. -/
inductive ShapeError where
  /-- A value of this kind stands in the place of a record. -/
  | notRecord (kind : Text)
  /-- A value of this kind stands in the place of a list. -/
  | notList (kind : Text)
deriving DecidableEq, Repr

def ShapeError.message : ShapeError → Text
  | .notRecord kind => '\'' :: kind ++ "' object has no attribute 'get'".toList
  | .notList kind => '\'' :: kind ++ "' object is not iterable".toList

namespace View

variable {α : Type}

/-- The fields of a record by name. -/
def fields (view : View α) (value : α) : Except ShapeError (Text → Option α) :=
  match view.field? value with
  | some field? => .ok field?
  | none => .error (.notRecord (view.kind value))

/-- The items of a list. A missing list has none. -/
def items (view : View α) (list : Option α) : Except ShapeError (List α) :=
  match list with
  | none => .ok []
  | some value =>
      match view.items? value with
      | some items => .ok items
      | none => .error (.notList (view.kind value))

/-- A field of text. A missing one is empty. -/
def textField (view : View α) (text : Option α) : Data :=
  match text with
  | none => .text []
  | some value => view.toData value

end View

namespace Data

def kindName : Data → Text
  | .null => "NoneType"
  | .bool _ => "bool"
  | .int _ => "int"
  | .float _ => "float"
  | .text _ => "str"
  | .list _ => "list"
  | .record _ => "dict"

/-- The elements of a list, the characters of a text or the names of a record. -/
def items? : Data → Option (List Data)
  | .list elements => some elements
  | .text content => some (content.map fun c => .text [c])
  | .record fields => some ((fields.map Prod.fst).eraseDups.map .text)
  | _ => none

def view : View Data where
  kind := kindName
  field? data :=
    match data with
    | .record _ => some data.field?
    | _ => none
  items? := items?
  toData data := data

end Data

end Flatsheet
