import Flatsheet.Yaml.Value

/-!
What a YAML document holds: the value at its root, and the collections that values refer to.
-/

namespace Flatsheet.Yaml

inductive Collection where
  | list (items : List Value)
  | set (items : List Value)
  /-- Entries in the order in which their keys first came in. -/
  | mapping (entries : List (Value × Value))
deriving Repr, BEq, Inhabited

namespace Collection

def empty : Collection := .list []

def isEmpty : Collection → Bool
  | .list items => items.isEmpty
  | .set items => items.isEmpty
  | .mapping entries => entries.isEmpty

/-- Puts an entry in its place, or at the end if its key is new. -/
def put (key value : Value) : List (Value × Value) → List (Value × Value)
  | [] => [(key, value)]
  | entry :: entries =>
      if entry.1 == key then (entry.1, value) :: entries else entry :: put key value entries

/-- Entries by key, of which the last under a key counts. -/
def byKey (entries : List (Value × Value)) : List (Value × Value) :=
  entries.foldl (fun entries (key, value) => put key value entries) []

end Collection

structure Document where
  root : Value
  collections : Array Collection

namespace Document

def collection (document : Document) (id : NodeId) : Collection :=
  document.collections.getD id .empty

/-- The entries of a mapping. -/
def mapping? (document : Document) : Value → Option (List (Value × Value))
  | .collection id =>
      match document.collection id with
      | .mapping entries => some entries
      | _ => none
  | _ => none

/-- The word for a kind of value in messages. -/
def kindName (document : Document) : Value → Text
  | .null => "NoneType"
  | .bool _ => "bool"
  | .int _ => "int"
  | .float _ => "float"
  | .text _ => "str"
  | .bytes _ => "bytes"
  | .timestamp point => if point.time.isSome then "datetime" else "date"
  | .pair _ _ => "tuple"
  | .collection id =>
      match document.collection id with
      | .list _ => "list"
      | .set _ => "set"
      | .mapping _ => "dict"

def isTruthy (document : Document) : Value → Bool
  | .null => false
  | .bool value => value
  | .int value => value ≠ 0
  | .float value => value != 0.0
  | .text content => content ≠ []
  | .bytes content => !content.isEmpty
  | .timestamp _ => true
  | .pair _ _ => true
  | .collection id => !(document.collection id).isEmpty

end Document

end Flatsheet.Yaml
