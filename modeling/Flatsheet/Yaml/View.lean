import Flatsheet.Data.View
import Flatsheet.Yaml.Document

/-!
The view of the values of a YAML document.
-/

namespace Flatsheet.Yaml.Document

/-- The word for the kind of a value where its place is told with it. -/
def fullKindName (document : Document) : Value → Text
  | .timestamp point => if point.time.isSome then "datetime.datetime" else "datetime.date"
  | value => document.kindName value

/-- What a mapping holds under a name; none if the value is no mapping. -/
def field? (document : Document) (value : Value) : Option (Text → Option Value) :=
  (document.mapping? value).map fun entries name =>
    (entries.find? fun entry => entry.1 == .text (.ofText name)).map Prod.snd

/-- The items of a list or set, the keys of a mapping, the characters of a text or the bytes of
binary data. -/
def items? (document : Document) : Value → Option (List Value)
  | .collection id =>
      match document.collection id with
      | .list items => some items
      | .set items => some items
      | .mapping entries => some (entries.map Prod.fst)
  | .text content => some (content.map fun point => .text [point])
  | .bytes content => some (content.map fun byte => .int byte.toNat)
  | .pair key value => some [key, value]
  | _ => none

/-- The name of the field that a key makes. -/
def fieldName? : Value → Option Text
  | .text content => some content.toText
  | .null => some "null"
  | .bool true => some "true"
  | .bool false => some "false"
  | .int value => some (Text.ofInt value)
  | .float value => some (Decimal.showFloat value)
  | _ => none

/-- A value as plain data, its collections nested at most `fuel` deep. What data cannot hold becomes
null. -/
def toData (document : Document) : (fuel : Nat) → Value → Data
  | _, .null => .null
  | _, .bool value => .bool value
  | _, .int value => .int value
  | _, .float value => .float value
  | _, .text content => .text content.toText
  | _, .bytes _ => .null
  | _, .timestamp _ => .null
  | fuel, .pair key value => .list [toData document fuel key, toData document fuel value]
  | 0, .collection _ => .null
  | fuel + 1, .collection id =>
      match document.collection id with
      | .list items => .list (items.map (toData document fuel))
      | .set _ => .null
      | .mapping entries =>
          .record (entries.filterMap fun (key, value) =>
            (fieldName? key).map fun name => (name, toData document fuel value))

/-- How deep collections can be nested before one is in itself. -/
def depth (document : Document) : Nat := document.collections.size + 1

def view (document : Document) : View Value where
  kind := document.fullKindName
  field? := document.field?
  items? := document.items?
  toData := document.toData document.depth

end Flatsheet.Yaml.Document
