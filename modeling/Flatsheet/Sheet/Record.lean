import Flatsheet.Data.Json
import Flatsheet.Sheet.Rule
import Flatsheet.Yaml.Reading
import Flatsheet.Yaml.View
import Flatsheet.Yaml.Writer

/-!
Rule trees as records, written to JSON and YAML and read back. The fields of a record come in the
order of their names. A record may hold other things where a rule has texts; such a record is no
rule, but it can still be completed to one that has all the fields of a rule.
-/

namespace Flatsheet

namespace Selector

def toData (selector : Selector) : Data :=
  .record [("media", .text selector.media), ("text", .text selector.text)]

/-- A field of text, empty if there is none. -/
def textField? (data : Data) (name : Text) : Option Text :=
  match data.field? name with
  | none => some []
  | some value => value.text?

/-- The selector that a record describes. -/
def ofData? (data : Data) : Option Selector := do
  match data with
  | .record _ => return ⟨← textField? data "text", ← textField? data "media"⟩
  | _ => none

/-- The record of a selector with its fields filled in. -/
def complete {α : Type} (view : View α) (value : α) : Except ShapeError Data := do
  let field? ← view.fields value
  return .record [("media", view.textField (field? "media")),
    ("text", view.textField (field? "text"))]

end Selector

namespace Rule

mutual

def toData : Rule → Data
  | ⟨selectors, declarations, children⟩ =>
      .record [("children", .list (toDataAll children)),
        ("declarations", .list (declarations.map .text)),
        ("selectors", .list (selectors.map Selector.toData))]

def toDataAll : List Rule → List Data
  | [] => []
  | rule :: rules => toData rule :: toDataAll rules

end

mutual

/-- The rule that a record describes. A missing field is an empty list, and unknown fields do not
matter. -/
def ofData? : Data → Option Rule
  | .record fields => withFields? ⟨[], [], []⟩ fields
  | _ => none

/-- The rule with the fields of a record put in. -/
def withFields? : Rule → List (Text × Data) → Option Rule
  | rule, [] => some rule
  | rule, (name, value) :: fields => do
      let rule ←
        if name = "children".toList then
          match value with
          | .list elements => (ofDataAll? elements).map fun children => { rule with children }
          | _ => none
        else if name = "declarations".toList then do
          let declarations ← value.list? >>= List.mapM Data.text?
          pure { rule with declarations }
        else if name = "selectors".toList then do
          let selectors ← value.list? >>= List.mapM Selector.ofData?
          pure { rule with selectors }
        else pure rule
      withFields? rule fields

def ofDataAll? : List Data → Option (List Rule)
  | [] => some []
  | data :: rest => do return (← ofData? data) :: (← ofDataAll? rest)

end

/-- The record of a rule with the fields of it and of the rules inside it filled in, these nested at
most `fuel` deep. What the lists hold beside rules and selectors is taken as it is. -/
def complete {α : Type} (view : View α) : (fuel : Nat) → α → Except ShapeError Data
  | 0, value => .error (.notRecord (view.kind value))
  | fuel + 1, value => do
      let field? ← view.fields value
      let selectors ← (← view.items (field? "selectors")).mapM (Selector.complete view)
      let declarations ← view.items (field? "declarations")
      let children ← (← view.items (field? "children")).mapM (complete view fuel)
      return .record [("children", .list children),
        ("declarations", .list (declarations.map view.toData)), ("selectors", .list selectors)]

/-- Why a document does not describe a rule. -/
inductive ReadError where
  | json (error : Json.Error)
  | yaml (error : Yaml.Error)
  | shape (error : ShapeError)
deriving DecidableEq, Repr

/-- The completed record of what a record describes. -/
def completeData (data : Data) : Except ShapeError Data :=
  match ofData? data with
  | some rule => .ok rule.toData
  | none => complete Data.view data.depth data

def toJson (rule : Rule) : Text := Json.write rule.toData

def ofJson? (text : Text) : Option Rule :=
  match Json.read text with
  | .ok data => ofData? data
  | .error _ => none

/-- The completed record of what a JSON document describes. -/
def completeJson (text : Text) : Except ReadError Data := do
  let data ← (Json.read text).mapError .json
  (completeData data).mapError .shape

def toYaml (rule : Rule) : Text := Yaml.write rule.toData

/-- The completed record of what a YAML document describes. -/
def completeYaml (text : Text) : Except ReadError Data := do
  let document ← (Yaml.Document.ofText text).mapError .yaml
  (complete document.view document.depth document.root).mapError .shape

/-- The rule that a YAML document describes; none if it describes something else. -/
def ofYaml? (text : Text) : Option Rule :=
  match completeYaml text with
  | .ok data => ofData? data
  | .error _ => none

end Rule

end Flatsheet
