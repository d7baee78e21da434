import Flatsheet.Decimal.Written
import Flatsheet.Yaml.Binary
import Flatsheet.Yaml.Node
import Flatsheet.Yaml.Number

/-!
The values of a YAML document. A collection is known by its node, so that one that occurs in several
places, or in itself, is one value.
-/

namespace Flatsheet.Yaml

inductive Value where
  | null
  | bool (value : Bool)
  | int (value : Int)
  | float (value : Float)
  | text (content : Content)
  | bytes (content : List UInt8)
  | timestamp (value : Timestamp)
  /-- The entry of an ordered mapping. -/
  | pair (key value : Value)
  | collection (id : NodeId)
deriving Repr, BEq, Inhabited

namespace Value

def ofTimestamp (content : Content) : Except Error Value :=
  match content.text? >>= fun text => Timestamp.ofText? (NodeKind.lookOf text) with
  | none => .error .notTimestamp
  | some point =>
      match point.check with
      | .ok () => .ok (.timestamp point)
      | .error error => .error (.timestamp error)

def ofTruth (content : Content) : Except Error Value :=
  let word := content.lower
  if (ScalarKind.trueTexts.map Content.ofText).contains word then .ok (.bool true)
  else if (ScalarKind.falseTexts.map Content.ofText).contains word then .ok (.bool false)
  else .error (.truth word)

/-- The value of a scalar. Neither a merge key nor the key `=` has a value of its own. -/
def ofScalar (kind : ScalarKind) (content : Content) : Except Error Value :=
  match kind with
  | .null => .ok .null
  | .bool => ofTruth content
  | .int => (Number.int content).map .int
  | .float => (Number.float content).map .float
  | .timestamp => ofTimestamp content
  | .string => .ok (.text content)
  | .merge | .value => .error .malformed

def ofBinary (content : Content) : Except Error Value :=
  match content.text? >>= Binary.decode? with
  | some decoded => .ok (.bytes decoded)
  | none => .error .malformed

/-- Whether the value can be a key. -/
def isKey : Value → Bool
  | .collection _ => false
  | _ => true

def showByte (quote : Char) (byte : UInt8) : Text :=
  if byte < 0x80 then Text.displayChar quote (Char.ofNat byte.toNat)
  else '\\' :: 'x' :: Text.hex 2 byte.toNat

/-- A key as messages show it. -/
def shown : Value → Except Error Text
  | .null => .ok "None"
  | .bool true => .ok "True"
  | .bool false => .ok "False"
  | .int value =>
      let digits := Text.ofInt value
      if digitLimit < (Text.ofNat value.natAbs).length then .error .shownSize else .ok digits
  | .float value => .ok (Decimal.showFloat value)
  | .text content => .ok content.displayed
  | .bytes content =>
      let quote := Text.displayQuote (content.map fun byte => Char.ofNat byte.toNat)
      .ok ('b' :: quote :: content.flatMap (showByte quote) ++ [quote])
  | .timestamp value => .ok value.shown
  | .pair _ _ | .collection _ => .ok []

end Value

end Flatsheet.Yaml
