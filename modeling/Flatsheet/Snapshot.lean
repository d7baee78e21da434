import Flatsheet.Conversion.Pipeline
import Flatsheet.Data.Basic
import Flatsheet.Text.Order
import Flatsheet.Yaml.Writer

/-!
Mixins, options and contexts as plain data. The fields of a record come in the order of their names.
Mixins can be read back; a context cannot, since neither its library nor its plug-ins are data.
-/

namespace Flatsheet

namespace Mixin

def parameterData (parameter : Parameter) : Data :=
  .record [("default", (parameter.default.map Data.text).getD .null),
    ("name", .text parameter.name)]

def toData (mixin : Mixin) : Data :=
  .record [("body", .text mixin.body), ("name", .text mixin.name),
    ("parameters", .list (mixin.parameters.map parameterData))]

def parameterOfData? (data : Data) : Option Parameter := do
  return ⟨← data.field? "name" >>= Data.text?, data.field? "default" >>= Data.text?⟩

/-- The mixin that a record describes. Its name and the names of its parameters must be there. -/
def ofData? (data : Data) : Option Mixin := do
  let name ← data.field? "name" >>= Data.text?
  let parameters ← ((data.field? "parameters" >>= Data.list?).getD []).mapM parameterOfData?
  return ⟨name, parameters, (data.field? "body" >>= Data.text?).getD []⟩

end Mixin

namespace Options

def toData (options : Options) : Data := .record [("nc", .bool options.nestedComments)]

def toYaml (options : Options) : Text := Yaml.write options.toData

end Options

namespace Context

/-- What a conversion collected, with the literals put back into the values of variables and the
bodies of mixins. -/
def snapshot (context : Context) : Except Fault Data := do
  let restore := fun (text : Text) => (context.vault.restore text).mapError Fault.literal
  let globals ← context.globals.entries.mapM fun (name, value) =>
    return (name, Data.text (← restore value))
  let mixins ← context.mixins.entries.mapM fun (key, mixin) =>
    return (key, { mixin with body := ← restore mixin.body }.toData)
  return .record [
    ("base_path", (context.basePath.map Data.text).getD .null),
    ("diagnostics", .list (context.diagnostics.map fun diagnostic => .text diagnostic.render)),
    ("mixins", .record (Text.sortEntries mixins)),
    ("options", context.options.toData),
    ("quotes", .list (context.vault.literals.map .text)),
    ("variables", .record (Text.sortEntries globals))]

end Context

end Flatsheet
