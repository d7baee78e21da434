import Flatsheet.Table
import Flatsheet.Text.Listing

/-!
Mixins: named bodies with parameters. Binding is textual, so the name of a parameter is kept exactly
as written.
-/

namespace Flatsheet

structure Parameter where
  name : Text
  default : Option Text
deriving DecidableEq, Repr

namespace Parameter

def spreadMark : Text := "..."

/-- A spread parameter takes all remaining arguments. -/
def isSpread (parameter : Parameter) : Bool := parameter.name.endsWith spreadMark

/-- The text that stands for the parameter in a body. -/
def placeholder (parameter : Parameter) : Text :=
  if parameter.isSpread then parameter.name.take (parameter.name.length - spreadMark.length)
  else parameter.name

/-- `name` or `name: default`. An empty default is none. -/
def ofText (text : Text) : Parameter :=
  match Text.partition ':' text with
  | (name, none) => ⟨name.trim, none⟩
  | (name, some default) => ⟨name.trim, if default.trim = [] then none else some default.trim⟩

def listOfText (text : Text) : List Parameter := text.splitList.map ofText

end Parameter

structure Mixin where
  name : Text
  parameters : List Parameter
  body : Text
deriving DecidableEq, Repr

/-- The name under which a mixin is filed: underscores read as dashes. -/
def Mixin.key (name : Text) : Text := name.replaceChar '_' '-'

end Flatsheet
