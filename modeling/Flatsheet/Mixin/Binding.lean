import Flatsheet.Mixin.Basic
import Flatsheet.Text.Word

/-!
Binding of arguments. A parameter takes its argument, or else its default, or else the value of the
parameter before it; the number of arguments is not checked. Each name in the body is then replaced
by its value, all of them in one pass.
-/

namespace Flatsheet

/-- The values of parameters, under the texts that stand for them. -/
abbrev Binding := Table Text

namespace Binding

/-- The value of a parameter that no argument and no default gives, when none comes before it. -/
def initialValue : Text := "0"

/-- The first text that is not empty, or else the last one. -/
def firstGiven (argument : Text) (default : Option Text) (previous : Text) : Text :=
  if argument ≠ [] then argument
  else match default with
    | none | some [] => previous
    | some value => value

/-- Binds parameters from left to right, each to the first of the remaining arguments. -/
def extend (binding : Binding) (previous : Text) : List Parameter → List Text → Binding
  | [], _ => binding
  | parameter :: parameters, arguments =>
      let argument :=
        if parameter.isSpread then Text.join ", " arguments else arguments.headD []
      let value := firstGiven argument parameter.default previous
      extend (binding.insert parameter.placeholder value) value parameters arguments.tail

def ofArguments (parameters : List Parameter) (arguments : List Text) : Binding :=
  extend Table.empty initialValue parameters arguments

/-- Whether the name stands at the start of the text and does not go on after it. -/
def standsAt (text name : Text) : Bool :=
  match Text.dropPrefix? name text with
  | some (c :: _) => !isName c
  | some [] => true
  | none => false

/-- The longer of two bound names. -/
def longer (best : Option (Text × Text)) (entry : Text × Text) : Option (Text × Text) :=
  match best with
  | some other => if other.1.length < entry.1.length then some entry else some other
  | none => some entry

/-- The longest bound name that stands at the start of the text, with its value. -/
def nameAt? (binding : Binding) (text : Text) : Option (Text × Text) :=
  (binding.entries.filter fun entry => standsAt text entry.1).foldl longer none

/-- Replaces bound names after `skip` characters that a name has covered. No name stands directly
after a word character; `afterWord` says whether one comes before the text. The empty name, where
it stands, puts its value in front of the next character. -/
def applyFrom (binding : Binding) : (afterWord : Bool) → (skip : Nat) → Text → Text
  | afterWord, _, [] =>
      match if afterWord then none else binding.nameAt? [] with
      | some (_, value) => value
      | none => []
  | _, skip + 1, c :: text => applyFrom binding (isWord c) skip text
  | afterWord, 0, c :: text =>
      match if afterWord then none else binding.nameAt? (c :: text) with
      | some ([], value) => value ++ c :: applyFrom binding (isWord c) 0 text
      | some (_ :: name, value) => value ++ applyFrom binding (isWord c) name.length text
      | none => c :: applyFrom binding (isWord c) 0 text

def apply (binding : Binding) (body : Text) : Text := applyFrom binding false 0 body

end Binding

/-- The body with its parameters replaced. -/
def bindArguments (body : Text) (parameters : List Parameter) (arguments : List Text) : Text :=
  (Binding.ofArguments parameters arguments).apply body

end Flatsheet
