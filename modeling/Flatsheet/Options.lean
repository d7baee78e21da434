import Flatsheet.Text.Displayed

/-!
Options of a conversion. They are given as a flat mapping of flags; any flag that is not known is
refused.
-/

namespace Flatsheet

structure Options where
  /-- Block comments nest. -/
  nestedComments : Bool
deriving DecidableEq, Repr

namespace Options

def default : Options := ⟨false⟩

/-- What a flag is set to. -/
inductive Setting where
  /-- The flag is named and no more. -/
  | bare
  | text (content : Text)
  /-- Any other value counts as true or false. -/
  | truth (value : Bool)
deriving DecidableEq, Repr

/-- The texts that switch a flag off, in whatever case. -/
def offTexts : List Text := ["false", "0", "no", "off"]

/-- A flag without a value is on. -/
def Setting.isOn : Setting → Bool
  | .bare => true
  | .text content => !offTexts.contains (content.trim.map Char.toLower)
  | .truth value => value

structure Entry where
  /-- The key as a text. -/
  name : Text
  /-- The key as messages show it. -/
  shown : Text
  setting : Setting

def flagNames : List Text := ["nc", "nested_comments"]

/-- Whether a key names the flag for nested comments; dashes read as underscores. -/
def isFlag (name : Text) : Bool := flagNames.contains (name.replaceChar '-' '_')

inductive Error where
  /-- A key that is no flag, as messages show it. -/
  | unknown (shown : Text)
  /-- The options are not a mapping but a value of this kind. -/
  | notMapping (kind : Text)
  /-- The file at this path is not readable as YAML. -/
  | invalidFile (path : Text)
deriving DecidableEq, Repr

def Error.message : Error → Text
  | .unknown shown => "Unknown pscss option: ".toList ++ shown
  | .notMapping kind => "pscss options must be a mapping, got ".toList ++ kind
  | .invalidFile path => "Invalid YAML in ".toList ++ path

/-- The options after an entry. There is one flag, so whatever came before does not matter. -/
def ofEntry (entry : Entry) : Except Error Options :=
  if isFlag entry.name then .ok ⟨entry.setting.isOn⟩ else .error (.unknown entry.shown)

/-- Takes the entries in order; the last one decides. -/
def ofEntries (entries : List Entry) : Except Error Options :=
  entries.foldlM (fun _ entry => ofEntry entry) default

end Options

end Flatsheet
