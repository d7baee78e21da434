import Flatsheet.Options
import Flatsheet.Resource.FileTree
import Flatsheet.Yaml.Reading

/-!
Options written as a YAML document, and files of them.
-/

namespace Flatsheet.Options

/-- Why options could not be read. -/
inductive ReadError where
  | yaml (error : Yaml.Error)
  | options (error : Options.Error)
  /-- There is no file at this path. -/
  | noFile (path : Text)
  /-- The path leads to no readable file. -/
  | unreadable (path : Text) (cause : FileError)
  | undecodable
  /-- The path can be no path of a file. -/
  | nullCharacter
deriving DecidableEq, Repr

/-- What a flag is set to by a value of a document. -/
def yamlSetting (document : Yaml.Document) : Yaml.Value → Setting
  | .null => .bare
  | .text content => .text content.toText
  | value => .truth (document.isTruthy value)

/-- The entry that a key and a value of a document make. -/
def yamlEntry (document : Yaml.Document) (key value : Yaml.Value) : Except Yaml.Error Entry := do
  let shown ← key.shown
  let name :=
    match key with
    | .text content => content.toText
    | _ => shown
  return ⟨name, shown, yamlSetting document value⟩

/-- The options of a mapping, whose entries are taken in order. -/
def ofYamlEntries (document : Yaml.Document) (entries : List (Yaml.Value × Yaml.Value)) :
    Except ReadError Options :=
  entries.foldlM (fun _ (key, value) => do
    let entry ← (yamlEntry document key value).mapError .yaml
    (ofEntry entry).mapError .options) default

/-- The options of a YAML document. An empty document leaves all flags as they are. -/
def ofYaml (text : Text) : Except ReadError Options := do
  let document ← (Yaml.Document.ofText text).mapError .yaml
  match document.root, document.mapping? document.root with
  | .null, _ => return default
  | _, some entries => ofYamlEntries document entries
  | root, none => throw (.options (.notMapping (document.kindName root)))

/-- The number of a file error, which its message tells. -/
def errorNumber : FileError → Nat
  | .notFound => 2
  | .notDirectory => 20
  | .isDirectory => 21
  | .nameTooLong => 36
  | .nullCharacter => 0

/-- The message of an error that concerns the file and not what is in it. -/
def fileMessage (path : Text) (cause : FileError) : Text :=
  "[Errno ".toList ++ Text.ofNat (errorNumber cause) ++ "] ".toList ++ cause.reason ++
    ": ".toList ++ path.displayed

def noFileMessage (path : Text) : Text := "pscss options file not found: ".toList ++ path

/-- The options of a file. A document that breaks the rules of the format is told by its path. -/
def load (tree : FileTree) (path : Text) : Except ReadError Options :=
  match tree.readText .utf8 path with
  | .error .notFound => .error (.noFile path)
  | .error .nullCharacter => .error .nullCharacter
  | .error cause => .error (.unreadable path cause)
  | .ok none => .error .undecodable
  | .ok (some text) =>
      match ofYaml text with
      | .error (.yaml .malformed) => .error (.options (.invalidFile path))
      | result => result

end Flatsheet.Options
